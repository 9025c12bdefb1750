import NativeGate.Data.Tree

/-!
Records: tables with known fields. The fields of a record are read in two passes: the first looks
for the earliest entry that is wrong, in the order in which the entries were written, and the second
picks the fields by name, where one that is missing is a fault or has a default. A list can stand
for a record, its items being the fields in their order.
-/

namespace NativeGate.Data

/-- The entries that a record is read from, the fault of a field without an entry, and whether more
    was given than there are fields. -/
structure Record where
  entries : List (String × Tree)
  missing : String → DecodeFault
  surplus : Bool

namespace Record

/-- A record in a table. -/
def ofTable (title : String) : Reader Record := fun t =>
  match t.entries? with
  | some es => .ok ⟨es, .missingField, false⟩
  | none => t.mismatch ("struct " ++ title)

/-- A record in a table or a list; items beyond the last field are passed over in one notation and
    refused in the other. -/
def ofTree (source : Source) (title : String) (fields : List String) : Reader Record
  | .list items =>
    .ok ⟨fields.zip items, fun _ => .unreadable,
      source == .json && decide (fields.length < items.length)⟩
  | t => ofTable title t

/-- A field that is only looked at for faults. -/
def Check := String × Reader Unit

/-- The check of a field with a reader. -/
def check {α : Type} (name : String) (read : Reader α) : Check :=
  (name, fun t => (read t).map fun _ => ())

/-- Finds the earliest entry that is wrong; entries that are no fields are passed over. -/
def scan (r : Record) (checks : List Check) : Except DecodeFault Unit :=
  r.entries.forM fun e =>
    match List.lookup e.1 checks with
    | some read => read e.2
    | none => .ok ()

/-- A field that must be there. -/
def required {α : Type} (r : Record) (name : String) (read : Reader α) : Except DecodeFault α :=
  match r.entries.lookup name with
  | some t => read t
  | none => .error (r.missing name)

/-- A field with a default. -/
def optional {α : Type} (r : Record) (name : String) (read : Reader α) (default : α) :
    Except DecodeFault α :=
  match r.entries.lookup name with
  | some t => read t
  | none => .ok default

/-- Refuses what is left over. -/
def close (r : Record) : Except DecodeFault Unit := if r.surplus then .error .unreadable else .ok ()

end Record

end NativeGate.Data
