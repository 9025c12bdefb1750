/-!
Dictionaries from names to values. The entries are kept in strictly increasing order of their names,
so a dictionary is the same value whatever order its entries came in, and every listing of it is in
order. Main statement: `find?_insert`, an insertion is seen under its own name and nowhere else.
-/

namespace NativeGate

/-- Entries in strictly increasing order of their names. -/
structure Dict (α : Type) where
  entries : List (String × α)
  ordered : entries.Pairwise fun a b => a.1 < b.1
deriving DecidableEq

namespace Dict
variable {α β : Type}

def empty : Dict α := ⟨[], .nil⟩

def isEmpty (d : Dict α) : Bool := d.entries.isEmpty

def size (d : Dict α) : Nat := d.entries.length

def names (d : Dict α) : List String := d.entries.map (·.1)

/-- The value under a name. -/
def find? (d : Dict α) (name : String) : Option α := d.entries.lookup name

/-- The entries with `v` under `name`, in its place. -/
def insertEntry (name : String) (v : α) : List (String × α) → List (String × α)
  | [] => [(name, v)]
  | e :: rest =>
    if name < e.1 then (name, v) :: e :: rest
    else if e.1 < name then e :: insertEntry name v rest
    else (name, v) :: rest

theorem mem_insertEntry {name : String} {v : α} {es : List (String × α)} {e : String × α}
    (h : e ∈ insertEntry name v es) : e = (name, v) ∨ e ∈ es := by
  induction es with
  | nil => simpa [insertEntry] using h
  | cons d rest ih =>
    unfold insertEntry at h
    split at h
    · simpa using h
    · split at h
      · rcases List.mem_cons.1 h with rfl | h
        · simp
        · rcases ih h with h | h <;> simp [h]
      · rcases List.mem_cons.1 h with rfl | h <;> simp_all

theorem ordered_insertEntry (name : String) (v : α) {es : List (String × α)}
    (h : es.Pairwise fun a b => a.1 < b.1) :
    (insertEntry name v es).Pairwise fun a b => a.1 < b.1 := by
  induction es with
  | nil => simp [insertEntry]
  | cons e rest ih =>
    obtain ⟨first, later⟩ := List.pairwise_cons.1 h
    unfold insertEntry
    split
    · rename_i below
      refine List.pairwise_cons.2 ⟨fun a ha => ?_, h⟩
      rcases List.mem_cons.1 ha with rfl | ha
      · exact below
      · exact String.lt_trans below (first a ha)
    · split
      · rename_i above
        refine List.pairwise_cons.2 ⟨fun a ha => ?_, ih later⟩
        rcases mem_insertEntry ha with rfl | ha
        · exact above
        · exact first a ha
      · rename_i notBelow notAbove
        have same : e.1 = name :=
          String.le_antisymm (String.not_lt.1 notBelow) (String.not_lt.1 notAbove)
        exact List.pairwise_cons.2 ⟨fun a ha => same ▸ first a ha, later⟩

/-- Puts a value under a name, in place of the one that was there. -/
def insert (d : Dict α) (name : String) (v : α) : Dict α :=
  ⟨insertEntry name v d.entries, ordered_insertEntry name v d.ordered⟩

/-- The dictionary of a list of entries, the later of two under one name winning. -/
def ofList (es : List (String × α)) : Dict α := es.foldl (fun d e => d.insert e.1 e.2) empty

/-- All entries of both; where both have a name, that of the second. -/
def union (d e : Dict α) : Dict α := e.entries.foldl (fun d e => d.insert e.1 e.2) d

theorem lookup_cons_eq (name other : String) (v : α) (es : List (String × α)) :
    List.lookup other ((name, v) :: es) = if other = name then some v else es.lookup other := by
  rw [List.lookup_cons]
  by_cases same : other = name
  · simp [same]
  · simp [same, beq_eq_false_iff_ne.2 same]

theorem lookup_insertEntry (name other : String) (v : α) (es : List (String × α)) :
    (insertEntry name v es).lookup other = if other = name then some v else es.lookup other := by
  induction es with
  | nil => exact lookup_cons_eq name other v []
  | cons e rest ih =>
    unfold insertEntry
    split
    · exact lookup_cons_eq name other v (e :: rest)
    · split
      · rename_i above
        have differ : e.1 ≠ name := fun same => String.lt_irrefl name (same ▸ above)
        rw [lookup_cons_eq e.1 other e.2, lookup_cons_eq e.1 other e.2, ih]
        by_cases here : other = e.1
        · simp [here, differ]
        · simp [here]
      · rename_i notBelow notAbove
        have same : e.1 = name :=
          String.le_antisymm (String.not_lt.1 notBelow) (String.not_lt.1 notAbove)
        rw [lookup_cons_eq, lookup_cons_eq e.1 other e.2, same]
        by_cases here : other = name <;> simp [here]

theorem find?_insert (d : Dict α) (name other : String) (v : α) :
    (d.insert name v).find? other = if other = name then some v else d.find? other :=
  lookup_insertEntry name other v d.entries

end Dict

end NativeGate
