import NativeGate.Data.Fault
import NativeGate.Dict
import NativeGate.Integer

/-!
Data trees: what a configuration file or a message says, before anyone has asked what it is about.
Readers take a tree for what they expect or name the fault. The two notations that trees come from
are not read alike in every respect, so a reader is told the notation. A date or a time passes for a
table with one entry wherever any table does.
-/

namespace NativeGate.Data

/-- A tree of data; the entries of a table are in the order they were written. -/
inductive Tree where
  | null
  | boolean (b : Bool)
  | integer (n : Int)
  | float (x : Double)
  | text (s : String)
  | time (written : String)
  | list (items : List Tree)
  | table (entries : List (String × Tree))
deriving Inhabited

namespace Tree

/-- How a tree is named where something else was expected. -/
def unexpected : Tree → Unexpected
  | null => .null
  | boolean b => .boolean b
  | integer n => .integer n
  | float x => .float x
  | text s => .text s
  | list _ => .list
  | time _ | table _ => .table

/-- The fault of a tree that is not what was expected. -/
def mismatch {α : Type} (t : Tree) (expected : String) : Except DecodeFault α :=
  .error (.invalidType t.unexpected expected)

/-- The name of the entry that holds a time where it passes for a table. -/
def timeEntry : String := "$__toml_private_datetime"

/-- The entries of what is or passes for a table. -/
def entries? : Tree → Option (List (String × Tree))
  | table entries => some entries
  | time written => some [(timeEntry, .text written)]
  | _ => none

def isNull : Tree → Bool
  | null => true
  | _ => false

/-- An entry that may be null. -/
def ofOption {α : Type} (write : α → Tree) : Option α → Tree
  | some a => write a
  | none => null

end Tree

/-! ### Readers -/

/-- A reader of trees. -/
abbrev Reader (α : Type) := Tree → Except DecodeFault α

def readText : Reader String
  | .text s => .ok s
  | t => t.mismatch "a string"

def readBoolean : Reader Bool
  | .boolean b => .ok b
  | t => t.mismatch "a boolean"

/-- Reads an integer that `of?` accepts; one that it refuses is out of range. -/
def readInteger {α : Type} (expected : String) (of? : Int → Option α) : Reader α
  | .integer n =>
    match of? n with
    | some a => .ok a
    | none => .error .unreadable
  | t => t.mismatch expected

/-- A signed 64-bit integer. -/
def readOffset : Reader Int64 :=
  readInteger "isize" fun n => if FitsSigned 64 n then some (.ofInt n) else none

/-- An unsigned 64-bit integer. -/
def readCount : Reader UInt64 :=
  readInteger "usize" fun n => if FitsUnsigned 64 n then some (.ofNat n.toNat) else none

/-- Reads null as nothing. -/
def readOptional {α : Type} (read : Reader α) : Reader (Option α)
  | .null => .ok none
  | t => (read t).map some

/-- Reads a text that `parse` accepts. -/
def readParsed {α : Type} (parse : String → Except DecodeFault α) : Reader α :=
  fun t => (readText t).bind parse

/-- Reads one of several names. A table of one entry may stand for its name; what the entry holds is
    then as good as nothing: an empty table or list in one notation, null in the other. -/
def readChoice {α : Type} (source : Source) (choices : List (String × α)) : Reader α
  | .text s => choose s
  | .table [(name, t)] =>
    match choose name with
    | .error fault => .error fault
    | .ok a =>
      match source, t with
      | .json, .null | .toml, .table [] | .toml, .list [] => .ok a
      | .json, t => t.mismatch "unit"
      | .toml, _ => .error .unreadable
  | .table _ => .error .unreadable
  | t =>
    match source with
    | .json => t.mismatch "string or map"
    | .toml => .error .unreadable
where
  choose (s : String) : Except DecodeFault α :=
    match choices.lookup s with
    | some a => .ok a
    | none => .error (.unknownVariant s (choices.map (·.1)))

/-- Reads a table with entries of one type. -/
def readDict {α : Type} (read : Reader α) : Reader (Dict α) := fun t =>
  match t.entries? with
  | some es => es.foldlM (fun d e => (read e.2).map (d.insert e.1)) .empty
  | none => t.mismatch "a map"

def writeDict {α : Type} (write : α → Tree) (d : Dict α) : Tree :=
  .table (d.entries.map fun e => (e.1, write e.2))

end NativeGate.Data
