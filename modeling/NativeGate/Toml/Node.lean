import NativeGate.Data.Tree

/-!
Tables under construction. A TOML document may name the tables on the way to a key, and later lines
may add to what earlier lines began; what they may add depends on how a table came to be. Nodes keep
that until the document is complete and then become plain trees.
-/

namespace NativeGate.Toml
open Data

/-- How a table came to be: by a header of its own or by a value, on the way to a header, or on the
    way to a dotted key. -/
inductive Origin where
  | stated | implied | dotted
deriving DecidableEq

/-- A value, a table, or the tables of repeated headers, the latest first. -/
inductive Node where
  | value (t : Tree)
  | table (origin : Origin) (entries : List (String × Node))
  | tables (items : List Node)

abbrev Entries := List (String × Node)

mutual

def Node.tree : Node → Tree
  | .value t => t
  | .table _ entries => .table (treeEntries entries)
  | .tables items => .list (treesOnto [] items)

def treeEntries : List (String × Node) → List (String × Tree)
  | [] => []
  | (name, n) :: rest => (name, n.tree) :: treeEntries rest

def treesOnto (done : List Tree) : List Node → List Tree
  | [] => done
  | n :: rest => treesOnto (n.tree :: done) rest

end

/-- Puts a node under a name, in place of the one there or behind all others. -/
def put (name : String) (n : Node) : Entries → Entries
  | [] => [(name, n)]
  | e :: rest => if e.1 = name then (name, n) :: rest else e :: put name n rest

/-- Takes out the entry of a name. -/
def remove (name : String) (es : Entries) : Entries := es.filter fun e => e.1 ≠ name

/-- Follows a path of names from a table and changes the table at its end, making the tables on the
    way that are not there. A path ends in the latest of repeated tables. The path of a dotted key
    may not lead through a table with a header of its own. -/
def descend {α : Type} (dotted : Bool) (change : Origin → Entries → Option (Entries × α)) :
    List String → Origin → Entries → Option (Entries × α)
  | [], origin, es => change origin es
  | name :: path, _, es =>
    match es.lookup name with
    | none =>
      let made : Origin := if dotted then .dotted else .implied
      (descend dotted change path made []).map fun (inner, a) =>
        (put name (.table made inner) es, a)
    | some (.value _) => none
    | some (.table origin inner) =>
      if dotted ∧ origin = .stated then none
      else
        (descend dotted change path origin inner).map fun (inner, a) =>
          (put name (.table origin inner) es, a)
    | some (.tables (.table origin inner :: earlier)) =>
      (descend dotted change path origin inner).map fun (inner, a) =>
        (put name (.tables (.table origin inner :: earlier)) es, a)
    | some (.tables _) => none

/-- The parts of a key before its last one, and the last. -/
def splitKey : List String → List String × String
  | [] => ([], "")
  | [name] => ([], name)
  | part :: rest =>
    let (path, name) := splitKey rest
    (part :: path, name)

/-- Enters a value under a dotted key. The table at the end of the path has to be one that dotted
    keys made, and the name must be new in it. -/
def assign (key : List String) (t : Tree) (origin : Origin) (es : Entries) : Option Entries :=
  let (path, name) := splitKey key
  let enter (origin : Origin) (es : Entries) : Option (Entries × Unit) :=
    if !path.isEmpty && origin ≠ .dotted then none
    else if (es.lookup name).isSome then none
    else some (put name (.value t) es, ())
  (descend true enter path origin es).map (·.1)

end NativeGate.Toml
