import NativeGate.Toml.Node
import NativeGate.Toml.Scalar

/-!
TOML documents. A document is a sequence of statements, one to a line: an entry, or the header of a
table that the following entries belong to. The statements build up a table, and a statement that
does not fit what is there refuses the document.
-/

namespace NativeGate.Toml
open Data

/-! ### Values -/

/-- The items of an array, after the opening bracket. -/
def arrayItems (item : Scanner Tree) : Nat → Scanner (List Tree)
  | 0, _ => none
  | fuel + 1, cs => do
    let cs ← skipLines false cs
    match cs with
    | ']' :: rest => return ([], rest)
    | cs =>
      let (t, rest) ← item cs
      match ← skipLines false rest with
      | ',' :: rest =>
        let (ts, rest) ← arrayItems item fuel rest
        return (t :: ts, rest)
      | ']' :: rest => return ([t], rest)
      | _ => none

/-- Levels of arrays and tables that a value may have, and parts of a key, less one. -/
def depthLimit : Nat := 80

/-- A key of fewer parts than the limit. -/
def key (cs : List Char) : Option (List String × List Char) :=
  (keyParts cs.length cs).filter fun r => r.1.length < depthLimit

/-- A key, the sign after it and a value. -/
def entry (item : Scanner Tree) (cs : List Char) : Option ((List String × Tree) × List Char) := do
  let (name, rest) ← key cs
  let rest ← mark '=' rest
  let (t, rest) ← item (skipBlank rest)
  return ((name, t), rest)

/-- The entries of a table on one line, from the first key on. -/
def inlineEntries (item : Scanner Tree) : Nat → Scanner (List (List String × Tree))
  | 0, _ => none
  | fuel + 1, cs => do
    let (e, rest) ← entry item cs
    match skipBlank rest with
    | ',' :: rest =>
      let (es, rest) ← inlineEntries item fuel rest
      return (e :: es, rest)
    | '}' :: rest => return ([e], rest)
    | _ => none

/-- The table of a list of entries. -/
def inlineTable (es : List (List String × Tree)) : Option Tree :=
  (es.foldlM (fun (table : Entries) e => assign e.1 e.2 .stated table) []).map fun table =>
    .table (treeEntries table)

/-- A value with less than `depth` levels of arrays and tables in it. -/
def value : Nat → Scanner Tree
  | 0, _ => none
  | depth + 1, cs =>
    match cs with
    | '[' :: rest =>
      if depth = 0 then none
      else (arrayItems (value depth) (rest.length + 1) rest).map fun (ts, rest) => (.list ts, rest)
    | '{' :: rest =>
      if depth = 0 then none
      else
        match skipBlank rest with
        | '}' :: rest => some (.table [], rest)
        | inside => do
          let (es, rest) ← inlineEntries (value depth) (inside.length + 1) inside
          return (← inlineTable es, rest)
    | 't' :: 'r' :: 'u' :: 'e' :: rest => some (.boolean true, rest)
    | 'f' :: 'a' :: 'l' :: 's' :: 'e' :: rest => some (.boolean false, rest)
    | '"' :: _ | '\'' :: _ => (string cs).map fun (s, rest) => (.text (String.ofList s), rest)
    | cs => (time cs).or (number cs)

/-! ### Statements -/

/-- One line of a document. -/
inductive Statement where
  | entry (key : List String) (t : Tree)
  | header (key : List String)
  | repeatedHeader (key : List String)

/-- A statement without the end of its line. -/
def statement : Scanner Statement
  | '[' :: '[' :: cs => do
    let (name, rest) ← key cs
    return (.repeatedHeader name, ← mark ']' (← mark ']' rest))
  | '[' :: cs => do
    let (name, rest) ← key cs
    return (.header name, ← mark ']' rest)
  | cs => do
    let ((name, t), rest) ← entry (value depthLimit) cs
    return (.entry name t, rest)

/-- The statements of a text. -/
def statements : Nat → List Char → Option (List Statement)
  | 0, _ => none
  | fuel + 1, cs =>
    match skipBlank cs with
    | [] => some []
    | '#' :: _ | '\n' :: _ | '\r' :: _ => do statements fuel (← endOfLine? cs)
    | line => do
      let (s, rest) ← statement line
      let later ← statements fuel (← endOfLine? rest)
      return s :: later

/-! ### The table of a document -/

/-- A document under construction: the tables that are closed, and the one that entries go to, with
    the header that opened it. -/
structure Draft where
  root : Entries
  header : Option Statement
  entries : Entries

namespace Draft

/-- Enters the open table where its header says. -/
def closeTable (d : Draft) : Option Entries :=
  let table : Node := .table .stated d.entries
  match d.header with
  | some (.header key) =>
    let (path, name) := splitKey key
    (descend false (fun _ es => some (put name table es, ())) path .stated d.root).map (·.1)
  | some (.repeatedHeader key) =>
    let (path, name) := splitKey key
    let append (_ : Origin) (es : Entries) : Option (Entries × Unit) :=
      match es.lookup name with
      | some (.tables items) => some (put name (.tables (table :: items)) es, ())
      | _ => none
    (descend false append path .stated d.root).map (·.1)
  | _ => some d.entries

/-- Opens the table of a header. A table that was only implied so far is taken up with what it has;
    any other table of that name refuses the header. -/
def openTable (key : List String) (root : Entries) : Option Draft :=
  let (path, name) := splitKey key
  let takeUp (_ : Origin) (es : Entries) : Option (Entries × Entries) :=
    match es.lookup name with
    | none => some (es, [])
    | some (.table .implied inner) => some (remove name es, inner)
    | some _ => none
  (descend false takeUp path .stated root).map fun (root, inner) =>
    ⟨root, some (.header key), inner⟩

/-- Opens one more of the tables of a repeated header. -/
def openRepeated (key : List String) (root : Entries) : Option Draft :=
  let (path, name) := splitKey key
  let reserve (_ : Origin) (es : Entries) : Option (Entries × Unit) :=
    match es.lookup name with
    | none => some (put name (.tables []) es, ())
    | some (.tables _) => some (es, ())
    | some _ => none
  (descend false reserve path .stated root).map fun (root, _) =>
    ⟨root, some (.repeatedHeader key), []⟩

/-- Carries out one statement. -/
def step (d : Draft) : Statement → Option Draft
  | .entry key t => (assign key t .stated d.entries).map fun entries => { d with entries }
  | .header key => d.closeTable.bind (openTable key)
  | .repeatedHeader key => d.closeTable.bind (openRepeated key)

end Draft

/-- The table that a text writes. -/
def read (text : String) : Option Tree := do
  let cs :=
    match text.toList with
    | '\ufeff' :: rest => rest
    | cs => cs
  let d ← (← statements (cs.length + 1) cs).foldlM Draft.step ⟨[], none, []⟩
  return .table (treeEntries (← d.closeTable))

end NativeGate.Toml
