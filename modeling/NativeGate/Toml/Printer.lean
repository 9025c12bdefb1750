import NativeGate.Toml.Scalar

/-!
Writing TOML. A table is written as a block: a header, and a line for every entry that is not a
table itself; blocks are set apart by blank lines. Nothing is written for null, and a table that
holds only tables needs no header of its own. A string takes the first of several forms that shows
it without escapes.
-/

namespace NativeGate.Toml
open Data

/-! ### Strings -/

/-- A control character that no form shows as it is. -/
def needsEscape (c : Char) : Bool :=
  (c.toNat < 0x20 || c.toNat = 0x7f) && c ≠ '\t' && c ≠ '\n'

/-- Whether a character stands three times in a row. -/
def tripled (c : Char) : List Char → Bool
  | [] => false
  | d :: rest => [c, c, c].isPrefixOf (d :: rest) || tripled c rest

/-- A character of a basic string that does not stand for itself there. -/
def escaped (c : Char) : String :=
  match c with
  | '\x08' => "\\b"
  | '\t' => "\\t"
  | '\n' => "\\n"
  | '\x0c' => "\\f"
  | '\r' => "\\r"
  | '"' => "\\\""
  | '\\' => "\\\\"
  | c =>
    if needsEscape c then "\\u" ++ (Text.padded 16 4 c.toNat).toUpper else String.singleton c

def basicForm (cs : List Char) : String := "\"" ++ String.join (cs.map escaped) ++ "\""

/-- The inside of a basic string over several lines, after some quotes in a row. Line feeds stay,
    and so do quotes, except that the third in a row is escaped and begins a new row. -/
def escapedLines : Nat → List Char → String
  | _, [] => ""
  | _, '\n' :: rest => "\n" ++ escapedLines 0 rest
  | quotes, '"' :: rest =>
    if quotes < 2 then "\"" ++ escapedLines (quotes + 1) rest
    else escaped '"' ++ escapedLines 0 rest
  | _, c :: rest => escaped c ++ escapedLines 0 rest

def literalForm (cs : List Char) : String := "'" ++ String.ofList cs ++ "'"

/-- What opens a string between triple marks: the text begins on a line of its own if it has several
    lines. -/
def opening (mark : String) (cs : List Char) : String := if '\n' ∈ cs then mark ++ "\n" else mark

def basicLinesForm (cs : List Char) : String :=
  opening "\"\"\"" cs ++ escapedLines 0 cs ++ "\"\"\""

def literalLinesForm (cs : List Char) : String := opening "'''" cs ++ String.ofList cs ++ "'''"

/-- A string shows as it is in a basic form of one line. -/
def plainBasic (cs : List Char) : Bool :=
  !(cs.any needsEscape) && '\\' ∉ cs && '"' ∉ cs && '\n' ∉ cs

/-- A string shows as it is in a literal form of one line. -/
def plainLiteral (cs : List Char) : Bool := !(cs.any needsEscape) && '\'' ∉ cs && '\n' ∉ cs

/-- The written form of a text. -/
def stringForm (text : String) : String :=
  let cs := text.toList
  if plainBasic cs then basicForm cs
  else if plainLiteral cs then literalForm cs
  else if !(cs.any needsEscape) && '\\' ∉ cs && !tripled '"' cs then basicLinesForm cs
  else if !(cs.any needsEscape) && !tripled '\'' cs then literalLinesForm cs
  else if '\n' ∈ cs then basicLinesForm cs
  else basicForm cs

/-- The written form of one part of a key. -/
def keyForm (name : String) : String :=
  let cs := name.toList
  if !cs.isEmpty && cs.all fun c => c.isAlphanum || c = '_' || c = '-' then name
  else if plainBasic cs then basicForm cs
  else if plainLiteral cs then literalForm cs
  else basicForm cs

/-! ### Tables -/

/-- The form of an entry on one line; tables have blocks instead. -/
def scalarForm? : Tree → Option String
  | .boolean b => some (toString b)
  | .integer n => some (toString n)
  | .float x => some (Source.toml.number x)
  | .text s => some (stringForm s)
  | .time t => some t
  | .null | .list _ | .table _ => none

/-- The lines of the entries that are not tables. -/
def lines (entries : List (String × Tree)) : List String :=
  entries.filterMap fun e => (scalarForm? e.2).map fun form => keyForm e.1 ++ " = " ++ form

/-- The block of a table under its path, if it needs one. -/
def block (path : List String) (entries : List (String × Tree)) : List String :=
  let header := "[" ++ ".".intercalate (path.map keyForm) ++ "]"
  let body := lines entries
  let isEmpty := entries.all fun e => e.2.isNull
  if path.isEmpty || (body.isEmpty && !isEmpty) then body else header :: body

mutual

/-- The blocks of a table and of the tables in it. -/
def blocks (path : List String) : Tree → List (List String)
  | .table entries => block path entries :: innerBlocks path entries
  | _ => []

def innerBlocks (path : List String) : List (String × Tree) → List (List String)
  | [] => []
  | (name, t) :: rest => blocks (path ++ [name]) t ++ innerBlocks path rest

end

/-- The text of a table. -/
def print (t : Tree) : String :=
  let shown := (blocks [] t).filter fun b => !b.isEmpty
  "\n".intercalate (shown.map fun b => String.join (b.map fun line => line ++ "\n"))

mutual

/-- Whether every integer has the sign and the 64 bits that the notation has for it. -/
def fits : Tree → Bool
  | .integer n => (integer? n).isSome
  | .list items => itemsFit items
  | .table entries => entriesFit entries
  | _ => true

def itemsFit : List Tree → Bool
  | [] => true
  | t :: rest => fits t && itemsFit rest

def entriesFit : List (String × Tree) → Bool
  | [] => true
  | (_, t) :: rest => fits t && entriesFit rest

end

/-- Writes a table, unless one of its integers is out of range. -/
def write? (t : Tree) : Option String := if fits t then some (print t) else none

end NativeGate.Toml
