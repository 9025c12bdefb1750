import NativeGate.Text.Digits

/-!
The texts of a TOML document: blanks, comments, and strings in four forms. A basic string has
escapes, a literal string has none, and either may run over several lines between triple marks. A
scanner takes characters from the front and gives what it read with what is left.
-/

namespace NativeGate.Toml

/-- Takes characters from the front, or refuses them. -/
abbrev Scanner (α : Type) := List Char → Option (α × List Char)

/-- Every character but the control characters; a tab is none of those. -/
def isPlain (c : Char) : Bool := c = '\t' || (c.toNat ≥ 0x20 && c.toNat ≠ 0x7f)

/-- Space or tab. -/
def isBlank (c : Char) : Bool := c = ' ' || c = '\t'

def skipBlank (cs : List Char) : List Char := cs.dropWhile isBlank

/-- Takes a line ending. -/
def newline? : List Char → Option (List Char)
  | '\n' :: rest => some rest
  | '\r' :: '\n' :: rest => some rest
  | _ => none

/-- Takes the end of a line that holds no more than a comment. -/
def endOfLine? (cs : List Char) : Option (List Char) :=
  let after :=
    match skipBlank cs with
    | '#' :: rest => rest.dropWhile isPlain
    | rest => rest
  if after.isEmpty then some [] else newline? after

/-- Skips blanks, line endings and whole comments; a comment has to end in a line ending. -/
def skipLines (inComment : Bool) : List Char → Option (List Char)
  | [] => if inComment then none else some []
  | '\n' :: rest => skipLines false rest
  | '\r' :: '\n' :: rest => skipLines false rest
  | c :: rest =>
    if inComment then if isPlain c then skipLines true rest else none
    else if isBlank c then skipLines false rest
    else if c = '#' then skipLines true rest
    else some (c :: rest)

/-- Puts a character before what a scanner read. -/
def before (c : Char) (r : Option (List Char × List Char)) : Option (List Char × List Char) :=
  r.map fun (cs, rest) => (c :: cs, rest)

/-! ### Escapes -/

/-- The character of an escape of one letter. -/
def letterEscape? : Char → Option Char
  | 'b' => some '\x08'
  | 't' => some '\t'
  | 'n' => some '\n'
  | 'f' => some '\x0c'
  | 'r' => some '\r'
  | '"' => some '"'
  | '\\' => some '\\'
  | _ => none

/-- The character with a code point in base sixteen. -/
def codePoint? (digits : List Char) : Option Char :=
  (Text.natural? 16 digits).bind fun n => if h : n.isValidChar then some (.ofNatAux n h) else none

/-! ### One line -/

/-- The rest of a basic string, after its opening mark. -/
def basic : Scanner (List Char)
  | [] => none
  | '"' :: rest => some ([], rest)
  | '\\' :: 'u' :: a :: b :: c :: d :: rest =>
    (codePoint? [a, b, c, d]).bind fun x => before x (basic rest)
  | '\\' :: 'U' :: a :: b :: c :: d :: e :: f :: g :: h :: rest =>
    (codePoint? [a, b, c, d, e, f, g, h]).bind fun x => before x (basic rest)
  | '\\' :: c :: rest => (letterEscape? c).bind fun x => before x (basic rest)
  | c :: rest => if isPlain c && c ≠ '\\' then before c (basic rest) else none

/-- The rest of a literal string, after its opening mark. -/
def literal (cs : List Char) : Option (List Char × List Char) :=
  let isInside (c : Char) := isPlain c && c ≠ '\''
  match cs.dropWhile isInside with
  | '\'' :: rest => some (cs.takeWhile isInside, rest)
  | _ => none

/-! ### Several lines -/

/-- What a backslash at the end of a line has left to skip: the rest of its line, or everything up
    to the next character that is not blank. -/
inductive Skip where
  | nothing | line | lines
deriving DecidableEq

/-- The rest of a basic string between triple marks. One or two marks that do not close the string
    belong to it, also right before the closing marks. -/
def basicLines : Skip → Scanner (List Char)
  | _, [] => none
  | skip, c :: rest =>
    if skip ≠ .nothing && isBlank c then basicLines skip rest
    else if c = '\n' then
      if skip = .nothing then before '\n' (basicLines .nothing rest) else basicLines .lines rest
    else if c = '\r' then
      match rest with
      | '\n' :: rest =>
        if skip = .nothing then before '\n' (basicLines .nothing rest) else basicLines .lines rest
      | _ => none
    else if skip = .line then none
    else if c = '"' then
      match rest with
      | '"' :: '"' :: '"' :: '"' :: rest => some (['"', '"'], rest)
      | '"' :: '"' :: '"' :: rest => some (['"'], rest)
      | '"' :: '"' :: rest => some ([], rest)
      | rest => before '"' (basicLines .nothing rest)
    else if c = '\\' then
      match rest with
      | 'u' :: a :: b :: c :: d :: rest =>
        (codePoint? [a, b, c, d]).bind fun x => before x (basicLines .nothing rest)
      | 'U' :: a :: b :: c :: d :: e :: f :: g :: h :: rest =>
        (codePoint? [a, b, c, d, e, f, g, h]).bind fun x => before x (basicLines .nothing rest)
      | '\n' :: rest => basicLines .lines rest
      | '\r' :: '\n' :: rest => basicLines .lines rest
      | c :: rest =>
        if isBlank c then basicLines .line rest
        else (letterEscape? c).bind fun x => before x (basicLines .nothing rest)
      | [] => none
    else if isPlain c then before c (basicLines .nothing rest)
    else none

/-- The rest of a literal string between triple marks. -/
def literalLines : Scanner (List Char)
  | [] => none
  | '\'' :: '\'' :: '\'' :: '\'' :: '\'' :: rest => some (['\'', '\''], rest)
  | '\'' :: '\'' :: '\'' :: '\'' :: rest => some (['\''], rest)
  | '\'' :: '\'' :: '\'' :: rest => some ([], rest)
  | '\r' :: '\n' :: rest => before '\n' (literalLines rest)
  | c :: rest => if isPlain c || c = '\n' then before c (literalLines rest) else none

/-- The text without a line ending at its front. -/
def dropNewline (cs : List Char) : List Char := (newline? cs).getD cs

/-- A string in any of the four forms. -/
def string : Scanner (List Char)
  | '"' :: '"' :: '"' :: rest => basicLines .nothing (dropNewline rest)
  | '"' :: rest => basic rest
  | '\'' :: '\'' :: '\'' :: rest => literalLines (dropNewline rest)
  | '\'' :: rest => literal rest
  | _ => none

/-! ### Keys -/

def isKeyChar (c : Char) : Bool := c.isAlphanum || c = '_' || c = '-'

/-- One part of a key: a bare word, or a string of one line. -/
def simpleKey : Scanner (List Char)
  | '"' :: rest => basic rest
  | '\'' :: rest => literal rest
  | cs =>
    let word := cs.takeWhile isKeyChar
    if word.isEmpty then none else some (word, cs.dropWhile isKeyChar)

/-- The parts of a key between dots, with blanks around every part. -/
def keyParts : Nat → Scanner (List String)
  | 0, _ => none
  | fuel + 1, cs =>
    (simpleKey (skipBlank cs)).bind fun (part, rest) =>
      match skipBlank rest with
      | '.' :: rest =>
        (keyParts fuel rest).map fun (parts, rest) => (String.ofList part :: parts, rest)
      | rest => some ([String.ofList part], rest)

end NativeGate.Toml
