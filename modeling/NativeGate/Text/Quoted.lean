import NativeGate.Text.Digits
import NativeGate.Text.Printable

/-!
Quoted texts, as messages and listings show them: between double quotes, on one line, with nothing
hidden. A few characters have an escape of one letter; every other character without a form of its
own is given by its code point.
-/

namespace NativeGate.Text

/-- How a character stands between the quotes. -/
def escape (c : Char) : String :=
  match c with
  | '\x00' => "\\0"
  | '\t' => "\\t"
  | '\r' => "\\r"
  | '\n' => "\\n"
  | '"' => "\\\""
  | '\\' => "\\\\"
  | c => if isHidden c then "\\u\x7b" ++ hexadecimal c.toNat ++ "\x7d" else String.singleton c

/-- The characters between double quotes, each in its shown form. -/
def quoteChars (cs : List Char) : String := "\"" ++ String.join (cs.map escape) ++ "\""

def quote (text : String) : String := quoteChars text.toList

end NativeGate.Text
