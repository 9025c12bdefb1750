import NativeGate.Error

/-!
Byte patterns. An identifier with a space in it is a pattern of code bytes, written in pairs of
hexadecimal digits with blanks anywhere between the digits; an identifier without one is the name of
a symbol.
-/

namespace NativeGate.Pattern

/-- Space, tab, line feed, form feed or carriage return. -/
def isBlank (c : Char) : Bool :=
  c = ' ' || c = '\t' || c = '\n' || c = '\x0c' || c = '\r'

/-- The bytes that successive pairs of characters write. -/
def pairs? : List Char → Option (List UInt8)
  | [] => some []
  | [_] => none
  | a :: b :: rest =>
    (Text.unsigned? 16 [a, b]).bind fun n => (pairs? rest).map (UInt8.ofNat n :: ·)

/-- The bytes of a pattern, none for an identifier without a space. -/
def parse (identifier : String) : Except Error (Option (List UInt8)) :=
  if ' ' ∉ identifier.toList then .ok none
  else
    let digits := identifier.toList.filter fun c => !isBlank c
    match digits, pairs? digits with
    | _ :: _, some bytes => .ok (some bytes)
    | _, _ => .error (.library (.invalidPattern identifier))

/-- The written form of a pattern. -/
def text (bytes : List UInt8) : String := Text.hexPairs bytes

end NativeGate.Pattern
