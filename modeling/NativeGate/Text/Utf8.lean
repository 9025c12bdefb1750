/-!
Text as bytes. `encode` writes characters in UTF-8. Reading scans a byte string into pieces, one
for each character and one for each longest piece that begins like a character and does not go on
like one; `decode?` wants characters only, and `decodeLossy` shows the replacement character for
every other piece.
-/

namespace NativeGate.Text.Utf8

/-- The bytes of one character. -/
def encodeChar (c : Char) : List UInt8 :=
  let n := c.toNat
  if n < 0x80 then [UInt8.ofNat n]
  else if n < 0x800 then [UInt8.ofNat (0xC0 + n / 64), UInt8.ofNat (0x80 + n % 64)]
  else if n < 0x10000 then
    [UInt8.ofNat (0xE0 + n / 4096), UInt8.ofNat (0x80 + n / 64 % 64), UInt8.ofNat (0x80 + n % 64)]
  else
    [UInt8.ofNat (0xF0 + n / 262144), UInt8.ofNat (0x80 + n / 4096 % 64),
      UInt8.ofNat (0x80 + n / 64 % 64), UInt8.ofNat (0x80 + n % 64)]

def encode (cs : List Char) : List UInt8 := cs.flatMap encodeChar

/-- A character that has begun: the value so far, the bytes wanted after the next one, and the
    range that the next one must lie in. -/
structure Pending where
  value : Nat
  more : Nat
  low : Nat
  high : Nat
deriving DecidableEq

/-- What a byte does where a character may begin. -/
inductive Lead where
  | ends (piece : Option Char)
  | begins (p : Pending)

/-- The ranges of the second byte keep out overlong forms, surrogates and values past the last
    code point. -/
def lead (b : UInt8) : Lead :=
  let n := b.toNat
  if n < 0x80 then .ends (some (Char.ofNat n))
  else if n < 0xC2 then .ends none
  else if n < 0xE0 then .begins ⟨n - 0xC0, 0, 0x80, 0xBF⟩
  else if n < 0xF0 then
    .begins ⟨n - 0xE0, 1, if n = 0xE0 then 0xA0 else 0x80, if n = 0xED then 0x9F else 0xBF⟩
  else if n < 0xF5 then
    .begins ⟨n - 0xF0, 2, if n = 0xF0 then 0x90 else 0x80, if n = 0xF4 then 0x8F else 0xBF⟩
  else .ends none

/-- The pieces of a byte string; a piece that is no character is `none`. -/
def pieces : Option Pending → List UInt8 → List (Option Char)
  | none, [] => []
  | some _, [] => [none]
  | none, b :: rest =>
    match lead b with
    | .ends piece => piece :: pieces none rest
    | .begins p => pieces (some p) rest
  | some p, b :: rest =>
    if p.low ≤ b.toNat ∧ b.toNat ≤ p.high then
      let value := p.value * 64 + (b.toNat - 0x80)
      match p.more with
      | 0 => some (Char.ofNat value) :: pieces none rest
      | more + 1 => pieces (some ⟨value, more, 0x80, 0xBF⟩) rest
    else
      match lead b with
      | .ends piece => none :: piece :: pieces none rest
      | .begins q => none :: pieces (some q) rest

/-- The characters of a well-formed byte string. -/
def decode? (bytes : List UInt8) : Option (List Char) := (pieces none bytes).mapM id

/-- The characters of a byte string, with the replacement character for each ill-formed piece. -/
def decodeLossy (bytes : List UInt8) : List Char :=
  (pieces none bytes).map fun piece => piece.getD (Char.ofNat 0xFFFD)

end NativeGate.Text.Utf8
