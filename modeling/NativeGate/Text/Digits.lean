/-!
Numbers written in a base. `Text.natural?` reads a non-empty run of digits, `Text.signed?` lets one
sign stand before it, and `Text.hexadecimal` writes lower-case digits without padding.
-/

namespace NativeGate.Text

/-- The value of a digit in bases up to sixteen; letters count in either case. -/
def digit? (base : Nat) (c : Char) : Option Nat :=
  let n := c.toNat
  let value :=
    if 48 ≤ n ∧ n ≤ 57 then n - 48
    else if 97 ≤ n ∧ n ≤ 102 then n - 87
    else if 65 ≤ n ∧ n ≤ 70 then n - 55
    else base
  if value < base then some value else none

/-- The number that the digits write after a number already read. -/
def accumulate? (base : Nat) : Nat → List Char → Option Nat
  | acc, [] => some acc
  | acc, c :: rest => (digit? base c).bind fun d => accumulate? base (acc * base + d) rest

/-- A natural number: at least one digit, and nothing but digits. -/
def natural? (base : Nat) : List Char → Option Nat
  | [] => none
  | cs => accumulate? base 0 cs

/-- A natural number with at most one `+` before it. -/
def unsigned? (base : Nat) : List Char → Option Nat
  | '+' :: rest => natural? base rest
  | cs => natural? base cs

/-- An integer: a natural number with at most one sign before it. -/
def signed? (base : Nat) : List Char → Option Int
  | '+' :: rest => (natural? base rest).map Int.ofNat
  | '-' :: rest => (natural? base rest).map fun n => -(n : Int)
  | cs => (natural? base cs).map Int.ofNat

def hexadecimal (n : Nat) : String := String.ofList (Nat.toDigits 16 n)

/-- The digits of `n` with zeros in front up to the given width. -/
def padded (base width n : Nat) : String :=
  let digits := Nat.toDigits base n
  String.ofList (List.replicate (width - digits.length) '0' ++ digits)

/-- Two upper-case hexadecimal digits. -/
def hexByte (b : UInt8) : String := (padded 16 2 b.toNat).toUpper

end NativeGate.Text
