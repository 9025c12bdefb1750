import NativeGate.Binary.Number
import NativeGate.Text.Digits

/-!
Reading a decimal number. A text is an optional sign before digits with at most one point among
them and an optional exponent, or before one of the words for infinity and NaN. The digits and the
exponent make an exact quotient, which is rounded once.
-/

namespace NativeGate.Decimal
open Binary

/-- Reads an optional exponent: nothing, or `e` and an integer. -/
def exponent? : List Char → Option Int
  | [] => some 0
  | c :: rest => if c = 'e' ∨ c = 'E' then Text.signed? 10 rest else none

/-- The digits before and after the point, and the exponent. -/
structure Parts where
  whole : List Char
  fraction : List Char
  exponent : Int

/-- Splits an unsigned decimal; at least one digit stands on either side of the point. -/
def parts? (cs : List Char) : Option Parts :=
  let whole := cs.takeWhile Char.isDigit
  let rest := cs.dropWhile Char.isDigit
  let (fraction, tail) :=
    match rest with
    | '.' :: after => (after.takeWhile Char.isDigit, after.dropWhile Char.isDigit)
    | _ => ([], rest)
  if whole.isEmpty && fraction.isEmpty then none
  else (exponent? tail).map fun e => ⟨whole, fraction, e⟩

/-- The 64-bit number nearest to the decimal. Outside the range of the format the exponent is not
    carried out: past 400 places the number is infinite, and below 400 places it is zero. -/
def Parts.round (p : Parts) (negative : Bool) : Double :=
  let digits := ((p.whole ++ p.fraction).dropWhile (· = '0'))
  let scale := p.exponent - p.fraction.length
  let top := scale + digits.length
  let m := (Text.natural? 10 digits).getD 0
  .ofBits <|
    if m = 0 ∨ top < -400 then double.signBit negative
    else if 400 < top then double.signBit negative + double.infinity
    else double.round negative (m * 10 ^ scale.toNat) (10 ^ (-scale).toNat)

/-- Reads an unsigned number or word. -/
def magnitude? (negative : Bool) (cs : List Char) : Option Double :=
  match (String.ofList cs).toLower with
  | "inf" | "infinity" => some (.ofBits (double.signBit negative + double.infinity))
  | "nan" => some (.ofBits (double.nanBits negative 0))
  | _ => (parts? cs).map fun p => p.round negative

/-- Reads a number with an optional sign. -/
def read? : List Char → Option Double
  | '-' :: rest => magnitude? true rest
  | '+' :: rest => magnitude? false rest
  | cs => magnitude? false cs

end NativeGate.Decimal
