import NativeGate.Binary.Number

/-!
The shortest decimal that reads back. The reals that round to a binary number form an interval; the
search looks on the decimal grids of one digit, two digits and so on for the number's two
neighbours, and the first grid with a neighbour in the interval wins. Of two neighbours the nearer
is taken; which of two that are equally near, and how the decimal is laid out, is up to a style.
A layout is positional, with a point only before a fraction, or has one digit before the point and a
power of ten.
-/

namespace NativeGate.Decimal
open Binary

/-- `digits * 10 ^ exponent`. -/
structure Scaled where
  digits : Nat
  exponent : Int
deriving DecidableEq

/-- Whether `d` is below, at or above `m * 2 ^ q`, in exact arithmetic. -/
def Scaled.compareTo (d : Scaled) (m : Nat) (q : Int) : Ordering :=
  compare (d.digits * 10 ^ d.exponent.toNat * 2 ^ (-q).toNat)
    (m * 2 ^ q.toNat * 10 ^ (-d.exponent).toNat)

/-- Whether `d` lies in the interval of reals that round to `m * 2 ^ q`. The gap below a power of
    two is half the gap above it, and the ends belong to the interval when `m` is even. -/
def readsBack (f : Format) (m : Nat) (q : Int) (d : Scaled) : Bool :=
  let narrow := m = 2 ^ f.fraction ∧ f.leastPlace < q
  let low := d.compareTo (if narrow then 4 * m - 1 else 4 * m - 2) (q - 2)
  let high := d.compareTo (4 * m + 2) (q - 2)
  let closed := m % 2 = 0
  (low = .gt ∨ (closed ∧ low = .eq)) ∧ (high = .lt ∨ (closed ∧ high = .eq))

/-- The least power of ten above `m * 2 ^ q`, from its binary length and a few exact comparisons. -/
def magnitude (m : Nat) (q : Int) : Int :=
  let guess := ((Nat.log2 m : Int) + q) * 30103 / 100000
  let above (e : Int) : Bool := Scaled.compareTo ⟨1, e⟩ m q = .gt
  ([guess - 1, guess, guess + 1].find? above).getD (guess + 2)

/-- Which of two equally near decimals is taken. -/
inductive Tie where
  | upper | even
deriving DecidableEq

/-- The choice between two decimals next to each other, equally near to a number. -/
def Tie.choose (t : Tie) (below above : Scaled) : Scaled :=
  match t with
  | .upper => above
  | .even => if below.digits % 2 = 0 then below else above

/-- The neighbour of `m * 2 ^ q` on the grid `10 ^ e` that reads back and is nearer. -/
def onGrid? (t : Tie) (f : Format) (m : Nat) (q : Int) (e : Int) : Option Scaled :=
  let num := m * 2 ^ q.toNat * 10 ^ (-e).toNat
  let den := 2 ^ (-q).toNat * 10 ^ e.toNat
  let below : Scaled := ⟨num / den, e⟩
  let above : Scaled := ⟨num / den + 1, e⟩
  match readsBack f m q below, readsBack f m q above with
  | true, true =>
    match compare (2 * (num % den)) den with
    | .lt => some below
    | .eq => some (t.choose below above)
    | .gt => some above
  | true, false => some below
  | false, true => some above
  | false, false => none

/-- The shortest decimal of `m * 2 ^ q`; the exact value where seventeen digits did not do. -/
def shortest (t : Tie) (f : Format) (m : Nat) (q : Int) : Scaled :=
  let top := magnitude m q
  match (List.range 17).findSome? fun (n : Nat) => onGrid? t f m q (top - 1 - n) with
  | some d => d
  | none => ⟨m * 2 ^ q.toNat * 5 ^ (-q).toNat, min q 0⟩

/-- The text without its trailing zeros. -/
def dropZeros (cs : List Char) : List Char := (cs.reverse.dropWhile (· = '0')).reverse

/-- The decimal in positional notation. -/
def positional (d : Scaled) : String :=
  if 0 ≤ d.exponent then toString (d.digits * 10 ^ d.exponent.toNat)
  else
    let places := (-d.exponent).toNat
    let whole := d.digits / 10 ^ places
    let digits := Nat.toDigits 10 (d.digits % 10 ^ places)
    let fraction := dropZeros (List.replicate (places - digits.length) '0' ++ digits)
    if fraction.isEmpty then toString whole
    else toString whole ++ "." ++ String.ofList fraction

/-- The power of ten of the first digit. -/
def Scaled.order (d : Scaled) : Int := d.exponent + (Nat.toDigits 10 d.digits).length - 1

/-- The decimal with one digit before the point, and the power of ten with its sign. -/
def scientific (d : Scaled) : String :=
  let digits := dropZeros (Nat.toDigits 10 d.digits)
  let fraction := if digits.length ≤ 1 then "" else "." ++ String.ofList (digits.drop 1)
  let sign := if d.order < 0 then "-" else "+"
  String.ofList (digits.take 1) ++ fraction ++ "e" ++ sign ++ toString d.order.natAbs

/-- The decimal in positional notation if its first digit is that of a power of ten between two
    bounds, and in scientific notation otherwise. -/
def positionalBetween (least greatest : Int) (d : Scaled) : String :=
  if least ≤ d.order ∧ d.order ≤ greatest then positional d else scientific d

/-- How numbers are written: which of two equally near decimals, and in what layout. -/
structure Style where
  tie : Tie
  layOut : Scaled → String

/-- Numbers in messages and listings are positional whatever their size. -/
def plain : Style := ⟨.upper, positional⟩

/-- The text of a number: its shortest decimal, the zeros with their sign, and the three values that
    are no numbers on a line. -/
def write (s : Style) (f : Format) (bits : Nat) : String :=
  match f.datum bits with
  | .nan .. => "NaN"
  | .infinite negative => if negative then "-inf" else "inf"
  | .finite negative m q =>
    let text := if m = 0 then "0" else s.layOut (shortest s.tie f m q)
    if negative then "-" ++ text else text

end NativeGate.Decimal

namespace NativeGate
open Decimal

/-- The number as messages and listings show it. -/
def Single.display (x : Single) : String := write plain Binary.single x.bits.toNat

/-- The number as messages and listings show it. -/
def Double.display (x : Double) : String := write plain Binary.double x.bits.toNat

end NativeGate
