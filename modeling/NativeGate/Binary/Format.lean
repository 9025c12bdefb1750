import NativeGate.Integer

/-!
Binary floating-point numbers, held as their bits. A `Format` gives the widths of the two fields;
`Format.datum` reads bits as a sign and an exact number `m * 2 ^ q`, and `Format.round` writes the
nearest representable number of an exact quotient, a tie going to the even neighbour. Every
operation is exact arithmetic between those two.
-/

namespace NativeGate.Binary

/-- The field widths of a binary format: stored fraction bits and exponent bits. -/
structure Format where
  fraction : Nat
  exponent : Nat

/-- 32 bits: a sign, eight exponent bits and 23 fraction bits. -/
def single : Format := ⟨23, 8⟩

/-- 64 bits: a sign, eleven exponent bits and 52 fraction bits. -/
def double : Format := ⟨52, 11⟩

/-- What bits stand for; a finite datum is `m * 2 ^ q` with its sign. -/
inductive Datum where
  | nan (negative : Bool) (payload : Nat)
  | infinite (negative : Bool)
  | finite (negative : Bool) (m : Nat) (q : Int)
deriving DecidableEq

/-- The numerator and denominator of `m * 2 ^ q`. -/
def quotient (m : Nat) (q : Int) : Nat × Nat := (m * 2 ^ q.toNat, 2 ^ (-q).toNat)

namespace Format
variable (f : Format)

/-- The weight of the last place of the least numbers. -/
def leastPlace : Int := 2 - 2 ^ (f.exponent - 1) - f.fraction

/-- The bits of positive infinity. -/
def infinity : Nat := (2 ^ f.exponent - 1) * 2 ^ f.fraction

/-- The sign bit, where it is set. -/
def signBit (negative : Bool) : Nat := if negative then 2 ^ (f.fraction + f.exponent) else 0

/-- The quiet bit of a NaN. -/
def quiet : Nat := 2 ^ (f.fraction - 1)

def datum (bits : Nat) : Datum :=
  let negative := bits / 2 ^ (f.fraction + f.exponent) % 2 = 1
  let exponent := bits / 2 ^ f.fraction % 2 ^ f.exponent
  let fraction := bits % 2 ^ f.fraction
  if exponent = 2 ^ f.exponent - 1 then
    if fraction = 0 then .infinite negative else .nan negative fraction
  else if exponent = 0 then .finite negative fraction f.leastPlace
  else .finite negative (2 ^ f.fraction + fraction) (f.leastPlace + exponent - 1)

/-- Divides and rounds to nearest, a tie to the even neighbour. -/
def divideHalfEven (num den : Nat) : Nat :=
  let whole := num / den
  let rest := num % den
  if 2 * rest < den then whole
  else if 2 * rest > den then whole + 1
  else whole + whole % 2

/-- The bits of the number nearest to `num / den`. The quotient is scaled to the place that leaves
    one bit more than the fraction; a carry out of the fraction raises the exponent by itself. -/
def round (negative : Bool) (num den : Nat) : Nat :=
  if num = 0 then f.signBit negative
  else
    let guess : Int := (Nat.log2 num : Int) - Nat.log2 den - f.fraction
    let scaled (q : Int) : Nat × Nat := (num * 2 ^ (-q).toNat, den * 2 ^ q.toNat)
    let short := (scaled guess).1 < 2 ^ f.fraction * (scaled guess).2
    let place := max f.leastPlace (if short then guess - 1 else guess)
    let m := divideHalfEven (scaled place).1 (scaled place).2
    f.signBit negative + min f.infinity ((place - f.leastPlace).toNat * 2 ^ f.fraction + m)

/-- The number nearest to an integer. -/
def ofInt (n : Int) : Nat := f.round (n < 0) n.natAbs 1

/-- The bits of a NaN with this sign and payload, made quiet. -/
def nanBits (negative : Bool) (payload : Nat) : Nat :=
  let kept := payload % f.quiet
  f.signBit negative + f.infinity + f.quiet + kept

/-- The NaN that an undefined operation gives. -/
def undefined : Nat := f.nanBits true 0

/-- The bits in format `f` of bits in format `g`: rounded when `f` is narrower, and a NaN with the
    leading part of its payload. -/
def convert (g : Format) (bits : Nat) : Nat :=
  match g.datum bits with
  | .nan negative payload =>
    f.nanBits negative
      (if g.fraction ≤ f.fraction then payload * 2 ^ (f.fraction - g.fraction)
       else payload / 2 ^ (g.fraction - f.fraction))
  | .infinite negative => f.signBit negative + f.infinity
  | .finite negative m q => f.round negative (quotient m q).1 (quotient m q).2

def isNan (bits : Nat) : Bool :=
  match f.datum bits with
  | .nan .. => true
  | _ => false

/-- Equality of numbers: a NaN equals nothing, and the two zeros are equal. -/
def same (a b : Nat) : Bool :=
  match f.datum a, f.datum b with
  | .nan .., _ | _, .nan .. => false
  | .infinite s, .infinite t => s == t
  | .finite s m q, .finite t n r => (m == 0 && n == 0) || (s == t && m == n && q == r)
  | _, _ => false

def negate (bits : Nat) : Nat :=
  let sign := 2 ^ (f.fraction + f.exponent)
  if bits / sign % 2 = 1 then bits - sign else bits + sign

def add (a b : Nat) : Nat :=
  match f.datum a, f.datum b with
  | .nan s p, _ => f.nanBits s p
  | _, .nan s p => f.nanBits s p
  | .infinite s, .infinite t => if s = t then f.signBit s + f.infinity else f.undefined
  | .infinite s, .finite .. | .finite .., .infinite s => f.signBit s + f.infinity
  | .finite s m q, .finite t n r =>
    let place := min q r
    let signed (negative : Bool) (m : Nat) (q : Int) : Int :=
      (if negative then -1 else 1) * (m * 2 ^ (q - place).toNat : Nat)
    let sum := signed s m q + signed t n r
    if sum = 0 then f.signBit (s && t)
    else f.round (sum < 0) (quotient sum.natAbs place).1 (quotient sum.natAbs place).2

def sub (a b : Nat) : Nat := if f.isNan b then f.add a b else f.add a (f.negate b)

def mul (a b : Nat) : Nat :=
  match f.datum a, f.datum b with
  | .nan s p, _ => f.nanBits s p
  | _, .nan s p => f.nanBits s p
  | .infinite s, .infinite t => f.signBit (s != t) + f.infinity
  | .infinite s, .finite t m _ | .finite t m _, .infinite s =>
    if m = 0 then f.undefined else f.signBit (s != t) + f.infinity
  | .finite s m q, .finite t n r =>
    f.round (s != t) (quotient (m * n) (q + r)).1 (quotient (m * n) (q + r)).2

end Format

end NativeGate.Binary
