/-!
Integers in so many bits, and the integer types of C on a machine with 64-bit words. A type is a
name with a width and a sign; `IntKind.wrap` brings any integer into the range of a type, as storing
it in that many bits does. A `NativeInt` is an integer that its type can hold, so a width is checked
where one is made and nowhere else.
-/

namespace NativeGate

-- powers are those of the core library here and in every module after this one, whatever else is
-- imported there; a literal exponent says its type, or the power would be that of a default instance
attribute [scoped instance (high)] instPowNat

/-- `n` can be written in `bits` bits without a sign. -/
def FitsUnsigned (bits : Nat) (n : Int) : Prop := 0 ≤ n ∧ n < 2 ^ bits

/-- `n` can be written in `bits` bits, one of them for the sign. -/
def FitsSigned (bits : Nat) (n : Int) : Prop := -(2 ^ (bits - 1)) ≤ n ∧ n < 2 ^ (bits - 1)

instance (bits : Nat) (n : Int) : Decidable (FitsUnsigned bits n) :=
  inferInstanceAs (Decidable (_ ∧ _))

instance (bits : Nat) (n : Int) : Decidable (FitsSigned bits n) :=
  inferInstanceAs (Decidable (_ ∧ _))

theorem fitsUnsigned_toNat (n : UInt64) : FitsUnsigned 64 n.toNat :=
  ⟨Int.natCast_nonneg _, Int.ofNat_lt.2 n.toNat_lt⟩

theorem fitsSigned_toInt (n : Int64) : FitsSigned 64 n.toInt := ⟨n.le_toInt, n.toInt_lt⟩

/-- How many numbers a word can be; counting in words and moving through memory go round there. -/
def wordCount : Nat := 2 ^ (64 : Nat)

/-- The integer types of C; two of them may share width and sign and are still different types. -/
inductive IntKind where
  | char | uchar | short | ushort | int | uint | long | ulong | longLong | ulongLong
deriving DecidableEq

namespace IntKind

def bits : IntKind → Nat
  | char | uchar => 8
  | short | ushort => 16
  | int | uint => 32
  | long | ulong | longLong | ulongLong => 64

def bytes : IntKind → Nat
  | char | uchar => 1
  | short | ushort => 2
  | int | uint => 4
  | long | ulong | longLong | ulongLong => 8

def signed : IntKind → Bool
  | char | short | int | long | longLong => true
  | uchar | ushort | uint | ulong | ulongLong => false

/-- The least integer of the type. -/
def least (k : IntKind) : Int := if k.signed then -(2 ^ (k.bits - 1)) else 0

/-- The greatest integer of the type. -/
def greatest (k : IntKind) : Int := if k.signed then 2 ^ (k.bits - 1) - 1 else 2 ^ k.bits - 1

/-- `n` is in the range of the type. -/
def Holds (k : IntKind) (n : Int) : Prop := k.least ≤ n ∧ n ≤ k.greatest

instance (k : IntKind) (n : Int) : Decidable (k.Holds n) := inferInstanceAs (Decidable (_ ∧ _))

/-- The integer of the type with the same low bits as `n`. -/
def wrap (k : IntKind) (n : Int) : Int :=
  if k.signed then Int.bmod n (2 ^ k.bits) else n % 2 ^ k.bits

theorem holds_wrap (k : IntKind) (n : Int) : k.Holds (k.wrap n) := by
  cases k <;> simp only [Holds, least, greatest, wrap, signed, bits, if_true, if_false,
    Bool.false_eq_true, Int.bmod] <;> omega

/-- Wrapping leaves what the type already holds. -/
theorem wrap_eq_self {k : IntKind} {n : Int} (h : k.Holds n) : k.wrap n = n := by
  cases k <;> simp only [Holds, least, greatest, wrap, signed, bits, if_true, if_false,
    Bool.false_eq_true, Int.bmod] at * <;> omega

end IntKind

/-- An integer that its type can hold. -/
structure NativeInt where
  kind : IntKind
  val : Int
  holds : kind.Holds val
deriving DecidableEq

namespace NativeInt

/-- The integer `n` in type `k`, when it fits. -/
def of? (k : IntKind) (n : Int) : Option NativeInt :=
  if h : k.Holds n then some ⟨k, n, h⟩ else none

/-- The low bits of `n` in type `k`. -/
def wrapping (k : IntKind) (n : Int) : NativeInt := ⟨k, k.wrap n, k.holds_wrap n⟩

theorem of?_eq_some_iff {k : IntKind} {n : Int} {w : NativeInt} :
    of? k n = some w ↔ w.kind = k ∧ w.val = n := by
  unfold of?
  split
  · rename_i h
    constructor
    · rintro ⟨⟩; exact ⟨rfl, rfl⟩
    · rintro ⟨rfl, rfl⟩; rfl
  · rename_i h
    constructor
    · rintro ⟨⟩
    · rintro ⟨rfl, rfl⟩; exact absurd w.holds h

theorem of?_eq_none_iff {k : IntKind} {n : Int} : of? k n = none ↔ ¬ k.Holds n := by
  unfold of?; split <;> simp_all

end NativeInt

end NativeGate
