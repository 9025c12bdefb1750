import NativeGate.Binary.Format

/-!
The two floating-point numbers of C. Both are their bits and nothing more, so two numbers are the
same Lean value exactly when they are the same bits; `same` is the equality of the numbers they
stand for.
-/

namespace NativeGate

/-- A 32-bit floating-point number. -/
structure Single where
  bits : UInt32
deriving DecidableEq

/-- A 64-bit floating-point number. -/
structure Double where
  bits : UInt64
deriving DecidableEq

namespace Single
open Binary

def ofBits (n : Nat) : Single := ⟨UInt32.ofNat n⟩

def isNan (x : Single) : Bool := single.isNan x.bits.toNat

def same (x y : Single) : Bool := single.same x.bits.toNat y.bits.toNat

def add (x y : Single) : Single := ofBits (single.add x.bits.toNat y.bits.toNat)

/-- Half of the number. -/
def half (x : Single) : Single := ofBits (single.mul x.bits.toNat (single.round false 1 2))

end Single

namespace Double
open Binary

def ofBits (n : Nat) : Double := ⟨UInt64.ofNat n⟩

def isNan (x : Double) : Bool := double.isNan x.bits.toNat

def same (x y : Double) : Bool := double.same x.bits.toNat y.bits.toNat

/-- The number nearest to an integer. -/
def ofInt (n : Int) : Double := ofBits (double.ofInt n)

def add (x y : Double) : Double := ofBits (double.add x.bits.toNat y.bits.toNat)

def sub (x y : Double) : Double := ofBits (double.sub x.bits.toNat y.bits.toNat)

def mul (x y : Double) : Double := ofBits (double.mul x.bits.toNat y.bits.toNat)

/-- The nearest 32-bit number. -/
def toSingle (x : Double) : Single := .ofBits (single.convert double x.bits.toNat)

end Double

/-- The same number in 64 bits. -/
def Single.toDouble (x : Single) : Double :=
  .ofBits (Binary.double.convert Binary.single x.bits.toNat)

end NativeGate
