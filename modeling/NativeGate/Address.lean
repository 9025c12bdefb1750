import NativeGate.Integer
import NativeGate.Text.Digits

/-!
Addresses. An address is a 64-bit word; offsets are signed and move it round the address space, so
adding an offset and taking it away again always gives the address back (`sub_add`).
-/

namespace NativeGate

/-- A place in native memory, with no claim that anything is there. -/
structure Address where
  word : UInt64
deriving DecidableEq

namespace Address

def null : Address := ⟨0⟩

def ofNat (n : Nat) : Address := ⟨UInt64.ofNat n⟩

def toNat (a : Address) : Nat := a.word.toNat

def isNull (a : Address) : Bool := a.word == 0

@[simp] theorem isNull_iff {a : Address} : a.isNull = true ↔ a = null := by
  cases a; simp [isNull, null]

/-- The address `offset` bytes further, round the address space. -/
def add (a : Address) (offset : Int) : Address := ⟨a.word + UInt64.ofInt offset⟩

/-- The address `offset` bytes back. -/
def sub (a : Address) (offset : Int) : Address := ⟨a.word - UInt64.ofInt offset⟩

theorem sub_add (a : Address) (n : Int) : (a.add n).sub n = a := by
  simp [add, sub]

/-- Bytes from `a` up to `b`, round the address space, as a signed distance. -/
def distance (a b : Address) : Int := Int.bmod (b.word - a.word).toNat wordCount

def hex (a : Address) : String := Text.hexadecimal a.toNat

/-- The form in messages: the mark of base sixteen and the digits. -/
def display (a : Address) : String := "0x" ++ a.hex

/-- The form in listings: at least eight digits after the mark. -/
def displayWide (a : Address) : String := "0x" ++ Text.padded 16 8 a.toNat

end Address

end NativeGate
