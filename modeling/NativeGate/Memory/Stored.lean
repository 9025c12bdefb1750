import NativeGate.Memory

/-!
The stored form of values: little-endian bytes, as many as the kind takes. `decode` reads the bytes
of a kind back; a truth value is any byte but zero, and an address is all that a string leaves in
its slot.
-/

namespace NativeGate

/-- The low `count` bytes of a number, the least significant first. -/
def littleEndian : Nat → Nat → List UInt8
  | 0, _ => []
  | count + 1, n => UInt8.ofNat (n % 256) :: littleEndian count (n / 256)

/-- The number that bytes write, the least significant first. -/
def ofLittleEndian : List UInt8 → Nat
  | [] => 0
  | b :: rest => b.toNat + 256 * ofLittleEndian rest

/-- The bits of an integer in its type. -/
def NativeInt.bits (n : NativeInt) : Nat := (n.val % 2 ^ n.kind.bits).toNat

namespace Value

/-- The bytes that a value leaves in memory; a string leaves none of its own. -/
def stored : Value → List UInt8
  | none => []
  | bool b => [if b then 1 else 0]
  | integer n => littleEndian n.kind.bytes n.bits
  | float x => littleEndian 4 x.bits.toNat
  | double x => littleEndian 8 x.bits.toNat
  | pointer p => littleEndian 8 p.toNat
  | string _ => []

/-- The value of a kind whose bits are the low bits of `n`. -/
def ofBits (k : Kind) (n : Nat) : Value :=
  match k with
  | .void => none
  | .bool => bool (n % 256 ≠ 0)
  | .integer t => ofInt t n
  | .float => float (.ofBits (n % 2 ^ (32 : Nat)))
  | .double => double (.ofBits n)
  | .pointer | .string => pointer (.ofNat n)

/-- The value of a kind that the bytes store. -/
def decode (k : Kind) (bytes : List UInt8) : Value := ofBits k (ofLittleEndian bytes)

end Value

end NativeGate
