import NativeGate.Call.Gate

/-!
Storage for arguments. An argument crosses in storage of its own, and a prepared interface takes as
many bytes from there as its type says; storage of another size or class than the interface was
prepared for would be read wrongly without anyone noticing. `Value.toSlots` is what storage the
arguments of a call get, and `Slot.word` the word that is in it.
-/

namespace NativeGate

/-- Native storage for one argument. -/
inductive Slot where
  | signed8 (x : Int8)
  | unsigned8 (x : UInt8)
  | signed16 (x : Int16)
  | unsigned16 (x : UInt16)
  | signed32 (x : Int32)
  | unsigned32 (x : UInt32)
  | signed64 (x : Int64)
  | unsigned64 (x : UInt64)
  | single (x : Single)
  | double (x : Double)
  | address (a : Address)
deriving DecidableEq

namespace Slot

/-- Size and class of the storage. -/
def type : Slot → NativeType
  | signed8 _ => .integer true 1
  | unsigned8 _ => .integer false 1
  | signed16 _ => .integer true 2
  | unsigned16 _ => .integer false 2
  | signed32 _ => .integer true 4
  | unsigned32 _ => .integer false 4
  | signed64 _ => .integer true 8
  | unsigned64 _ => .integer false 8
  | single _ => .single
  | double _ => .double
  | address _ => .address

/-- What is in the storage, widened to a word; a sign is kept. -/
def word : Slot → UInt64
  | signed8 x => .ofInt x.toInt
  | unsigned8 x => x.toUInt64
  | signed16 x => .ofInt x.toInt
  | unsigned16 x => x.toUInt64
  | signed32 x => .ofInt x.toInt
  | unsigned32 x => x.toUInt64
  | signed64 x => .ofInt x.toInt
  | unsigned64 x => x
  | single x => x.bits.toUInt64
  | double x => x.bits
  | address a => a.word

end Slot

/-- The storage of an integer. -/
def NativeInt.slot (n : NativeInt) : Slot :=
  match n.kind with
  | .char => .signed8 (.ofInt n.val)
  | .uchar => .unsigned8 (.ofInt n.val)
  | .short => .signed16 (.ofInt n.val)
  | .ushort => .unsigned16 (.ofInt n.val)
  | .int => .signed32 (.ofInt n.val)
  | .uint => .unsigned32 (.ofInt n.val)
  | .long | .longLong => .signed64 (.ofInt n.val)
  | .ulong | .ulongLong => .unsigned64 (.ofInt n.val)

namespace Value

/-- The storage of a value that needs no place in memory. -/
def slot : Value → Slot
  | none => .address .null
  | bool b => .unsigned8 (if b then 1 else 0)
  | integer n => n.slot
  | float x => .single x
  | double x => .double x
  | pointer p => .address p
  | string _ => .address .null

/-- The storage of a value; a string is put into memory first, and its address is stored. -/
def toSlot {ρ : Type} (v : Value) (w : World ρ) : Slot × World ρ :=
  match v with
  | string s =>
    let (a, w) := w.place s.bytes
    (.address a, w)
  | v => (v.slot, w)

/-- The storage of values from left to right. -/
def toSlots {ρ : Type} : List Value → World ρ → List Slot × World ρ
  | [], w => ([], w)
  | v :: vs, w =>
    let (x, w) := v.toSlot w
    let (xs, w) := toSlots vs w
    (x :: xs, w)

end Value

end NativeGate
