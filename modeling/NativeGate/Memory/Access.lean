import NativeGate.Memory.Stored

/-!
Typed access to memory. A value is read and written at an offset from a pointer, without regard to
alignment; only the null pointer is refused. A string has no stored form: it is read through the
address in its slot or where it stands, and written into a buffer whose capacity is known, either
because it is given or because the allocator knows the block.
-/

namespace NativeGate.Memory

/-- Refuses the null pointer. -/
def requireNonNull (p : Address) (site : NullSite) : Except Error Unit :=
  if p.isNull then .error (.nullPointer site) else .ok ()

/-- The address stored at an offset. -/
def getPointer (m : Memory) (p : Address) (offset : Int) : Except Error Address :=
  (requireNonNull p .pointer).map fun _ =>
    .ofNat (ofLittleEndian (m.load (p.add offset) 8))

/-- Stores an address at an offset. -/
def setPointer (m : Memory) (p : Address) (offset : Int) (q : Address) : Except Error Memory :=
  (requireNonNull p .pointer).map fun _ => m.store (p.add offset) (Value.pointer q).stored

/-- The text at an offset, or behind the address stored there; none behind a null address. What is
    ill-formed is replaced. -/
def getText (m : Memory) (p : Address) (offset : Int) (indirect : Bool) :
    Except Error (Option String) := do
  requireNonNull p .pointer
  if indirect then
    let target ← m.getPointer (p.add offset) 0
    return if target.isNull then none else some (m.cstring target).lossyText
  else
    return some (m.cstring (p.add offset)).lossyText

/-- The text of a string as a value. -/
def textValue : Option String → Except Error Value
  | some text => Value.ofText text
  | none => .ok .none

/-- Reads a value of kind `k` at an offset; a string is read behind the address in its slot. -/
def getValue (m : Memory) (p : Address) (k : Kind) (offset : Int) : Except Error Value :=
  match k with
  | .void => .error (.unsupportedType .readVoid)
  | .string => (m.getText p offset true).bind textValue
  | k => (requireNonNull p .pointer).map fun _ => Value.decode k (m.load (p.add offset) k.size)

/-- Writes a value, fitted to kind `k`, at an offset. -/
def setValue (m : Memory) (p : Address) (k : Kind) (v : Value) (offset : Int) :
    Except Error Memory :=
  match k with
  | .void | .string => .error (.unsupportedType (.store k))
  | k => do
    let w ← v.coerce k 0
    requireNonNull p .pointer
    return m.store (p.add offset) w.stored

/-- The bytes that a text may take behind `offset` in the block that begins at `block`. -/
def capacityOf (m : Memory) (block dest : Address) (offset : Int) : Except Error Nat :=
  let size := m.usable block
  if 0 < size ∧ 0 ≤ offset ∧ offset ≤ size then .ok (size - offset.toNat)
  else .error (.sizeUnavailable dest)

/-- Copies a text and a terminator to an offset, or behind the address stored there. The capacity
    is `size` where it is given, and else what the allocator says of the block. -/
def setText (m : Memory) (p : Address) (text : String) (size : Option Nat) (offset : Int)
    (indirect : Bool) : Except Error Memory := do
  requireNonNull p .pointer
  let dest ← if indirect then m.getPointer (p.add offset) 0 else pure (p.add offset)
  if indirect then requireNonNull dest .stringSlot
  let capacity ←
    match size with
    | some size => pure size
    | none => if indirect then m.capacityOf dest dest 0 else m.capacityOf p dest offset
  let bytes := Text.utf8 text
  if (0 : UInt8) ∈ bytes then throw (.argumentType 0 .string .interiorNul)
  if capacity < bytes.length + 1 then throw (.bufferOverflow bytes.length capacity)
  return m.store dest (bytes ++ [0])

/-- The usable size of the block that begins at a pointer. -/
def sizeOf (m : Memory) (p : Address) : Except Error Nat :=
  (requireNonNull p .pointer).map fun _ => m.usable p

/-- The entry of the table of virtual functions whose address is stored at the pointer. A shifted
    index leaves out the slot of the second destructor; without a table there is no function. -/
def virtualEntry (m : Memory) (p : Address) (index : Nat) (shifted : Bool) :
    Except Error Address := do
  let table ← m.getPointer p 0
  if table.isNull then return .null
  let index := if shifted then index + 1 else index
  m.getPointer table (8 * index)

end NativeGate.Memory
