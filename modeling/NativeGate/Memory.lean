import NativeGate.Value

/-!
Native memory: a byte at every address, and the heap blocks that have been handed out. Reading and
writing are total, as loads and stores are: what lies at an address is the library's concern only
where it is asked for the extent of a block. Blocks are handed out at addresses never used before.
-/

namespace NativeGate

/-- A heap block: where it begins and how many bytes may be used. -/
structure Extent where
  base : Address
  size : Nat
deriving DecidableEq

/-- Bytes at all addresses, the live heap blocks, and the first address never handed out. -/
structure Memory where
  byte : Address → UInt8
  heap : List Extent
  frontier : Nat

namespace Memory

def empty : Memory := ⟨fun _ => 0, [], 0x7f0000000000⟩

/-- Bytes from `a` on to `x`, round the address space. -/
def reach (a x : Address) : Nat := (x.word - a.word).toNat

/-- The bytes of `old` with `cells` in place from `a` on. -/
def overlay (cells : Array UInt8) (a : Address) (old : Address → UInt8) : Address → UInt8 :=
  fun x => (cells[reach a x]?).getD (old x)

/-- Writes bytes from `a` on and leaves every other byte. -/
def store (m : Memory) (a : Address) (bytes : List UInt8) : Memory :=
  { m with byte := overlay bytes.toArray a m.byte }

/-- Sets `n` bytes from `a` on to zero. -/
def clear (m : Memory) (a : Address) (n : Nat) : Memory :=
  { m with byte := fun x => if reach a x < n then 0 else m.byte x }

/-- The `n` bytes from `a` on. -/
def load (m : Memory) (a : Address) (n : Nat) : List UInt8 :=
  (List.range n).map fun (i : Nat) => m.byte (a.add i)

/-- At most `n` bytes from `a` on, up to the first zero byte. -/
def bytesUpToNul (m : Memory) (a : Address) : Nat → List UInt8
  | 0 => []
  | n + 1 =>
    let b := m.byte a
    if b = 0 then [] else b :: bytesUpToNul m (a.add 1) n

/-- The string at `a`; no string is longer than the address space. -/
def cstring (m : Memory) (a : Address) : CString := .upToNul (m.bytesUpToNul a wordCount)

/-! ### Heap blocks -/

/-- The bytes that may be used of a block asked for with size `n`: with its header of eight bytes a
    block takes a multiple of sixteen, and at least thirty-two. -/
def usableFor (n : Nat) : Nat := max 24 ((max n 1 + 8 + 15) / 16 * 16 - 8)

/-- Requests of this size and more are refused. -/
def tooLarge : Nat := 2 ^ (62 : Nat)

/-- Usable size of the block that begins at `a`; zero where none does. -/
def usable (m : Memory) (a : Address) : Nat :=
  match m.heap.find? fun e => e.base = a with
  | some e => e.size
  | none => 0

/-- Takes room for `n` bytes that no block has had. -/
def advance (m : Memory) (n : Nat) : Address × Memory :=
  (.ofNat m.frontier, { m with frontier := m.frontier + (n / 4096 + 2) * 4096 })

/-- A new block of zeros. -/
def allocate (m : Memory) (n : Nat) : Except Error (Address × Memory) :=
  if tooLarge ≤ n then .error (.allocationFailed n)
  else
    let size := usableFor n
    let (base, m) := m.advance size
    .ok (base, { m.clear base size with heap := ⟨base, size⟩ :: m.heap })

/-- Gives a block back; nothing else changes. -/
def release (m : Memory) (a : Address) : Memory :=
  { m with heap := m.heap.filter fun e => e.base ≠ a }

/-- A block of another size with the same leading bytes; null gives a new block. -/
def reallocate (m : Memory) (a : Address) (n : Nat) : Except Error (Address × Memory) :=
  (m.allocate n).map fun (base, m') =>
    let kept := m.load a (min (m.usable a) (m'.usable base))
    (base, (m'.store base kept).release a)

/-- Puts bytes with a terminator where no block is. -/
def place (m : Memory) (bytes : List UInt8) : Address × Memory :=
  let (base, m) := m.advance (bytes.length + 1)
  (base, m.store base (bytes ++ [0]))

end Memory

end NativeGate
