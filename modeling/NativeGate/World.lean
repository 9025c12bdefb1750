import NativeGate.Ledger
import NativeGate.Memory.Access

/-!
The world that native code and the library share: memory, the ledger of what happened, and whatever
state the native side keeps for itself. Heap work is told to the ledger here, after it has
succeeded.
-/

namespace NativeGate

/-- Memory, ledger and the native side's own state. -/
structure World (ρ : Type) where
  memory : Memory
  ledger : Ledger
  native : ρ

namespace World
variable {ρ : Type}

def start (native : ρ) : World ρ := ⟨.empty, .empty, native⟩

def note (w : World ρ) (e : Event) : World ρ := { w with ledger := w.ledger.note e }

@[simp] theorem memory_note (w : World ρ) (e : Event) : (w.note e).memory = w.memory := rfl

@[simp] theorem native_note (w : World ρ) (e : Event) : (w.note e).native = w.native := rfl

/-- Runs what cannot see the ledger; what it tells is entered behind what is there. -/
def unseen {α : Type} (run : World ρ → α × World ρ) (w : World ρ) : α × World ρ :=
  let (a, after) := run { w with ledger := .empty }
  (a, { after with ledger := w.ledger.append after.ledger })

/-- Puts bytes with a terminator into memory for native code to read. -/
def place (w : World ρ) (bytes : List UInt8) : Address × World ρ :=
  let (a, m) := w.memory.place bytes
  (a, { w with memory := m })

def allocate (w : World ρ) (size : Nat) : Except Error (Address × World ρ) :=
  (w.memory.allocate size).map fun (a, m) => (a, { w with memory := m }.note (.allocated size))

/-- Resizes a block; a failure leaves it as it is. -/
def reallocate (w : World ρ) (p : Address) (size : Nat) : Except Error (Address × World ρ) :=
  (w.memory.reallocate p size).map fun (a, m) =>
    (a, { w with memory := m }.note (.reallocated size))

/-- Gives a block back; there is nothing to do for the null pointer. -/
def release (w : World ρ) (p : Address) : World ρ :=
  if p.isNull then w else { w with memory := w.memory.release p }.note .freed

end World

end NativeGate
