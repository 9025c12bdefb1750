import NativeGate.Call.Gate

/-!
The shared context of a thread. A gate that all calls without a context of their own go through; it
can be used by one call at a time. An attempt to use it while it is in use fails without a step on
the gate, and it is free again as soon as the outermost use has returned, whatever that returned.
-/

namespace NativeGate

/-- A thread: its shared gate, whether that is in use, and everything else it has. -/
structure Thread (υ : Type) where
  gate : Gate
  borrowed : Bool
  own : υ

namespace Thread
variable {υ α : Type}

def start (own : υ) : Thread υ := ⟨.fresh, false, own⟩

/-- Error code of the last call through the shared gate, zero while it is in use. -/
def lastError (t : Thread υ) : Int := if t.borrowed then 0 else t.gate.error

end Thread

namespace World
variable {υ α : Type}

/-- Changes what the thread has of its own. -/
def mapOwn (f : υ → υ) (w : World (Thread υ)) : World (Thread υ) :=
  { w with native := { w.native with own := f w.native.own } }

/-- Runs `use` with the shared gate. -/
def withShared (use : Gate × World (Thread υ) → Except Error α × (Gate × World (Thread υ)))
    (w : World (Thread υ)) : Except Error α × World (Thread υ) :=
  if w.native.borrowed then (.error .contextBusy, w)
  else
    let taken := { w with native := { w.native with borrowed := true } }
    let (result, gate, w) := use (w.native.gate, taken)
    (result, { w with native := { w.native with gate, borrowed := false } })

end World

/-- Calls through the thread's shared gate. -/
def Function.callShared {υ : Type} (code : Code (Thread υ)) (f : Function) (args : List Value)
    (w : World (Thread υ)) : Except Error Value × World (Thread υ) :=
  w.withShared (f.call (Gate.machine code) args)

end NativeGate
