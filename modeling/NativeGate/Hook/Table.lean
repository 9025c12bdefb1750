import NativeGate.Event

/-!
Callback registrations. All registrations stand in one list in the order they were made; what is
registered for a hook and a phase is the part of the list that belongs to them. Removing takes out
the first identical registration and leaves the order of the rest.
-/

namespace NativeGate.Hook

/-- A callback registered for a phase of a hook. -/
structure Registration (χ : Type) where
  hook : HookId
  phase : Phase
  callback : χ
deriving DecidableEq

/-- Registrations in the order they were made. -/
structure Table (χ : Type) where
  registrations : List (Registration χ)

namespace Table
variable {χ : Type}

def empty : Table χ := ⟨[]⟩

/-- Registers a callback behind all others. -/
def push (t : Table χ) (hook : HookId) (phase : Phase) (callback : χ) : Table χ :=
  ⟨t.registrations ++ [⟨hook, phase, callback⟩]⟩

/-- The callbacks of a hook and phase, in order. -/
def snapshot (t : Table χ) (hook : HookId) (phase : Phase) : List χ :=
  (t.registrations.filter fun r => r.hook = hook ∧ r.phase = phase).map (·.callback)

def length (t : Table χ) (hook : HookId) (phase : Phase) : Nat := (t.snapshot hook phase).length

def isEmpty (t : Table χ) (hook : HookId) (phase : Phase) : Bool := t.length hook phase == 0

/-- Drops both lists of a hook. -/
def clear (t : Table χ) (hook : HookId) : Table χ :=
  ⟨t.registrations.filter fun r => r.hook ≠ hook⟩

variable [DecidableEq χ]

/-- Takes out the first registration of a callback, and says whether there was one. -/
def remove (t : Table χ) (hook : HookId) (phase : Phase) (callback : χ) : Bool × Table χ :=
  let r : Registration χ := ⟨hook, phase, callback⟩
  (decide (r ∈ t.registrations), ⟨t.registrations.erase r⟩)

end Table

end NativeGate.Hook
