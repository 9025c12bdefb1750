/-!
The most recently used. A store of fixed capacity keeps what was made for the keys used last, the
latest first: using a key moves it to the front, and a new key puts out the one that has gone unused
longest once the store is full. A capacity of zero acts as one. While every entry is what its key
makes (`Made`), using a key gives just that, whatever was used before (`use_eq_make`).
-/

namespace NativeGate

/-- Keys with what was made for them, in order of last use, at most `capacity` of them. -/
structure Recent (κ α : Type) where
  capacity : Nat
  held : List (κ × α)

namespace Recent
variable {κ α : Type}

def withCapacity (n : Nat) : Recent κ α := ⟨max n 1, []⟩

def size (r : Recent κ α) : Nat := r.held.length

/-- Everything that is held is what its key makes. -/
def Made (make : κ → α) (r : Recent κ α) : Prop := ∀ e ∈ r.held, e.2 = make e.1

theorem made_withCapacity (make : κ → α) (n : Nat) : (withCapacity n).Made make := by
  intro e he
  cases he

variable [DecidableEq κ]

/-- What is held for a key. -/
def find? (r : Recent κ α) (k : κ) : Option α := r.held.lookup k

/-- Uses a key: gives what is held for it, or else makes it. -/
def use (make : κ → α) (k : κ) (r : Recent κ α) : α × Recent κ α :=
  match r.find? k with
  | some a => (a, { r with held := (k, a) :: r.held.eraseP (·.1 = k) })
  | none => (make k, { r with held := ((k, make k) :: r.held).take r.capacity })

theorem Made.find?_eq {make : κ → α} {r : Recent κ α} (h : r.Made make) {k : κ} {a : α}
    (hk : r.find? k = some a) : a = make k := by
  obtain ⟨before, after, hheld, _⟩ := List.lookup_eq_some_iff.1 hk
  exact h (k, a) (by rw [hheld]; simp)

/-- Using a key gives what the key makes, whatever was used before. -/
theorem use_eq_make {make : κ → α} {r : Recent κ α} (h : r.Made make) (k : κ) :
    (r.use make k).1 = make k := by
  unfold use
  split
  · rename_i a hk
    exact h.find?_eq hk
  · rfl

theorem Made.use {make : κ → α} {r : Recent κ α} (h : r.Made make) (k : κ) :
    (r.use make k).2.Made make := by
  unfold Recent.use
  split
  · rename_i a hk
    intro e he
    rcases List.mem_cons.1 he with rfl | he
    · exact h.find?_eq hk
    · exact h e (List.mem_of_mem_eraseP he)
  · intro e he
    rcases List.mem_cons.1 (List.mem_of_mem_take he) with rfl | he
    · rfl
    · exact h e he

end Recent

end NativeGate
