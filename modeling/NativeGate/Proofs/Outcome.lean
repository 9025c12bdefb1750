import Mathlib.Logic.Basic

/-!
Steps that may fail. A step and what comes behind it give a result just where both do, and an error
just where the first of them does that fails.
-/

namespace NativeGate.Except
variable {ε δ α β : Type} {x : Except ε α} {a : α} {b : β} {e : ε}

theorem bind_eq_ok_iff {f : α → Except ε β} :
    x.bind f = .ok b ↔ ∃ a, x = .ok a ∧ f a = .ok b := by
  cases x <;> simp [Except.bind]

theorem bind_eq_error_iff {f : α → Except ε β} :
    x.bind f = .error e ↔ x = .error e ∨ ∃ a, x = .ok a ∧ f a = .error e := by
  cases x <;> simp [Except.bind]

theorem map_eq_ok_iff {f : α → β} : x.map f = .ok b ↔ ∃ a, x = .ok a ∧ f a = b := by
  cases x <;> simp [Except.map]

theorem map_eq_error_iff {f : α → β} : x.map f = .error e ↔ x = .error e := by
  cases x <;> simp [Except.map]

theorem mapError_eq_ok_iff {f : ε → δ} : x.mapError f = .ok a ↔ x = .ok a := by
  cases x with
  | error e => exact ⟨nofun, nofun⟩
  | ok b => exact ⟨fun h => congrArg _ (Except.ok.inj h), fun h => congrArg _ (Except.ok.inj h)⟩

theorem mapError_eq_error_iff {f : ε → δ} {d : δ} :
    x.mapError f = .error d ↔ ∃ e, x = .error e ∧ f e = d := by
  cases x with
  | error e =>
    constructor
    · intro h
      exact ⟨e, rfl, Except.error.inj h⟩
    · rintro ⟨_, ⟨⟩, h⟩
      exact congrArg Except.error h
  | ok a => exact ⟨nofun, nofun⟩

/-- A step that gives what another gives, if that gives anything, fails where it fails. -/
theorem exists_error_of_toOption_eq {y : Except ε α} (h : x.toOption = y.toOption)
    (hx : x = .error e) : ∃ e', y = .error e' := by
  cases y with
  | error e' => exact ⟨e', rfl⟩
  | ok a => cases hx ▸ h

theorem eq_ok_of_toOption_eq {y : Except ε α} (h : x.toOption = y.toOption) (hx : x = .ok a) :
    y = .ok a := by
  subst hx
  cases y with
  | error e' => cases h
  | ok b => rw [Option.some.inj h]

end NativeGate.Except
