import NativeGate.Proofs.Hook.Crossing

/-!
Result words. A redirected call leaves one word for its result, and the machine that made the call
reads a value of the declared kind in it. Writing goes by the value that is left, reading by the
kind that was declared, and they agree on every kind: what is read is the value that was written,
fitted to the kind, or the zero of the kind where it does not fit (`result_read_back`). A text is
read as the address of the copy that was made of it.
-/

namespace NativeGate

/-- The zero of a kind: a number, the truth value false, or the null address. -/
def Kind.zero : Kind → Value
  | .void => .none
  | .bool => .bool false
  | .integer k => .integer ⟨k, 0, by cases k <;> decide⟩
  | .float => .float ⟨0⟩
  | .double => .double ⟨0⟩
  | .pointer | .string => .null

namespace Value

/-- The word of zeros is read as the zero of whatever kind is asked for. -/
theorem ofWord_zero (k : Kind) : ofWord k 0 = k.zero := by
  have hkind : k.zero.kind = k.carried := by cases k <;> rfl
  have hword : k.zero.word = 0 := by cases k <;> rfl
  rw [← hword, ofWord_word hkind]

theorem fit?_eq_none_of_coerce {v : Value} {k : Kind} {i : Nat} {e : Error}
    (h : v.coerce k i = .error e) : v.fit? k = Option.none := by
  unfold coerce at h
  split at h
  · cases h
  · assumption

/-- Whether and how a value fits a kind is the same at every position. -/
theorem coerce_at {v u : Value} {k : Kind} {i : Nat} (h : v.coerce k i = .ok u) (j : Nat) :
    v.coerce k j = .ok u := by
  simp only [coerce, coerce_eq_ok h]

/-- What passes for a parameter is of the kind that words carry for it, unless it is a string. -/
theorem kind_eq_carried_of_coerce {v u : Value} {k : Kind} {i : Nat} (h : v.coerce k i = .ok u)
    (hu : ∀ s, u ≠ .string s) : u.kind = k.carried := by
  rcases eq_or_ne k .string with rfl | hk
  · rcases kind_of_coerce_string h with ⟨s, rfl⟩ | hpointer
    · exact absurd rfl (hu s)
    · exact hpointer
  · rw [kind_of_coerce hk h]
    cases k with
    | string => exact absurd rfl hk
    | _ => rfl

end Value

namespace Hook
variable {ρ : Type}

/-- A value that fits is written as the word of its fitted form, and nothing else happens. -/
theorem encodeResult_fitted (hook : HookId) {k : Kind} {v u : Value} (h : v.coerce k 0 = .ok u)
    (hu : ∀ s, u ≠ .string s) (w : World ρ) : encodeResult hook k v w = (u.word, w) := by
  rcases eq_or_ne k .string with rfl | hk
  · cases v with
    | string s => cases h; exact absurd rfl (hu s)
    | none | pointer p => cases h; rfl
    | _ => cases h
  · exact encodeResult_of_coerce hook hk h w

/-- A value that does not fit leaves the word of zeros, and the replacement is noted. -/
theorem encodeResult_unfit (hook : HookId) {k : Kind} {v : Value} (hk : k ≠ .void)
    (h : v.fit? k = none) (w : World ρ) :
    encodeResult hook k v w = (0, w.note (.resultReplaced hook)) := by
  have hno : ∀ u, v.coerce k 0 ≠ .ok u := fun u hu => by
    rw [Value.coerce_eq_ok hu] at h
    cases h
  unfold encodeResult resultValue
  split
  rename_i u w' hu
  split at hu
  · exact absurd rfl hk
  · exact absurd rfl (hno _)
  · split at hu
    · rename_i hok
      exact absurd hok (hno _)
    · cases hu
      rfl

/-- What is read of a result is what was written of it. A machine reads the word that code leaves
    by the declared kind alone. Where the value that was written fits that kind, the fitted value is
    read, and where it does not, the zero of the kind; a text is read as the address of its copy,
    which is the same text for as long as there is room in the address space. -/
theorem result_read_back (hook : HookId) (k : Kind) (v : Value) (w : World ρ) :
    let word := (encodeResult hook k v w).1
    let after := (encodeResult hook k v w).2
    let read := Value.ofWord k word
    (∀ (enter : Prepared → Code ρ) (a : Address) (s : Gate × World ρ),
      (∀ p xs u, (enter p a xs u).1 = word) →
        ((Gate.machineThrough enter).invoke a k s).1 = read) ∧
    (∀ i u, v.coerce k i = .ok u → (∀ s, u ≠ .string s) → read = u ∧ after = w) ∧
    (∀ i e, v.coerce k i = .error e →
      read = k.zero ∧ (k ≠ .void → after = w.note (.resultReplaced hook))) ∧
    (∀ s, k = .string → v = .string s → ∃ a, read = .pointer a ∧ (a, after) = w.place s.bytes ∧
      (after.memory.frontier ≤ 2 ^ 64 → after.memory.cstring a = s)) := by
  intro word after read
  refine ⟨fun enter a s hleft => ?_, fun i u h hu => ?_, fun i e h => ?_, ?_⟩
  · exact congrArg (Value.ofWord k) (hleft ..)
  · have hword : encodeResult hook k v w = (u.word, w) :=
      encodeResult_fitted hook (Value.coerce_at h 0) hu w
    refine ⟨?_, congrArg Prod.snd hword⟩
    calc
      read = Value.ofWord k u.word := congrArg (Value.ofWord k ·.1) hword
      _ = u := Value.ofWord_word (Value.kind_eq_carried_of_coerce h hu)
  · by_cases hk : k = .void
    · subst hk
      exact ⟨rfl, fun hne => absurd rfl hne⟩
    · have hword : encodeResult hook k v w = (0, w.note (.resultReplaced hook)) :=
        encodeResult_unfit hook hk (Value.fit?_eq_none_of_coerce h) w
      refine ⟨?_, fun _ => congrArg Prod.snd hword⟩
      calc
        read = Value.ofWord k 0 := congrArg (Value.ofWord k ·.1) hword
        _ = k.zero := Value.ofWord_zero k
  · rintro s rfl rfl
    refine ⟨(w.place s.bytes).1, Value.ofWord_word (k := .string) rfl, rfl, fun hspace => ?_⟩
    exact Memory.cstring_of_place hspace fun x _ => rfl

end Hook

end NativeGate
