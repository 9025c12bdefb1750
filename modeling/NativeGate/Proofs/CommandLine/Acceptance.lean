import NativeGate.CommandLine.Run
import NativeGate.Proofs.Call.Dispatch
import NativeGate.Proofs.Coercion

/-!
What was accepted is accepted again, as it is. A value that was fitted to a kind fits the kind and
is not changed any more (`Value.coerce_again`), wherever it stands. So the two places that decide
what is acceptable agree: words that were read for a function are arguments that its call takes, and
it is carried out with them unchanged (`accepted_words_called`).
-/

namespace NativeGate

/-! ### Values -/

namespace Value
variable {v w : Value} {k : Kind} {i : Nat}

/-- A value that was fitted has nothing left to settle; a `float` was narrowed already. -/
theorem settled_of_coerce (h : v.coerce k i = .ok w) : w.settled = w := by
  by_cases hk : k = .string
  · subst hk
    rcases kind_of_coerce_string h with ⟨s, rfl⟩ | hw
    · rfl
    · exact settled_of_pointer hw
  · have hkind := kind_of_coerce hk h
    cases w with
    | float x =>
      obtain rfl : Kind.float = k := hkind
      obtain ⟨y, -, hy⟩ := Option.map_eq_some_iff.1 (coerce_eq_ok h)
      obtain rfl : y.toSingle = x := float.inj hy
      exact congrArg float y.toSingle_toDouble_toSingle
    | _ => rfl

/-- A value that was fitted to a kind passes for the kind as it is. -/
theorem coerce_again (h : v.coerce k i = .ok w) (j : Nat) : w.coerce k j = .ok w := by
  by_cases hk : k = .string
  · subst hk
    rcases kind_of_coerce_string h with ⟨s, rfl⟩ | hw
    · rfl
    · rw [coerce_carried (by decide) hw, settled_of_coerce h]
  · have hkind := kind_of_coerce hk h
    have hvoid : k ≠ .void := by
      rintro rfl
      cases coerce_eq_ok h
    have hcarried : k.carried = k := by
      cases k with
      | string => exact absurd rfl hk
      | _ => rfl
    rw [coerce_carried hvoid (hkind.trans hcarried.symm), settled_of_coerce h]

end Value

namespace CommandLine

/-! ### Words -/

section
variable {b : Build} {text : String} {k : Kind} {w : Value} {i n : Nat} {words : List String}
  {kinds : List Kind} {args : List Value} {f : Function}

theorem coerce_of_readWord (h : readWord b text k i = .ok w) (j : Nat) : w.coerce k j = .ok w := by
  obtain ⟨v, -, h⟩ := Except.bind_eq_ok_iff.1 h
  exact Value.coerce_again (Except.mapError_eq_ok_iff.1 h) j

/-- Values that were read from words fit their parameters as they are, and there is one for each. -/
theorem coerceFrom_of_readWordsFrom (hlen : kinds.length = words.length)
    (h : readWordsFrom b n words kinds = .ok args) :
    args.length = kinds.length ∧ Function.coerceFrom n args kinds = .ok args := by
  induction words generalizing n kinds args with
  | nil =>
    obtain rfl := List.length_eq_zero_iff.1 hlen
    cases h
    exact ⟨rfl, rfl⟩
  | cons text words ih =>
    cases kinds with
    | nil => cases hlen
    | cons k kinds =>
      obtain ⟨v, hv, h⟩ := Except.bind_eq_ok_iff.1 h
      obtain ⟨rest, hrest, rfl⟩ := Except.map_eq_ok_iff.1 h
      obtain ⟨hl, hfit⟩ := ih (Nat.succ.inj hlen) hrest
      refine ⟨congrArg (· + 1) hl, ?_⟩
      rw [Function.coerceFrom, coerce_of_readWord hv, hfit]
      rfl

/-- Words that were read for a function are arguments that fit it, as they are. -/
theorem fitted_of_readWords (hf : f.address ≠ .null)
    (h : readWords b f.signature words = .ok args) : f.Fitted args args := by
  unfold readWords at h
  split at h
  · cases h
  · rename_i hcount
    obtain ⟨hlen, hfit⟩ := coerceFrom_of_readWordsFrom (not_not.1 hcount) h
    have hlen : args.length = f.signature.arity := hlen
    have hnull : ¬ f.address.isNull = true := fun hnull => hf (Address.isNull_iff.1 hnull)
    refine Function.prepare_eq_ok_iff.1 ?_
    rw [Function.prepare, if_neg hnull, if_neg (not_not.2 hlen)]
    exact hfit

end

/-! ### Calls -/

/-- Coercion settles in one step: what passed for a kind, as a value or as a word, passes for it
    again at any place and is the same value. So once words were read for a function with an
    address, a call of it with what was read is carried out, on every machine and from every state,
    and the machine is told exactly these values, one for each parameter; the command that calls the
    function with these words does not fail. The build makes no difference. -/
theorem accepted_words_called {μ ρ : Type} (b : Build) :
    (∀ (v w : Value) (k : Kind) (i j : Nat), v.coerce k i = .ok w → w.coerce k j = .ok w) ∧
    (∀ (text : String) (w : Value) (k : Kind) (i j : Nat),
      readWord b text k i = .ok w → w.coerce k j = .ok w) ∧
    ∀ (f : Function) (words : List String) (args : List Value), f.address ≠ .null →
      readWords b f.signature words = .ok args →
      (∀ (m : CallMachine μ ρ) (s : μ) (w : World ρ),
        let r := f.call m.observed args ((s, []), w)
        f.call m args (s, w) = (r.1, r.2.1.1, r.2.2) ∧ (∃ v, r.1 = .ok v) ∧
        r.2.1.2 =
          [.reset, .setMode f.convention] ++ args.map .push ++
            [.invoke f.address f.signature.ret]) ∧
      ∀ (code : Code ρ) (capacity : Nat) (w : World ρ),
        ∃ printed, (callWords b code capacity f words w).1 = .ok printed := by
  refine ⟨fun _ _ _ _ j h => Value.coerce_again h j, fun _ _ _ _ j h => coerce_of_readWord h j,
    fun f words args hf hread => ?_⟩
  have hfitted := fitted_of_readWords hf hread
  refine ⟨fun m s w => ?_, fun code capacity w => ?_⟩
  · have hcall := Function.call_of_fitted m hfitted (s, w)
    intro r
    have hr : r = _ := Function.call_observed m hfitted s [] w
    rw [hr]
    exact ⟨rfl, ⟨_, congrArg Prod.fst hcall⟩, rfl⟩
  · have hcall :=
      Function.call_of_fitted (Gate.machine code) hfitted (Gate.withCapacity capacity, w)
    rw [callWords, hread]
    simp only [hcall]
    exact ⟨_, rfl⟩

end CommandLine

end NativeGate
