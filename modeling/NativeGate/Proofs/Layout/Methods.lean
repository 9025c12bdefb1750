import NativeGate.Call.Recorder
import NativeGate.Proofs.Call.Dispatch
import NativeGate.Proofs.Layout.Conversion

/-!
Failed calls of bound methods. A method call is a dispatch and, behind it, the conversion of the
result. A dispatch that is refused leaves the machine untouched; but whether a result can be wrapped
shows only when it is there, so an address for which the converter is not registered fails a call
that has been carried out in full. There is no third way to fail
(`method_call_untouched_or_unwrapped`).
-/

namespace NativeGate.Layout.BoundMethod

/-! ### Conversion -/

/-- The converter that applies to results of the method: its own, or else the default one. -/
inductive Applies (b : BoundMethod) (t : Types) : Scope → String → Prop
  | intro {scope : Scope} {own : Option String} {name : String}
      (hb : b.conversion = some (scope, own))
      (hname : own.or (scope.types t).defaultConverter = some name) : Applies b t scope name

/-- The results that a method cannot wrap, with the error that this is: addresses that are not null,
    while the converter that applies is not registered. -/
inductive Unwrapped (b : BoundMethod) (t : Types) : Value → Error → Prop
  | intro {scope : Scope} {name : String} {p : Address} (applies : b.Applies t scope name)
      (missing : (scope.types t).get? name = none) (hp : p ≠ .null) :
      Unwrapped b t (.pointer p) (.unknownMember "TypeManager" name)

theorem convert_eq_error_iff {b : BoundMethod} {t : Types} {v : Value} {e : Error} :
    b.convert t v = .error e ↔ b.Unwrapped t v e := by
  unfold convert
  cases hb : b.conversion with
  | none =>
    constructor
    · intro h
      cases h
    · rintro ⟨⟨hb', _⟩, _, _⟩
      rw [hb] at hb'
      cases hb'
  | some c =>
    obtain ⟨scope, own⟩ := c
    dsimp only
    rw [Types.convert_eq_error_iff]
    constructor
    · rintro ⟨p, name, rfl, hp, hname, hnone, rfl⟩
      exact .intro (.intro hb hname) hnone hp
    · rintro ⟨⟨hb', hname⟩, hnone, hp⟩
      rw [hb, Option.some.injEq, Prod.mk.injEq] at hb'
      obtain ⟨rfl, rfl⟩ := hb'
      exact ⟨_, _, rfl, hp, hname, hnone, rfl⟩

/-! ### Calls -/

section Call
variable {μ ρ : Type} {b : BoundMethod} {args : List Value}

/-- A refused dispatch is all that there is of the call. -/
theorem call_of_refused (t : Types) (m : CallMachine μ ρ) {e : Error}
    (h : b.function.Refused (b.withThis args) e) (s : μ × World ρ) :
    b.call t m args s = (.error e, noted (.rejected e) s) := by
  rw [call, Function.call_of_refused m h]
  rfl

/-- A dispatch that is carried out goes through its whole protocol, and then the result is
    converted. -/
theorem call_of_fitted (t : Types) (m : CallMachine μ ρ) {ws : List Value}
    (h : b.function.Fitted (b.withThis args) ws) (s : μ) (w : World ρ) :
    ∃ v, (b.function.call m (b.withThis args) (s, w)).1 = .ok v ∧
      (b.call t m args (s, w)).1 = b.convert t v ∧
      b.call t m.observed args ((s, []), w) =
        let r := b.call t m args (s, w)
        (r.1, (r.2.1, b.function.protocol ws), r.2.2) := by
  have hcall := Function.call_of_fitted m h (s, w)
  have hobserved := Function.call_observed m h s [] w
  rw [call, call, hobserved, hcall]
  exact ⟨_, rfl, rfl, rfl⟩

/-- How a method call fails. Either the dispatch is refused: then the machine has taken no step, and
    the call has done nothing but note the refusal. Or the dispatch was carried out in full, through
    its whole protocol and with a result, and this result cannot be wrapped: it is an address that
    is not null, and the converter that applies is not registered. A method call fails for these
    reasons and no others, so while the converter that applies is registered, a failed method call
    leaves the machine and the world beside it as they were. -/
theorem method_call_untouched_or_unwrapped (t : Types) (b : BoundMethod) (m : CallMachine μ ρ)
    (args : List Value) (s : μ) (w : World ρ) :
    let f := b.function
    let all := .pointer b.this :: args
    let r := b.call t m.observed args ((s, []), w)
    b.call t m args (s, w) = (r.1, r.2.1.1, r.2.2) ∧
    (∀ e, r.1 = .error e ↔
      f.Refused all e ∨ ∃ v, (f.call m all (s, w)).1 = .ok v ∧ b.Unwrapped t v e) ∧
    (∀ e, f.Refused all e → r.2 = ((s, []), w.note (.rejected e))) ∧
    (∀ v, (f.call m all (s, w)).1 = .ok v → ∃ ws, f.Fitted all ws ∧
      r.2.1.2 =
        [.reset, .setMode f.convention] ++ ws.map .push ++ [.invoke f.address f.signature.ret]) ∧
    ((∀ scope name, b.Applies t scope name → (scope.types t).get? name ≠ none) →
      ∀ e, r.1 = .error e → r.2 = ((s, []), w.note (.rejected e))) := by
  intro f all r
  cases h : f.prepare all with
  | error e =>
    have hr : f.Refused all e := Function.prepare_eq_error_iff.1 h
    have hrun : r = (.error e, ((s, []), w.note (.rejected e))) := call_of_refused t m.observed hr _
    have hcall : (f.call m all (s, w)).1 = .error e :=
      congrArg Prod.fst (Function.call_of_refused m hr _)
    rw [hrun, hcall]
    refine ⟨call_of_refused t m hr _, fun e' => ?_, fun e' hr' => ?_, ?_, ?_⟩
    · rw [Except.error.injEq]
      constructor
      · rintro rfl
        exact .inl hr
      · rintro (hr' | ⟨v, hv, -⟩)
        · exact hr.unique hr'
        · cases hv
    · rw [hr.unique hr']
    · rintro v ⟨⟩
    · rintro - e' ⟨⟩
      rfl
  | ok ws =>
    have hf : f.Fitted all ws := Function.prepare_eq_ok_iff.1 h
    obtain ⟨v, hv, hconvert, hrun⟩ := call_of_fitted t m hf s w
    have hr : r.1 = b.convert t v := (congrArg Prod.fst hrun).trans hconvert
    have hiff : ∀ e, r.1 = .error e ↔ b.Unwrapped t v e := fun e => by
      rw [hr, convert_eq_error_iff]
    have hv : (f.call m all (s, w)).1 = .ok v := hv
    refine ⟨?_, fun e => ?_, fun e he => absurd he (hf.not_refused e), fun v' _ => ?_,
      fun hregistered e he => ?_⟩
    · rw [show r = _ from hrun]
    · rw [hiff, hv]
      constructor
      · intro hu
        exact .inr ⟨v, rfl, hu⟩
      · rintro (he | ⟨_, ⟨⟩, hu⟩)
        · exact absurd he (hf.not_refused e)
        · exact hu
    · exact ⟨ws, hf, congrArg (·.2.1.2) hrun⟩
    · cases (hiff e).1 he with
      | intro applies missing _ => exact absurd missing (hregistered _ _ applies)

/-- A method that gives an address, with a converter that is not registered: the call fails, and the
    machine has been reset, told the convention, given the address of the instance, and invoked. -/
theorem method_call_failed_after_invocation :
    let f : Function := ⟨⟨0x4000⟩, .cdecl, ⟨[.pointer], .pointer, by decide⟩⟩
    let b : BoundMethod := ⟨f, ⟨0x2000⟩, some (.registry, some "Weapon")⟩
    let m : CallMachine Recorder Unit := Recorder.machine fun w => (.pointer ⟨0x3000⟩, w)
    let r := b.call Types.empty m [] (Recorder.fresh, .start ())
    r.1 = .error (.unknownMember "TypeManager" "Weapon") ∧
      r.2.1 = ⟨1, some .cdecl, [.pointer ⟨0x2000⟩], [(⟨0x4000⟩, .pointer)]⟩ ∧
      r.2.1 ≠ Recorder.fresh := by
  intro f b m r
  refine ⟨rfl, rfl, fun h => ?_⟩
  have hresets : r.2.1.resets = Recorder.fresh.resets := congrArg Recorder.resets h
  cases hresets

end Call

end NativeGate.Layout.BoundMethod
