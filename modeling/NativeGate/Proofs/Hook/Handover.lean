import NativeGate.Proofs.Hook.Phases
import NativeGate.Proofs.Hook.ReadBack
import NativeGate.Proofs.Hook.Written

/-!
What the moved code is given of the list that callbacks leave. The list may have any length. It is
laid beside the arguments that came in before anybody counts it, so what stands behind them is cut
off unseen: the moved code is called where a direct call would be carried out, and also for a list
that is too long, whose surplus is lost. A list that is too short, or one with an argument that does
not fit, is refused like that of a direct call (`arguments_handed_over`).
-/

namespace NativeGate

namespace Function

/-- Refusal depends on how many arguments there are, and on which of them do not fit and why. -/
theorem Refused.congr {f : Function} {args args' : List Value} {e : Error} (h : f.Refused args e)
    (hlen : args'.length = args.length)
    (hfit : ∀ (i : Nat) (v v' : Value) (k : Kind) (e : Error), args[i]? = some v →
      args'[i]? = some v' → f.signature.params[i]? = some k →
      (v'.coerce k i = .error e ↔ v.coerce k i = .error e)) : f.Refused args' e := by
  have hat : ∀ {l l' : List Value} {i : Nat} {v : Value}, l.length = l'.length →
      l[i]? = some v → ∃ v', l'[i]? = some v' := fun hl hv =>
    ⟨_, List.getElem?_eq_getElem (hl ▸ (List.getElem?_eq_some_iff.1 hv).1)⟩
  cases h with
  | null hf => exact .null hf
  | count hf hc => exact hlen ▸ .count hf (hlen ▸ hc)
  | argument hf hc i v k e hv hk before here =>
    obtain ⟨v', hv'⟩ := hat hlen.symm hv
    refine .argument hf (hlen.trans hc) i v' k e hv' hk (fun j hj u' l hu' hl => ?_)
      ((hfit i v v' k e hv hv' hk).2 here)
    obtain ⟨u, hu⟩ := hat hlen hu'
    obtain ⟨x, hx⟩ := before j hj u l hu hl
    cases hc' : u'.coerce l j with
    | ok y => exact ⟨y, rfl⟩
    | error e' =>
      rw [(hfit j u u' l e' hu hu' hl).1 hc'] at hx
      cases hx

theorem exists_fitted_of_not_refused {f : Function} {args : List Value}
    (h : ¬ ∃ e, f.Refused args e) : ∃ ws, f.Fitted args ws := by
  cases hp : f.prepare args with
  | ok ws => exact ⟨ws, prepare_eq_ok_iff.1 hp⟩
  | error e => exact absurd ⟨e, prepare_eq_error_iff.1 hp⟩ h

/-- A direct call refuses a list where its part with parameters is refused, and where there is more
    of it than there are parameters. -/
theorem exists_refused_iff {f : Function} {args : List Value} :
    (∃ e, f.Refused args e) ↔
      (∃ e, f.Refused (args.take f.signature.arity) e) ∨ f.signature.arity < args.length := by
  rcases Nat.lt_or_ge f.signature.arity args.length with hlong | hshort
  · refine ⟨fun _ => .inr hlong, fun _ => ?_⟩
    by_cases hf : f.address = .null
    · exact ⟨_, .null hf⟩
    · exact ⟨_, .count hf hlong.ne'⟩
  · rw [List.take_of_length_le hshort, or_iff_left (Nat.not_lt.2 hshort)]

end Function

/-- A value that counts as the argument that was shown fits the parameter. -/
theorem Value.exists_coerce_of_same {a : Value} {k : Kind} {x : UInt64} {m : Memory}
    (hvoid : k ≠ .void) (h : a.same ((ofWord k x).received m k) = true) (i : Nat) :
    ∃ u, a.coerce k i = .ok u := by
  have hkind := kind_ofWord k x
  rcases eq_or_ne k .string with rfl | hstring
  · rw [same_received_string hkind] at h
    rcases received_string hkind m with hr | ⟨s, hr⟩ <;> exact ⟨_, by rw [h, hr]; rfl⟩
  · rw [received_carried hstring hkind] at h
    have hcarried : a.kind = k.carried := by
      rcases same_iff.1 h with ⟨rfl, _⟩ | ho
      · exact hkind
      · exact ho.kind_eq.trans hkind
    exact ⟨_, coerce_carried hvoid hcarried i⟩

namespace Hook

/-! ### The list that goes on -/

theorem zip_take_length {α β : Type} (l : List α) (l' : List β) :
    (l.take l'.length).zip l' = l.zip l' := by
  induction l' generalizing l with
  | nil => rw [List.zip_nil_right, List.zip_nil_right]
  | cons b l' ih =>
    cases l with
    | nil => rfl
    | cons a l => exact congrArg ((a, b) :: ·) (ih l)

section List
variable {f : Function} {words : List UInt64} {args : List Value}

/-- Only so much of a list goes on as there are arguments that came in. -/
theorem passed_take (m : Memory) (hwords : words.length = f.signature.arity) :
    let raw := rawArguments f.signature words
    passed (args.take f.signature.arity) (shownArguments m f.signature raw) raw =
      passed args (shownArguments m f.signature raw) raw := by
  intro raw
  have hraw : raw.length = f.signature.arity := length_rawArguments hwords
  have hzip : ((shownArguments m f.signature raw).zip raw).length = f.signature.arity := by
    rw [List.length_zip, length_shownArguments hraw, hraw, Nat.min_self]
  rw [passed, passed, ← hzip, zip_take_length]

theorem length_passed_take (m : Memory) (hwords : words.length = f.signature.arity) :
    let raw := rawArguments f.signature words
    (passed args (shownArguments m f.signature raw) raw).length =
      (args.take f.signature.arity).length := by
  intro raw
  have hraw : raw.length = f.signature.arity := length_rawArguments hwords
  rw [passed, List.length_map, List.length_zip, List.length_zip, length_shownArguments hraw, hraw,
    Nat.min_self, List.length_take, Nat.min_comm]

/-- What goes on is refused for the reason for which the list is refused that it was taken from. -/
theorem refused_passed {e : Error} (m : Memory) (hwords : words.length = f.signature.arity)
    (h : f.Refused (args.take f.signature.arity) e) :
    let raw := rawArguments f.signature words
    f.Refused (passed args (shownArguments m f.signature raw) raw) e := by
  intro raw
  refine h.congr (length_passed_take m hwords) fun i v v' k e' hv hv' hk => ?_
  have hi : i < words.length := hwords ▸ (List.getElem?_eq_some_iff.1 hk).1
  have hx := List.getElem?_eq_getElem hi
  rw [← passed_take m hwords, (passed_words m hk hx hv).2, Option.some.injEq] at hv'
  rw [← hv']
  -- where the value counts as what was shown, the argument that came in replaces it, and both fit
  by_cases hsame : v.same ((Value.ofWord k words[i]).received m k) = true
  · obtain ⟨u, hu⟩ := Value.exists_coerce_of_same (Signature.ne_void hk) hsame i
    have hraw := Value.coerce_carried (Signature.ne_void hk) (Value.kind_ofWord k words[i]) i
    rw [if_pos hsame, hraw, hu]
    constructor <;> rintro ⟨⟩
  · rw [if_neg hsame]

end List

/-! ### A call without its code -/

section Call
variable {χ ρ : Type} {stage : Stage χ (World ρ)} {hook : HookId} {f : Function}
  {words : List UInt64} {w w₁ : World ρ} {call : HookCall}

/-- The world behind a call of moved code that was refused. -/
def refusedAt (hook : HookId) (e : Error) (w : World ρ) : World ρ :=
  (w.note (.rejected e)).note (.movedCallFailed hook)

theorem callMoved_of_refused (code : Code ρ) (hook : HookId) {args : List Value} {e : Error}
    (h : f.Refused args e) (w : World ρ) :
    callMoved code hook f args w = (.none, refusedAt hook e w) := by
  rw [callMoved, Function.callRaw_of_refused _ h]
  rfl

theorem encodeResult_none (hook : HookId) (k : Kind) (w : World ρ) :
    (encodeResult hook k .none w).1 = 0 := by
  cases k <;> rfl

theorem returned_none (v : Value) : returned ⟨v, some (.none, .none)⟩ = v := by
  cases v <;> rfl

/-- Where what goes on is refused, no code has a part in the answer: the post callbacks run on a
    call without a result, and what they make of it is encoded. -/
theorem answer_of_refused (code : Code ρ) {e : Error}
    (hpre : stage.run hook .pre
      ⟨.pre, shownArguments w.memory f.signature (rawArguments f.signature words), .none⟩ w =
        (none, call, w₁))
    (h : f.Refused
      (passed call.args (shownArguments w.memory f.signature (rawArguments f.signature words))
        (rawArguments f.signature words)) e) :
    answer stage code hook f words w =
      let (replaced, call', w₂) :=
        stage.run hook .post ⟨.post, call.args, .none⟩ (refusedAt hook e w₁)
      encodeResult hook f.signature.ret (replaced.getD call'.result) w₂ := by
  have hreceived : ∀ m k, Value.none.received m k = .none := fun m k => by cases k <;> rfl
  unfold answer Stage.dispatch
  simp only [hpre, runMoved, callMoved_of_refused code hook h, hreceived, returned_none]

/-- How arguments are handed over, while no pre callback overrides. Let `taken` be so much of the
    list that callbacks leave as there are parameters. Where it would not be refused, the moved code
    is entered exactly once, with one word for each parameter. Where it would be, the moved code is
    not entered; the refusal is counted as one failure, and if no post callback overrides or writes
    the result, the caller reads the zero of the result kind. So a list is accepted where a direct
    call would accept it, and also where it is too long. -/
theorem arguments_handed_over (stage : Stage χ (World ρ)) (hook : HookId) (f : Function)
    (words : List UInt64) (hwords : words.length = f.signature.arity) (w w₁ : World ρ)
    (call : HookCall)
    (hpre : stage.run hook .pre
      ⟨.pre, shownArguments w.memory f.signature (rawArguments f.signature words), .none⟩ w =
        (none, call, w₁)) :
    let taken := call.args.take f.signature.arity
    ((∃ e, f.Refused call.args e) ↔
      (∃ e, f.Refused taken e) ∨ f.signature.arity < call.args.length) ∧
    ((¬ ∃ e, f.Refused taken e) → ∃ xs u before, xs.length = f.signature.arity ∧
      ∀ code, answer stage code hook f words w =
        resume stage hook f call.args before (code f.address xs u)) ∧
    ∀ e, f.Refused taken e → ∃ w₂,
      w₂.memory = w₁.memory ∧ w₂.native = w₁.native ∧
      Counters.FailedOnce e.name w₁.ledger.counters w₂.ledger.counters ∧
      ∃ post call' w₃, stage.PhaseRun hook .post ⟨.post, call.args, .none⟩ w₂ post call' w₃ ∧
        ∀ code,
          answer stage code hook f words w =
            encodeResult hook f.signature.ret ((Turn.lastOverride post).getD call'.result) w₃ ∧
          ((∀ t ∈ post, t.verdict.override? = none ∧ t.KeepsResult) →
            Value.ofWord f.signature.ret (answer stage code hook f words w).1 =
              f.signature.ret.zero) := by
  intro taken
  refine ⟨Function.exists_refused_iff, fun haccepted => ?_, fun e he => ?_⟩
  · obtain ⟨ws, hws⟩ := Function.exists_fitted_of_not_refused haccepted
    obtain ⟨us, hus, -⟩ := exists_fitted_passed hwords hws w.memory
    rw [passed_take w.memory hwords] at hus
    exact ⟨_, _, _, length_entry hus w₁, fun code => answer_eq_resume stage code hook hpre hus⟩
  · have hrefused := refused_passed w.memory hwords he
    obtain ⟨post, call', w₃, hpost, hrun, -⟩ :=
      stage.run_phaseRun hook .post ⟨.post, call.args, .none⟩ (refusedAt hook e w₁) []
    have hanswer : ∀ code, answer stage code hook f words w =
        encodeResult hook f.signature.ret ((Turn.lastOverride post).getD call'.result) w₃ :=
      fun code => by rw [answer_of_refused code hpre hrefused, hrun]
    refine ⟨refusedAt hook e w₁, rfl, rfl, Counters.failedOnce_tally _ e, post, call', w₃, hpost,
      fun code => ⟨hanswer code, fun hquiet => ?_⟩⟩
    have hnone : Turn.lastOverride post = none :=
      Turn.lastOverride_eq_none_iff.2 fun t ht => (hquiet t ht).1
    have hresult : call'.result = .none := hpost.turns.result_eq hquiet
    rw [hanswer, hnone, Option.getD_none, hresult, encodeResult_none, Value.ofWord_zero]

end Call

/-! ### One list, one callback -/

/-- A stage with one callback, which leaves the same list in place of any arguments. -/
def leaving (args : List Value) : Stage Unit (World Unit) where
  table _ := ⟨[⟨⟨1⟩, .pre, ()⟩]⟩
  note e w := w.note e
  act _ call w := (.proceed, { call with args := args }, w)

/-- Where the only argument is taken away, the caller reads a zero. -/
theorem answer_leaving_none :
    let words : List UInt64 := [0x4000000000000000]
    let w : World Unit := .start ()
    let shown := shownArguments w.memory unary.signature (rawArguments unary.signature words)
    words.length = unary.signature.arity ∧
    (leaving []).run ⟨1⟩ .pre ⟨.pre, shown, .none⟩ w =
      (none, ⟨.pre, [], .none⟩, w.note (.callbacksRunning ⟨1⟩ .pre 1)) ∧
    unary.Refused [] (.argumentCount 1 0) ∧
    Value.ofWord .double (answer (leaving []) echo ⟨1⟩ unary words w).1 = .double ⟨0⟩ := by
  intro words w shown
  have hwords : words.length = unary.signature.arity := rfl
  have hpre : (leaving []).run ⟨1⟩ .pre ⟨.pre, shown, .none⟩ w =
      (none, ⟨.pre, [], .none⟩, w.note (.callbacksRunning ⟨1⟩ .pre 1)) := rfl
  have hrefused : unary.Refused [] (.argumentCount 1 0) := Function.refused_of_prepare rfl
  obtain ⟨-, -, hrefusal⟩ :=
    arguments_handed_over (leaving []) ⟨1⟩ unary words hwords w _ _ hpre
  obtain ⟨w₂, -, -, -, post, call', w₃, hpost, hanswer⟩ := hrefusal _ hrefused
  have hnone : post = [] := List.map_eq_nil_iff.1 hpost.callbacks
  refine ⟨hwords, hpre, hrefused, (hanswer echo).2 fun t ht => ?_⟩
  rw [hnone] at ht
  cases ht

/-- Where a second argument is put behind the only one, a direct call would be refused; but the
    moved code is called, with the first of the two, and no failure is counted. -/
theorem answer_leaving_two :
    let args : List Value := [.double ⟨0x3ff0000000000000⟩, .double ⟨0x4008000000000000⟩]
    let words : List UInt64 := [0x4000000000000000]
    let w : World Unit := .start ()
    let shown := shownArguments w.memory unary.signature (rawArguments unary.signature words)
    let r := answer (leaving args) echo ⟨1⟩ unary words w
    (∃ w₁, (leaving args).run ⟨1⟩ .pre ⟨.pre, shown, .none⟩ w =
      (none, ⟨.pre, args, .none⟩, w₁)) ∧
    unary.Refused args (.argumentCount 1 2) ∧
    Value.ofWord .double r.1 = .double ⟨0x3ff0000000000000⟩ ∧
    r.2.ledger.counters.callsMade = 1 ∧ r.2.ledger.counters.callFailures = 0 := by
  intro args words w shown r
  refine ⟨⟨_, rfl⟩, Function.refused_of_prepare rfl, ?_, ?_, ?_⟩ <;> decide +kernel

end Hook

end NativeGate
