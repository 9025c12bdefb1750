import Mathlib.Data.List.Induction
import NativeGate.Call.Machine
import NativeGate.Proofs.Counting
import NativeGate.Proofs.Outcome

/-!
Dispatch is all or nothing. A call is refused before the machine has taken a step, or the machine
takes the whole protocol of the call: it is reset, told the convention, given every argument in the
form of its parameter, and invoked once. `Function.Refused` says which calls are refused and for
what reason, `Function.Fitted` which arguments a call is carried out with. The steps of a machine
are made visible by `CallMachine.observed`, which keeps a list of them beside the machine's state.
-/

namespace NativeGate

/-! ### Steps of a machine -/

/-- A step that a call machine is taken through. -/
inductive Step where
  | reset
  | setMode (c : Convention)
  | push (v : Value)
  | invoke (a : Address) (k : Kind)
deriving DecidableEq

namespace CallMachine
variable {μ ρ : Type}

/-- The machine `m` with a list of the steps it has been taken through. -/
def observed (m : CallMachine μ ρ) : CallMachine (μ × List Step) ρ where
  reset s :=
    let t := m.reset (s.1.1, s.2)
    ((t.1, s.1.2 ++ [.reset]), t.2)
  setMode c s :=
    let t := m.setMode c (s.1.1, s.2)
    ((t.1, s.1.2 ++ [.setMode c]), t.2)
  push v s :=
    let t := m.push v (s.1.1, s.2)
    ((t.1, s.1.2 ++ [.push v]), t.2)
  invoke a k s :=
    let t := m.invoke a k (s.1.1, s.2)
    (t.1, (t.2.1, s.1.2 ++ [.invoke a k]), t.2.2)
  lastError s := m.lastError s.1

/-- One step; only an invocation has a result. -/
def take (m : CallMachine μ ρ) (s : μ × World ρ) : Step → Value × (μ × World ρ)
  | .reset => (.none, m.reset s)
  | .setMode c => (.none, m.setMode c s)
  | .push v => (.none, m.push v s)
  | .invoke a k => m.invoke a k s

/-- The steps of a list in order, with the result of the last one. -/
def follow (m : CallMachine μ ρ) (steps : List Step) (s : μ × World ρ) :
    Value × (μ × World ρ) :=
  steps.foldl (fun t step => m.take t.2 step) (.none, s)

theorem follow_concat (m : CallMachine μ ρ) (steps : List Step) (step : Step)
    (s : μ × World ρ) : m.follow (steps ++ [step]) s = m.take (m.follow steps s).2 step := by
  rw [follow, List.foldl_append]
  rfl

theorem follow_pushes (m : CallMachine μ ρ) (steps : List Step) (args : List Value)
    (s : μ × World ρ) :
    (m.follow (steps ++ args.map .push) s).2 =
      args.foldl (fun s v => m.push v s) (m.follow steps s).2 := by
  induction args generalizing steps with
  | nil => rw [List.map_nil, List.append_nil]; rfl
  | cons v vs ih =>
    have hcons : steps ++ (v :: vs).map .push = steps ++ [.push v] ++ vs.map .push := by simp
    rw [hcons, ih, follow_concat]
    rfl

/-- An observed machine does what the machine does, and lists the steps. -/
theorem follow_observed (m : CallMachine μ ρ) (steps done : List Step) (s : μ) (w : World ρ) :
    m.observed.follow steps ((s, done), w) =
      ((m.follow steps (s, w)).1, ((m.follow steps (s, w)).2.1, done ++ steps),
        (m.follow steps (s, w)).2.2) := by
  induction steps using List.reverseRecOn with
  | nil => rw [List.append_nil]; rfl
  | append_singleton steps step ih =>
    rw [follow_concat, follow_concat, ih, ← List.append_assoc]
    cases step <;> rfl

end CallMachine

namespace Function

/-- The steps of a call with arguments that fit. -/
def protocol (f : Function) (args : List Value) : List Step :=
  [.reset, .setMode f.convention] ++ args.map .push ++ [.invoke f.address f.signature.ret]

theorem execute_eq_follow {μ ρ : Type} (m : CallMachine μ ρ) (f : Function) (args : List Value)
    (s : μ × World ρ) : m.execute f args s = m.follow (f.protocol args) s := by
  rw [protocol, CallMachine.follow_concat, CallMachine.follow_pushes]
  rfl

/-! ### Arguments that fit -/

/-- The arguments `ws` are `args` in the form of the parameters of `f`, one for one. -/
structure Fitted (f : Function) (args ws : List Value) : Prop where
  nonNull : f.address ≠ .null
  count : args.length = f.signature.arity
  length : ws.length = f.signature.arity
  each : ∀ (i : Nat) (v : Value) (k : Kind), args[i]? = some v → f.signature.params[i]? = some k →
    ∃ w, ws[i]? = some w ∧ v.coerce k i = .ok w

/-- The calls of `f` that are refused: through the null address, or else with another number of
    arguments than there are parameters, or else with an argument that does not fit, and then it is
    the first such argument that counts. -/
inductive Refused (f : Function) (args : List Value) : Error → Prop
  | null (hf : f.address = .null) : Refused f args (.nullPointer .target)
  | count (hf : f.address ≠ .null) (hc : args.length ≠ f.signature.arity) :
      Refused f args (.argumentCount f.signature.arity args.length)
  | argument (hf : f.address ≠ .null) (hc : args.length = f.signature.arity)
      (i : Nat) (v : Value) (k : Kind) (e : Error)
      (hv : args[i]? = some v) (hk : f.signature.params[i]? = some k)
      (before : ∀ j < i, ∀ (v : Value) (k : Kind), args[j]? = some v →
        f.signature.params[j]? = some k → ∃ w, v.coerce k j = .ok w)
      (here : v.coerce k i = .error e) : Refused f args e

/-- Fitting gives one value for each parameter, in order. -/
theorem coerceFrom_eq_ok {n : Nat} {args ws : List Value} {ks : List Kind}
    (hlen : args.length = ks.length) (h : coerceFrom n args ks = .ok ws) :
    ws.length = ks.length ∧ ∀ (i : Nat) (v : Value) (k : Kind), args[i]? = some v →
      ks[i]? = some k → ∃ w, ws[i]? = some w ∧ v.coerce k (n + i) = .ok w := by
  induction args generalizing n ks ws with
  | nil =>
    cases ks with
    | nil => cases h; simp
    | cons k ks => simp at hlen
  | cons v vs ih =>
    cases ks with
    | nil => simp at hlen
    | cons k ks =>
      obtain ⟨w, hv, h⟩ := Except.bind_eq_ok_iff.1 h
      obtain ⟨rest, hr, rfl⟩ := Except.map_eq_ok_iff.1 h
      obtain ⟨hl, heach⟩ := ih (by simpa using hlen) hr
      refine ⟨by simp [hl], ?_⟩
      rintro (_ | i) v' k' hv' hk'
      · cases hv'; cases hk'
        exact ⟨w, rfl, hv⟩
      · obtain ⟨u, hu, hc⟩ := heach i v' k' hv' hk'
        exact ⟨u, hu, by rw [← hc]; congr 1; omega⟩

/-- Fitting fails at the first argument that does not fit. -/
theorem coerceFrom_eq_error {n : Nat} {args : List Value} {ks : List Kind} {e : Error}
    (h : coerceFrom n args ks = .error e) :
    ∃ i v k, args[i]? = some v ∧ ks[i]? = some k ∧ v.coerce k (n + i) = .error e ∧
      ∀ j < i, ∀ (v : Value) (k : Kind), args[j]? = some v → ks[j]? = some k →
        ∃ w, v.coerce k (n + j) = .ok w := by
  induction args generalizing n ks with
  | nil => cases ks <;> cases h
  | cons v vs ih =>
    cases ks with
    | nil => cases h
    | cons k ks =>
      rcases Except.bind_eq_error_iff.1 h with hv | ⟨w, hv, h⟩
      · exact ⟨0, v, k, rfl, rfl, hv, fun j hj => absurd hj (Nat.not_lt_zero j)⟩
      · obtain ⟨i, v', k', hv', hk', he, before⟩ := ih (Except.map_eq_error_iff.1 h)
        refine ⟨i + 1, v', k', hv', hk', by rw [← he]; congr 1; omega, ?_⟩
        rintro (_ | j) hj u l hu hl
        · cases hu; cases hl
          exact ⟨w, hv⟩
        · obtain ⟨x, hx⟩ := before j (by omega) u l hu hl
          exact ⟨x, by rw [← hx]; congr 1; omega⟩

/-- No call is both carried out and refused. -/
theorem Fitted.not_refused {f : Function} {args ws : List Value} (hf : f.Fitted args ws)
    (e : Error) : ¬ f.Refused args e := by
  rintro (h | ⟨_, hc⟩ | ⟨_, _, i, v, k, _, hv, hk, _, here⟩)
  · exact hf.nonNull h
  · exact hc hf.count
  · obtain ⟨w, _, hw⟩ := hf.each i v k hv hk
    rw [here] at hw
    cases hw

/-- The arguments a call is carried out with are determined. -/
theorem Fitted.unique {f : Function} {args ws ws' : List Value} (h : f.Fitted args ws)
    (h' : f.Fitted args ws') : ws = ws' := by
  apply List.ext_getElem (h.length.trans h'.length.symm)
  intro i hi hi'
  have ha : i < args.length := by rw [h.count, ← h.length]; exact hi
  have hp : i < f.signature.params.length := by
    have hl := h.length
    rw [Signature.arity] at hl
    omega
  obtain ⟨w, hw, hc⟩ := h.each i _ _ (List.getElem?_eq_getElem ha) (List.getElem?_eq_getElem hp)
  obtain ⟨w', hw', hc'⟩ := h'.each i _ _ (List.getElem?_eq_getElem ha) (List.getElem?_eq_getElem hp)
  rw [List.getElem?_eq_getElem hi, Option.some.injEq] at hw
  rw [List.getElem?_eq_getElem hi', Option.some.injEq] at hw'
  rw [hc, Except.ok.injEq] at hc'
  rw [hw, hw', hc']

/-- An argument and the one in its place that a call is carried out with. -/
theorem Fitted.coerce_eq {f : Function} {args ws : List Value} (h : f.Fitted args ws) {i : Nat}
    {v w : Value} {k : Kind} (hv : args[i]? = some v) (hk : f.signature.params[i]? = some k)
    (hw : ws[i]? = some w) : v.coerce k i = .ok w := by
  obtain ⟨w', hw', hc⟩ := h.each i v k hv hk
  rw [hw, Option.some.injEq] at hw'
  rw [hw', hc]

/-- The reason for a refusal is determined. -/
theorem Refused.unique {f : Function} {args : List Value} {e e' : Error} (h : f.Refused args e)
    (h' : f.Refused args e') : e = e' := by
  rcases h with hf | ⟨hf, hc⟩ | ⟨hf, hc, i, v, k, _, hv, hk, before, here⟩ <;>
    rcases h' with hf' | ⟨hf', hc'⟩ | ⟨hf', hc', i', v', k', _, hv', hk', before', here'⟩
  case null.null | count.count => rfl
  case argument.argument =>
    -- an earlier argument that does not fit would contradict that the other one is the first
    rcases Nat.lt_trichotomy i i' with hlt | rfl | hlt
    · obtain ⟨w, hw⟩ := before' i hlt v k hv hk
      rw [here] at hw
      cases hw
    · rw [hv, Option.some.injEq] at hv'
      rw [hk, Option.some.injEq] at hk'
      rw [hv', hk', here', Except.error.injEq] at here
      exact here.symm
    · obtain ⟨w, hw⟩ := before i' hlt v' k' hv' hk'
      rw [here'] at hw
      cases hw
  all_goals contradiction

theorem fitted_of_prepare {f : Function} {args ws : List Value} (h : f.prepare args = .ok ws) :
    f.Fitted args ws := by
  unfold prepare at h
  split at h
  · cases h
  · rename_i hf
    split at h
    · cases h
    · rename_i hc
      have hc : args.length = f.signature.arity := not_not.1 hc
      obtain ⟨hl, heach⟩ := coerceFrom_eq_ok hc h
      refine ⟨by simpa using hf, hc, hl, fun i v k hv hk => ?_⟩
      obtain ⟨w, hw, hcw⟩ := heach i v k hv hk
      rw [Nat.zero_add] at hcw
      exact ⟨w, hw, hcw⟩

theorem refused_of_prepare {f : Function} {args : List Value} {e : Error}
    (h : f.prepare args = .error e) : f.Refused args e := by
  unfold prepare at h
  split at h
  · rename_i hf
    cases h
    exact .null (Address.isNull_iff.1 hf)
  · rename_i hf
    have hf : f.address ≠ .null := by simpa using hf
    split at h
    · rename_i hc
      cases h
      exact .count hf hc
    · rename_i hc
      obtain ⟨i, v, k, hv, hk, here, before⟩ := coerceFrom_eq_error h
      simp only [Nat.zero_add] at here before
      exact .argument hf (not_not.1 hc) i v k e hv hk before here

/-- A call is prepared with exactly the arguments that fit. -/
theorem prepare_eq_ok_iff {f : Function} {args ws : List Value} :
    f.prepare args = .ok ws ↔ f.Fitted args ws := by
  refine ⟨fitted_of_prepare, fun hf => ?_⟩
  cases h : f.prepare args with
  | ok ws' => rw [hf.unique (fitted_of_prepare h)]
  | error e => exact absurd (refused_of_prepare h) (hf.not_refused e)

/-- A call is refused in preparation for exactly the reasons of `Refused`. -/
theorem prepare_eq_error_iff {f : Function} {args : List Value} {e : Error} :
    f.prepare args = .error e ↔ f.Refused args e := by
  refine ⟨refused_of_prepare, fun hr => ?_⟩
  cases h : f.prepare args with
  | ok ws => exact absurd hr ((fitted_of_prepare h).not_refused e)
  | error e' => rw [hr.unique (refused_of_prepare h)]

/-- A call whose arguments all fit is carried out. -/
theorem exists_fitted {f : Function} {args : List Value} (hf : f.address ≠ .null)
    (hc : args.length = f.signature.arity)
    (h : ∀ (i : Nat) (v : Value) (k : Kind), args[i]? = some v → f.signature.params[i]? = some k →
      ∃ w, v.coerce k i = .ok w) : ∃ ws, f.Fitted args ws := by
  cases hp : f.prepare args with
  | ok ws => exact ⟨ws, fitted_of_prepare hp⟩
  | error e =>
    rcases refused_of_prepare hp with hf' | ⟨_, hc'⟩ | ⟨_, _, i, v, k, _, hv, hk, _, here⟩
    · exact absurd hf' hf
    · exact absurd hc hc'
    · obtain ⟨w, hw⟩ := h i v k hv hk
      rw [here] at hw
      cases hw

/-- Fitting and refusal look at an address only to see whether it is null. -/
theorem Fitted.moved {f : Function} {args ws : List Value} (h : f.Fitted args ws) {a : Address}
    (ha : a ≠ .null) : (f.moved a).Fitted args ws :=
  ⟨ha, h.count, h.length, h.each⟩

theorem Refused.moved {f : Function} {args : List Value} {e : Error} (h : f.Refused args e)
    (hf : f.address ≠ .null) {a : Address} (ha : a ≠ .null) : (f.moved a).Refused args e := by
  cases h with
  | null h => exact absurd h hf
  | count _ hc => exact .count ha hc
  | argument _ hc i v k e hv hk before here =>
    exact .argument (f := f.moved a) ha hc i v k e hv hk before here

/-! ### One call -/

section Call
variable {μ ρ : Type} (m : CallMachine μ ρ) {f : Function} {args : List Value}

theorem callRaw_of_refused {e : Error} (h : f.Refused args e) (s : μ × World ρ) :
    f.callRaw m args s = (.error e, noted (.rejected e) s) := by
  rw [callRaw, prepare_eq_error_iff.2 h]

theorem callRaw_of_fitted {ws : List Value} (h : f.Fitted args ws) (s : μ × World ρ) :
    f.callRaw m args s =
      (.ok (m.follow (f.protocol ws) (noted (.calling f.convention f.signature) s)).1,
        noted .called
          (m.follow (f.protocol ws) (noted (.calling f.convention f.signature) s)).2) := by
  rw [callRaw, prepare_eq_ok_iff.2 h, ← execute_eq_follow]

theorem call_of_refused {e : Error} (h : f.Refused args e) (s : μ × World ρ) :
    f.call m args s = (.error e, noted (.rejected e) s) := by
  rw [call, callRaw_of_refused m h]
  rfl

theorem call_of_fitted {ws : List Value} (h : f.Fitted args ws) (s : μ × World ρ) :
    f.call m args s =
      let t := m.follow (f.protocol ws) (noted (.calling f.convention f.signature) s)
      (.ok (t.1.received t.2.2.memory f.signature.ret), noted .called t.2) := by
  rw [call, callRaw_of_fitted m h]
  rfl

/-- A call that is carried out takes an observed machine through the protocol of the call, and is
    otherwise the call on the machine itself. -/
theorem call_observed {ws : List Value} (h : f.Fitted args ws) (s : μ) (done : List Step)
    (w : World ρ) :
    f.call m.observed args ((s, done), w) =
      let r := f.call m args (s, w)
      (r.1, (r.2.1, done ++ f.protocol ws), r.2.2) := by
  rw [call_of_fitted m.observed h, call_of_fitted m h, noted, m.follow_observed]
  rfl

/-- A call either returns an error without a step of the machine, and exactly for the reasons of
    `Refused`, or takes the machine through the protocol of the call once and returns its result.
    A refusal counts as one failure under its name; a call that was carried out counts as one call
    on top of what the machine itself has counted. -/
theorem call_all_or_nothing (m : CallMachine μ ρ) (f : Function) (args : List Value) (s : μ)
    (w : World ρ) :
    let r := f.call m.observed args ((s, []), w)
    let start := w.note (.calling f.convention f.signature)
    f.call m args (s, w) = (r.1, r.2.1.1, r.2.2) ∧
    (∀ e, r.1 = .error e ↔ f.Refused args e) ∧
    (∀ e, r.1 = .error e →
      r.2.1 = (s, []) ∧ r.2.2.memory = w.memory ∧ r.2.2.native = w.native ∧
      Counters.FailedOnce e.name w.ledger.counters r.2.2.ledger.counters) ∧
    (∀ v, r.1 = .ok v → ∃ ws raw s' w',
      f.Fitted args ws ∧
      m.follow
        ([.reset, .setMode f.convention] ++ ws.map .push ++ [.invoke f.address f.signature.ret])
        (s, start) = (raw, s', w') ∧
      v = raw.received w'.memory f.signature.ret ∧
      r.2.1 = (s',
        [.reset, .setMode f.convention] ++ ws.map .push ++ [.invoke f.address f.signature.ret]) ∧
      start.ledger.counters = w.ledger.counters ∧
      r.2.2.memory = w'.memory ∧ r.2.2.native = w'.native ∧
      Counters.CalledOnce w'.ledger.counters r.2.2.ledger.counters) := by
  intro r start
  cases h : f.prepare args with
  | error e =>
    have hr : f.Refused args e := prepare_eq_error_iff.1 h
    have hrun : r = (.error e, ((s, []), w.note (.rejected e))) := call_of_refused m.observed hr _
    rw [hrun]
    refine ⟨call_of_refused m hr _, fun e' => ?_, ?_, fun v hv => by cases hv⟩
    · rw [Except.error.injEq, ← prepare_eq_error_iff, h, Except.error.injEq]
    · rintro _ ⟨⟩
      exact ⟨rfl, rfl, rfl, Counters.failedOnce_tally _ e⟩
  | ok ws =>
    have hf : f.Fitted args ws := prepare_eq_ok_iff.1 h
    obtain ⟨⟨raw, s', w'⟩, hm⟩ : ∃ t, m.follow (f.protocol ws) (s, start) = t := ⟨_, rfl⟩
    have hplain : f.call m args (s, w) =
        (.ok (raw.received w'.memory f.signature.ret), (s', w'.note .called)) := by
      have hcall := call_of_fitted m hf (s, w)
      rw [noted, hm] at hcall
      exact hcall
    have hrun : r =
        (.ok (raw.received w'.memory f.signature.ret),
          ((s', f.protocol ws), w'.note .called)) := by
      have hcall := call_of_fitted m.observed hf ((s, []), w)
      rw [noted, m.follow_observed, List.nil_append, hm] at hcall
      exact hcall
    rw [hrun]
    refine ⟨hplain, fun e => ?_, ?_, ?_⟩
    · rw [← prepare_eq_error_iff, h]
      constructor <;> intro he <;> cases he
    · intro e he
      cases he
    · rintro _ ⟨⟩
      exact ⟨ws, raw, s', w', hf, hm, rfl, rfl, rfl, rfl, rfl, Counters.calledOnce_tally _⟩

end Call

end Function

end NativeGate
