import Mathlib.Data.List.Basic
import NativeGate.Hook.Bridge

/-!
The course of a hooked call. A turn is one callback that ran, with the call as it saw it and as it
left it, and the state before and after. A recorded stage is the stage with a list of everything
that happened on it, the turns and the runs of the target, and recording changes nothing. So what
a hooked call does can be read off its record (`dispatch_course`): the callbacks of each phase are
those that were registered when the phase began, each has one turn, in order, and the target runs
once between them unless the pre phase overrode it.
-/

namespace NativeGate.Hook

/-- One callback that ran: the call as it saw it and as it left it, and the state around it. -/
structure Turn (χ σ : Type) where
  callback : χ
  seen : HookCall
  before : σ
  verdict : Verdict
  left : HookCall
  after : σ

/-- What happens in a hooked call: a callback has its turn, or the target runs. -/
inductive Deed (χ σ : Type) where
  | ran (turn : Turn χ σ)
  | entered (args : List Value) (before : σ) (result : Value) (after : σ)

def Verdict.override? : Verdict → Option Value
  | .proceed => none
  | .override v => some v

variable {χ σ β : Type}

namespace Turn

/-- The call as the next one in the phase gets it: in the post phase an override is the result. -/
def handed (phase : Phase) (t : Turn χ σ) : HookCall :=
  match t.verdict with
  | .proceed => t.left
  | .override v => if phase = .post then { t.left with result := v } else t.left

/-- The turn leaves the result as it found it. -/
def KeepsResult (t : Turn χ σ) : Prop := t.left.result = t.seen.result

/-- The last override of the turns. -/
def lastOverride (ts : List (Turn χ σ)) : Option Value :=
  ts.reverse.findSome? fun t => t.verdict.override?

theorem lastOverride_cons (t : Turn χ σ) (ts : List (Turn χ σ)) :
    lastOverride (t :: ts) = (lastOverride ts).or t.verdict.override? := by
  rw [lastOverride, List.reverse_cons, List.findSome?_append, List.findSome?_singleton]
  rfl

theorem lastOverride_eq_none_iff {ts : List (Turn χ σ)} :
    lastOverride ts = none ↔ ∀ t ∈ ts, t.verdict.override? = none := by
  simp [lastOverride]

end Turn

namespace Stage
variable (stage : Stage χ σ)

/-- The turns of a phase, from a call and a state to a call and a state: each is what its callback
    does, on the call that the one before handed on and in the state that it left. -/
inductive Turns (phase : Phase) : HookCall → σ → List (Turn χ σ) → HookCall → σ → Prop
  | done (call : HookCall) (s : σ) : Turns phase call s [] call s
  | turn {t : Turn χ σ} {ts : List (Turn χ σ)} {call : HookCall} {s : σ}
      (acts : stage.act t.callback t.seen t.before = (t.verdict, t.left, t.after))
      (rest : Turns phase (t.handed phase) t.after ts call s) :
      Turns phase t.seen t.before (t :: ts) call s

/-- The state in which the first callback of a phase has its turn. -/
def begun (hook : HookId) (phase : Phase) (s : σ) : σ :=
  match (stage.table s).snapshot hook phase with
  | [] => s
  | cs => stage.note (.callbacksRunning hook phase cs.length) s

/-- The stage with a record of what happens on it. -/
def recorded : Stage χ (σ × List (Deed χ σ)) where
  table s := stage.table s.1
  note e s := (stage.note e s.1, s.2)
  act c call s :=
    let (verdict, left, after) := stage.act c call s.1
    (verdict, left, after, s.2 ++ [.ran ⟨c, call, s.1, verdict, left, after⟩])

/-- A target with its runs on the record. -/
def recordedTarget (target : List Value → σ → (Value × β) × σ) (args : List Value)
    (s : σ × List (Deed χ σ)) : (Value × β) × σ × List (Deed χ σ) :=
  let (r, after) := target args s.1
  (r, after, s.2 ++ [.entered args s.1 r.1 after])

/-- Callbacks that run one after the other have a turn each, with a record as without. -/
theorem runAll_turns (phase : Phase) (cs : List χ) (call : HookCall) (s : σ)
    (record : List (Deed χ σ)) :
    ∃ (ts : List (Turn χ σ)) (call' : HookCall) (s' : σ),
      ts.map (·.callback) = cs ∧ stage.Turns phase call s ts call' s' ∧
      stage.runAll phase cs call s = (Turn.lastOverride ts, call', s') ∧
      stage.recorded.runAll phase cs call (s, record) =
        (Turn.lastOverride ts, call', s', record ++ ts.map .ran) := by
  induction cs generalizing call s record with
  | nil => exact ⟨[], call, s, rfl, .done call s, rfl, by simp [runAll, Turn.lastOverride]⟩
  | cons c cs ih =>
    obtain ⟨⟨verdict, left, after⟩, hact⟩ : ∃ r, stage.act c call s = r := ⟨_, rfl⟩
    let t : Turn χ σ := ⟨c, call, s, verdict, left, after⟩
    have hrecord : stage.recorded.act c call (s, record) =
        (verdict, left, after, record ++ [.ran t]) := by
      simp only [recorded, hact, t]
    obtain ⟨ts, call', s', hcs, hts, hplain, hrecorded⟩ :=
      ih (t.handed phase) after (record ++ [.ran t])
    rw [List.append_assoc] at hrecorded
    refine ⟨t :: ts, call', s', by rw [List.map_cons, hcs], .turn hact hts, ?_, ?_⟩
    · rw [runAll, hact, Turn.lastOverride_cons]
      cases verdict with
      | proceed => exact hplain.trans (by rw [Verdict.override?, Option.or_none])
      | override v => exact congrArg (fun r => (r.1.or (some v), r.2)) hplain
    · rw [runAll, hrecord, Turn.lastOverride_cons]
      cases verdict with
      | proceed => exact hrecorded.trans (by rw [Verdict.override?, Option.or_none]; rfl)
      | override v => exact congrArg (fun r => (r.1.or (some v), r.2)) hrecorded

/-- What a phase does with a call: every callback that the hook has when the phase begins has one
    turn, in the order of registration. -/
structure PhaseRun (hook : HookId) (phase : Phase) (call : HookCall) (s : σ)
    (ts : List (Turn χ σ)) (call' : HookCall) (s' : σ) : Prop where
  callbacks : ts.map (·.callback) = (stage.table s).snapshot hook phase
  turns : stage.Turns phase call (stage.begun hook phase s) ts call' s'

theorem run_phaseRun (hook : HookId) (phase : Phase) (call : HookCall) (s : σ)
    (record : List (Deed χ σ)) :
    ∃ (ts : List (Turn χ σ)) (call' : HookCall) (s' : σ),
      stage.PhaseRun hook phase call s ts call' s' ∧
      stage.run hook phase call s = (Turn.lastOverride ts, call', s') ∧
      stage.recorded.run hook phase call (s, record) =
        (Turn.lastOverride ts, call', s', record ++ ts.map .ran) := by
  obtain ⟨ts, call', s', hcs, hts, hplain, hrecorded⟩ :=
    stage.runAll_turns phase ((stage.table s).snapshot hook phase) call
      (stage.begun hook phase s) record
  refine ⟨ts, call', s', ⟨hcs, hts⟩, ?_, ?_⟩
  · rw [← hplain, run, begun]
    cases (stage.table s).snapshot hook phase <;> rfl
  · have htable : stage.recorded.table (s, record) = stage.table s := rfl
    rw [← hrecorded, run, begun, htable]
    cases (stage.table s).snapshot hook phase <;> rfl

/-- Turns that neither override nor write the result hand on the one that they began with. -/
theorem Turns.result_eq {stage : Stage χ σ} {phase : Phase} {call call' : HookCall} {s s' : σ}
    {ts : List (Turn χ σ)} (h : stage.Turns phase call s ts call' s')
    (hts : ∀ t ∈ ts, t.verdict.override? = none ∧ t.KeepsResult) : call'.result = call.result := by
  induction h with
  | done call s => rfl
  | @turn t ts call s _ _ ih =>
    rw [List.forall_mem_cons] at hts
    obtain ⟨⟨hproceed, hkeeps⟩, hrest⟩ := hts
    rw [ih hrest, Turn.handed]
    cases hv : t.verdict with
    | proceed => exact hkeeps
    | override v => simp [hv, Verdict.override?] at hproceed

/-- What comes between the phases: the last override of the pre phase is the result, and without
    one the target runs once, on the arguments as the pre phase left them. -/
inductive Between (target : List Value → σ → (Value × β) × σ) (pre : List (Turn χ σ))
    (args : List Value) (s : σ) : Value → Option β → σ → List (Deed χ σ) → Prop
  | overridden {v : Value} (h : Turn.lastOverride pre = some v) :
      Between target pre args s v none s []
  | entered {v : Value} {b : β} {s' : σ} (h : Turn.lastOverride pre = none)
      (hrun : target args s = ((v, b), s')) :
      Between target pre args s v (some b) s' [.entered args s v s']

/-- The course of a hooked call, for callbacks that do anything to the call and to the state, their
    own registrations included. Each callback that the hook has when the pre phase begins has one
    turn, in order, on the call that the one before left. Unless one of them overrides, the target
    runs, once and on the arguments that they leave; else it does not run and their last override is
    the result. Then each callback that the hook has when the post phase begins has one turn, in
    order, the first on that result and every other on what the one before left or overrode. Nothing
    else runs, as the record of the call shows. The value of the call is the last override of the
    post phase, or without one the result that its last turn left, and so the result that the phase
    began with when no turn wrote another. -/
theorem dispatch_course (hook : HookId) (args : List Value)
    (target : List Value → σ → (Value × β) × σ) (s : σ) :
    ∃ (pre post : List (Turn χ σ)) (passed final : HookCall) (result : Value) (left : Option β)
      (runs : List (Deed χ σ)) (s₁ s₂ s₃ : σ),
      stage.PhaseRun hook .pre ⟨.pre, args, .none⟩ s pre passed s₁ ∧
      Between target pre passed.args s₁ result left s₂ runs ∧
      stage.PhaseRun hook .post ⟨.post, passed.args, result⟩ s₂ post final s₃ ∧
      stage.dispatch hook args target s =
        (⟨(Turn.lastOverride post).getD final.result, left⟩, s₃) ∧
      stage.recorded.dispatch hook args (recordedTarget target) (s, []) =
        (⟨(Turn.lastOverride post).getD final.result, left⟩, s₃,
          pre.map .ran ++ runs ++ post.map .ran) ∧
      ((∀ t ∈ post, t.verdict.override? = none ∧ t.KeepsResult) →
        (stage.dispatch hook args target s).1.value = result) ∧
      ∀ v, Turn.lastOverride post = some v → (stage.dispatch hook args target s).1.value = v := by
  obtain ⟨pre, passed, s₁, hpre, hplain, hrecorded⟩ :=
    stage.run_phaseRun hook .pre ⟨.pre, args, .none⟩ s []
  obtain ⟨result, left, s₂, runs, hbetween⟩ :
      ∃ result left s₂ runs, Between target pre passed.args s₁ result left s₂ runs := by
    cases h : Turn.lastOverride pre with
    | some v => exact ⟨v, none, s₁, [], .overridden h⟩
    | none => exact ⟨_, _, _, _, .entered h rfl⟩
  obtain ⟨post, final, s₃, hpost, hplain', hrecorded'⟩ :=
    stage.run_phaseRun hook .post ⟨.post, passed.args, result⟩ s₂ (pre.map .ran ++ runs)
  have hdispatch : stage.dispatch hook args target s =
      (⟨(Turn.lastOverride post).getD final.result, left⟩, s₃) := by
    rw [dispatch, hplain]
    cases hbetween with
    | overridden h => simp only [h, hplain']
    | entered h hrun => simp only [h, hrun, hplain']
  have hrecord : stage.recorded.dispatch hook args (recordedTarget target) (s, []) =
      (⟨(Turn.lastOverride post).getD final.result, left⟩, s₃,
        pre.map .ran ++ runs ++ post.map .ran) := by
    rw [dispatch, hrecorded]
    cases hbetween with
    | overridden h =>
      rw [List.append_nil] at hrecorded'
      simp only [h, List.nil_append, hrecorded', List.append_nil]
    | entered h hrun =>
      simp only [h, recordedTarget, hrun, List.nil_append, hrecorded']
  refine ⟨pre, post, passed, final, result, left, runs, s₁, s₂, s₃, hpre, hbetween, hpost,
    hdispatch, hrecord, fun hquiet => ?_, fun v hv => ?_⟩
  · have hnone : Turn.lastOverride post = none :=
      Turn.lastOverride_eq_none_iff.2 fun t ht => (hquiet t ht).1
    rw [hdispatch, hnone]
    exact hpost.turns.result_eq hquiet
  · rw [hdispatch, hv]
    rfl

end Stage

end NativeGate.Hook
