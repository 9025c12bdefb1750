import NativeGate.Proofs.Hook.Phases
import NativeGate.Proofs.Hook.Registry

/-!
The end of the post phase. An observer that is registered behind all other post callbacks sees the
result as the last of them left it. The value of the call is another one when a callback overrides
and one behind it writes the result in place: the write is what the observer sees, and the override
is what the caller gets (`last_observer_sees_last_write`). Without an override, and with none but
overrides, the two are the same.
-/

namespace NativeGate.Hook

variable {χ σ β : Type}

/-! ### Last overrides -/

namespace Turn

/-- Where there is an override, the last one is followed by turns that do not override. -/
theorem exists_of_lastOverride {ts : List (Turn χ σ)} {v : Value} (h : lastOverride ts = some v) :
    ∃ before t after, ts = before ++ t :: after ∧ t.verdict.override? = some v ∧
      ∀ u ∈ after, u.verdict.override? = none := by
  induction ts with
  | nil => cases h
  | cons t ts ih =>
    rw [lastOverride_cons] at h
    cases hts : lastOverride ts with
    | some v' =>
      rw [hts, Option.some_or] at h
      cases h
      obtain ⟨before, u, after, rfl, hu, hafter⟩ := ih hts
      exact ⟨t :: before, u, after, rfl, hu, hafter⟩
    | none =>
      rw [hts, Option.none_or] at h
      exact ⟨[], t, ts, rfl, h, lastOverride_eq_none_iff.1 hts⟩

theorem lastOverride_append (ts us : List (Turn χ σ)) :
    lastOverride (ts ++ us) = (lastOverride us).or (lastOverride ts) := by
  rw [lastOverride, List.reverse_append, List.findSome?_append]
  rfl

end Turn

namespace Stage
variable {stage : Stage χ σ} {phase : Phase} {call call' : HookCall} {s s' : σ}

/-! ### Turns -/

theorem Turns.eq_of_nil (h : stage.Turns phase call s [] call' s') : call' = call ∧ s' = s := by
  cases h
  exact ⟨rfl, rfl⟩

/-- Turns that follow one another: the later ones begin where the earlier ones end. -/
theorem Turns.split {ts us : List (Turn χ σ)} (h : stage.Turns phase call s (ts ++ us) call' s') :
    ∃ mid sm, stage.Turns phase call s ts mid sm ∧ stage.Turns phase mid sm us call' s' := by
  induction ts generalizing call s with
  | nil => exact ⟨call, s, .done call s, h⟩
  | cons t ts ih =>
    cases h with
    | turn acts rest =>
      obtain ⟨mid, sm, hts, hus⟩ := ih rest
      exact ⟨mid, sm, .turn acts hts, hus⟩

/-- What a run of callbacks comes to can be read off their turns. -/
theorem Turns.runAll_eq {ts : List (Turn χ σ)} (h : stage.Turns phase call s ts call' s') :
    stage.runAll phase (ts.map (·.callback)) call s = (Turn.lastOverride ts, call', s') := by
  induction h with
  | done call s => rfl
  | @turn t ts call s acts _ ih =>
    rw [List.map_cons, runAll, acts, Turn.lastOverride_cons]
    rw [Turn.handed] at ih
    cases hv : t.verdict with
    | proceed =>
      rw [hv] at ih
      exact ih.trans (by rw [Verdict.override?, Option.or_none])
    | override v =>
      rw [hv] at ih
      exact congrArg (fun r => (r.1.or (some v), r.2)) ih

/-- Behind the last override of a post phase, turns that keep the result end with this override. -/
theorem Turns.result_eq_override {before after : List (Turn χ σ)} {t : Turn χ σ} {v : Value}
    (h : stage.Turns .post call s (before ++ t :: after) call' s')
    (ht : t.verdict.override? = some v) (hafter : ∀ u ∈ after, u.verdict.override? = none)
    (hkeep : ∀ u ∈ after, u.KeepsResult) : call'.result = v := by
  obtain ⟨mid, sm, -, hlast⟩ := h.split
  cases hlast with
  | turn _ rest =>
    rw [rest.result_eq fun u hu => ⟨hafter u hu, hkeep u hu⟩, Turn.handed]
    cases hv : t.verdict with
    | proceed => rw [hv] at ht; cases ht
    | override v' => rw [hv] at ht; cases ht; rfl

/-! ### The observer -/

/-- A callback that only observes: whatever it does to the state, it proceeds and leaves the call as
    it found it. -/
def Watches (stage : Stage χ σ) (o : χ) : Prop :=
  ∀ call s, ∃ s', stage.act o call s = (.proceed, call, s')

/-- The stage with one more callback, behind all others of the post phase of a hook. -/
def withLast (stage : Stage χ σ) (hook : HookId) (o : χ) : Stage χ σ :=
  { stage with table := fun s => (stage.table s).push hook .post o }

@[simp] theorem withLast_act (hook : HookId) (o : χ) :
    (stage.withLast hook o).act = stage.act := rfl

theorem runAll_withLast (hook : HookId) (o : χ) (phase : Phase) (cs : List χ) (call : HookCall)
    (s : σ) : (stage.withLast hook o).runAll phase cs call s = stage.runAll phase cs call s := by
  induction cs generalizing call s with
  | nil => rfl
  | cons c cs ih => simp only [runAll, withLast_act, ih]

/-- A phase runs its callbacks from where it has begun. -/
theorem run_eq_runAll (hook : HookId) (phase : Phase) (call : HookCall) (s : σ) :
    stage.run hook phase call s =
      stage.runAll phase ((stage.table s).snapshot hook phase) call
        (stage.begun hook phase s) := by
  rw [run, begun]
  cases (stage.table s).snapshot hook phase <;> rfl

/-- The pre phase is the same with the observer as without. -/
theorem run_pre_withLast (hook : HookId) (o : χ) (call : HookCall) (s : σ) :
    (stage.withLast hook o).run hook .pre call s = stage.run hook .pre call s := by
  have hsnapshot : ((stage.withLast hook o).table s).snapshot hook .pre =
      (stage.table s).snapshot hook .pre := by
    rw [withLast, Table.snapshot_push, if_neg fun h => nomatch h.2]
  rw [run_eq_runAll, run_eq_runAll, begun, begun, hsnapshot, runAll_withLast]
  rfl

/-- A dispatch is its pre phase, what comes between the phases, and then its post phase. -/
theorem exists_phases (stage : Stage χ σ) (hook : HookId) (args : List Value)
    (target : List Value → σ → (Value × β) × σ) (s : σ) :
    ∃ pre passed s₁ result left s₂ runs post final s₃,
      stage.PhaseRun hook .pre ⟨.pre, args, .none⟩ s pre passed s₁ ∧
      Between target pre passed.args s₁ result left s₂ runs ∧
      stage.PhaseRun hook .post ⟨.post, passed.args, result⟩ s₂ post final s₃ ∧
      stage.dispatch hook args target s =
        (⟨(Turn.lastOverride post).getD final.result, left⟩, s₃) := by
  obtain ⟨pre, passed, s₁, hpre, hrun, -⟩ := stage.run_phaseRun hook .pre ⟨.pre, args, .none⟩ s []
  cases h : Turn.lastOverride pre with
  | some v =>
    obtain ⟨post, final, s₃, hpost, hrun', -⟩ :=
      stage.run_phaseRun hook .post ⟨.post, passed.args, v⟩ s₁ []
    refine ⟨pre, passed, s₁, v, none, s₁, [], post, final, s₃, hpre, .overridden h, hpost, ?_⟩
    simp only [dispatch, hrun, h, hrun']
  | none =>
    obtain ⟨⟨⟨v, b⟩, s₂⟩, hentered⟩ : ∃ r, target passed.args s₁ = r := ⟨_, rfl⟩
    obtain ⟨post, final, s₃, hpost, hrun', -⟩ :=
      stage.run_phaseRun hook .post ⟨.post, passed.args, v⟩ s₂ []
    refine ⟨pre, passed, s₁, v, some b, s₂, _, post, final, s₃, hpre, .entered h hentered, hpost,
      ?_⟩
    simp only [dispatch, hrun, h, hentered, hrun']

/-- In a post phase with an observer in the last place, the observer has the last turn, on the call
    that the phase ends with; the turns before it override as the whole phase does. -/
theorem PhaseRun.last_turn {hook : HookId} {o : χ} (ho : stage.Watches o) {ts : List (Turn χ σ)}
    (h : (stage.withLast hook o).PhaseRun hook .post call s ts call' s') :
    ∃ post t, ts = post ++ [t] ∧ t.callback = o ∧ t.seen = call' ∧
      post.map (·.callback) = (stage.table s).snapshot hook .post ∧
      (stage.withLast hook o).Turns .post call ((stage.withLast hook o).begun hook .post s) post
        t.seen t.before ∧
      Turn.lastOverride ts = Turn.lastOverride post := by
  have hcallbacks : ts.map (·.callback) = (stage.table s).snapshot hook .post ++ [o] := by
    rw [h.callbacks, withLast, Table.snapshot_push, if_pos ⟨rfl, rfl⟩]
  obtain ⟨post, last, rfl, hpost, hlast⟩ := List.map_eq_append_iff.1 hcallbacks
  obtain ⟨t, rfl, ht⟩ := List.map_eq_singleton_iff.1 hlast
  obtain ⟨mid, sm, hturns, hobserved⟩ := h.turns.split
  cases hobserved with
  | turn acts rest =>
    obtain ⟨hseen, -⟩ := rest.eq_of_nil
    obtain ⟨after, hwatch⟩ := ho t.seen t.before
    rw [ht] at acts
    have hact : (t.verdict, t.left, t.after) = (.proceed, t.seen, after) := acts.symm.trans hwatch
    rw [Prod.mk.injEq, Prod.mk.injEq] at hact
    obtain ⟨hverdict, hleft, -⟩ := hact
    rw [Turn.handed, hverdict] at hseen
    refine ⟨post, t, rfl, ht, (hseen.trans hleft).symm, hpost, hturns, ?_⟩
    rw [Turn.lastOverride_append, Turn.lastOverride_cons, hverdict]
    rfl

/-- Callbacks that cannot tell how many of them run: they do the same in states that are alike, and
    states that differ in this number are alike. -/
structure Uncounted (stage : Stage χ σ) (alike : σ → σ → Prop) : Prop where
  equivalence : Equivalence alike
  noted : ∀ hook phase n s, alike s (stage.note (.callbacksRunning hook phase n) s)
  act : ∀ c call s s', alike s s' → ∃ verdict left after after',
    stage.act c call s = (verdict, left, after) ∧ stage.act c call s' = (verdict, left, after') ∧
      alike after after'

section Uncounted
variable {alike : σ → σ → Prop}

theorem Uncounted.begun (h : stage.Uncounted alike) (hook : HookId) (phase : Phase) (s : σ) :
    alike s (stage.begun hook phase s) := by
  unfold Stage.begun
  split
  · exact h.equivalence.refl s
  · exact h.noted ..

theorem Uncounted.runAll (h : stage.Uncounted alike) (phase : Phase) (cs : List χ)
    (call : HookCall) {s s' : σ} (hs : alike s s') :
    (stage.runAll phase cs call s).1 = (stage.runAll phase cs call s').1 ∧
      (stage.runAll phase cs call s).2.1 = (stage.runAll phase cs call s').2.1 := by
  induction cs generalizing call s s' with
  | nil => exact ⟨rfl, rfl⟩
  | cons c cs ih =>
    obtain ⟨verdict, left, after, after', hact, hact', hafter⟩ := h.act c call s s' hs
    rw [Stage.runAll, Stage.runAll, hact, hact']
    cases verdict with
    | proceed => exact ih left hafter
    | override v =>
      obtain ⟨hoverride, hcall⟩ := ih (if phase = .post then { left with result := v } else left)
        hafter
      exact ⟨congrArg (·.or (some v)) hoverride, hcall⟩

theorem Uncounted.withLast (h : stage.Uncounted alike) (hook : HookId) (o : χ) :
    (stage.withLast hook o).Uncounted alike :=
  ⟨h.equivalence, h.noted, h.act⟩

/-- An observer behind them changes nothing of what callbacks come to that cannot count. -/
theorem Uncounted.run_post (h : stage.Uncounted alike) {hook : HookId} {o : χ}
    (ho : stage.Watches o) (call : HookCall) (s : σ) :
    ((stage.withLast hook o).run hook .post call s).1 = (stage.run hook .post call s).1 ∧
      ((stage.withLast hook o).run hook .post call s).2.1 =
        (stage.run hook .post call s).2.1 := by
  obtain ⟨ts, call', s', hpost, hrun, -⟩ :=
    (stage.withLast hook o).run_phaseRun hook .post call s []
  obtain ⟨post, t, rfl, -, hseen, hcallbacks, hturns, hoverride⟩ := hpost.last_turn ho
  have hloop := hturns.runAll_eq
  rw [hcallbacks, runAll_withLast] at hloop
  have hbegun : alike (stage.begun hook .post s) ((stage.withLast hook o).begun hook .post s) :=
    h.equivalence.trans (h.equivalence.symm (h.begun ..)) ((h.withLast hook o).begun ..)
  obtain ⟨hfirst, hcall⟩ := h.runAll .post ((stage.table s).snapshot hook .post) call hbegun
  rw [hloop] at hfirst hcall
  rw [hrun, run_eq_runAll, hfirst, hcall, hoverride, hseen]
  exact ⟨rfl, rfl⟩

theorem Uncounted.dispatch (h : stage.Uncounted alike) {hook : HookId} {o : χ}
    (ho : stage.Watches o) (args : List Value) (target : List Value → σ → (Value × β) × σ) (s : σ) :
    ((stage.withLast hook o).dispatch hook args target s).1 =
      (stage.dispatch hook args target s).1 := by
  obtain ⟨⟨overridden, call, s₁⟩, hpre⟩ :
    ∃ r, stage.run hook .pre ⟨.pre, args, .none⟩ s = r := ⟨_, rfl⟩
  simp only [Stage.dispatch, run_pre_withLast, hpre]
  cases overridden <;> simp only [(h.run_post ho _ _).1, (h.run_post ho _ _).2]

end Uncounted

/-- What an observer in the last place sees, and what the caller gets. The observer has the last
    turn of the post phase, `t`, and sees the result that the callbacks before it come to when they
    run without it. The value of the call is the last override among them, and what the observer saw
    only if there is none. So the two are the same unless a callback behind the last override wrote
    the result in place: then the caller gets the override, and the observer saw what was written
    after it. Callbacks that cannot count themselves give the caller the same without it. -/
theorem last_observer_sees_last_write (stage : Stage χ σ) (hook : HookId) (o : χ)
    (ho : stage.Watches o) (args : List Value) (target : List Value → σ → (Value × β) × σ) (s : σ) :
    let watched := stage.withLast hook o
    let value := (watched.dispatch hook args target s).1.value
    ∃ pre post passed result left runs s₁ s₂ s₃ t,
      watched.PhaseRun hook .pre ⟨.pre, args, .none⟩ s pre passed s₁ ∧
      Between target pre passed.args s₁ result left s₂ runs ∧
      watched.PhaseRun hook .post ⟨.post, passed.args, result⟩ s₂ (post ++ [t]) t.seen s₃ ∧
      t.callback = o ∧
      stage.runAll .post ((stage.table s₂).snapshot hook .post) ⟨.post, passed.args, result⟩
        (watched.begun hook .post s₂) = (Turn.lastOverride post, t.seen, t.before) ∧
      watched.dispatch hook args target s =
        (⟨(Turn.lastOverride post).getD t.seen.result, left⟩, s₃) ∧
      (value ≠ t.seen.result → ∃ before u after, post = before ++ u :: after ∧
        u.verdict.override? = some value ∧ (∀ x ∈ after, x.verdict.override? = none) ∧
        ∃ x ∈ after, ¬ x.KeepsResult) ∧
      ∀ alike, stage.Uncounted alike → (stage.dispatch hook args target s).1.value = value := by
  intro watched value
  obtain ⟨pre, passed, s₁, result, left, s₂, runs, ts, final, s₃, hpre, hbetween, hpost, hrun⟩ :=
    watched.exists_phases hook args target s
  obtain ⟨post, t, rfl, ht, rfl, hcallbacks, hturns, hoverride⟩ := hpost.last_turn ho
  rw [hoverride] at hrun
  have hloop := hturns.runAll_eq
  rw [hcallbacks, runAll_withLast] at hloop
  have hvalue : value = (Turn.lastOverride post).getD t.seen.result :=
    congrArg (fun r => r.1.value) hrun
  refine ⟨pre, post, passed, result, left, runs, s₁, s₂, s₃, t, hpre, hbetween, hpost, ht, hloop,
    hrun, fun hdiffers => ?_, fun alike h => ?_⟩
  · cases h : Turn.lastOverride post with
    | none =>
      rw [h] at hvalue
      exact absurd hvalue hdiffers
    | some v =>
      rw [h, Option.getD_some] at hvalue
      obtain ⟨before, u, after, rfl, hu, hafter⟩ := Turn.exists_of_lastOverride h
      refine ⟨before, u, after, rfl, hvalue ▸ hu, hafter, ?_⟩
      -- had all turns behind the override kept the result, the observer would have seen it
      by_contra hnone
      have hkeep : ∀ x ∈ after, x.KeepsResult := fun x hx => by_contra fun h => hnone ⟨x, hx, h⟩
      exact hdiffers (hvalue.trans (hturns.result_eq_override hu hafter hkeep).symm)
  · exact congrArg Outcome.value (h.dispatch ho args target s).symm

end Stage

/-! ### Callbacks by script -/

/-- A post callback that writes a result in place, or none, and then gives its verdict. -/
structure Scripted where
  write : Option Value
  verdict : Verdict

/-- A stage with such callbacks, each of which notes the result that it sees. -/
def scripted (callbacks : List Scripted) : Stage Scripted (List Value) where
  table _ := ⟨callbacks.map fun c => ⟨⟨1⟩, .post, c⟩⟩
  note _ seen := seen
  act c call seen :=
    (c.verdict, { call with result := c.write.getD call.result }, seen ++ [call.result])

/-- Code that gives one. -/
def giveOne (_ : List Value) (seen : List Value) : (Value × Unit) × List Value :=
  ((.ofInt .int 1, ()), seen)

theorem watches_scripted (callbacks : List Scripted) :
    (scripted callbacks).Watches ⟨none, .proceed⟩ := fun call seen => ⟨seen ++ [call.result], rfl⟩

/-- Where one callback writes a result and nobody overrides, the observer sees what the caller
    gets. -/
theorem written_result_observed :
    (scripted [⟨some (.ofInt .int 7), .proceed⟩]).Watches ⟨none, .proceed⟩ ∧
    ∃ t : Turn Scripted (List Value), t.callback = ⟨none, .proceed⟩ ∧
      t.seen.result = .ofInt .int 7 ∧
      (((scripted [⟨some (.ofInt .int 7), .proceed⟩]).withLast ⟨1⟩ ⟨none, .proceed⟩).dispatch
        ⟨1⟩ [] giveOne []).1.value = t.seen.result := by
  have ho := watches_scripted [⟨some (.ofInt .int 7), .proceed⟩]
  obtain ⟨_, post, passed, result, _, _, _, s₂, _, t, -, -, -, ht, hloop, hrun, -, -⟩ :=
    (scripted [⟨some (.ofInt .int 7), .proceed⟩]).last_observer_sees_last_write ⟨1⟩
      ⟨none, .proceed⟩ ho [] giveOne []
  have hoverride : none = Turn.lastOverride post := congrArg Prod.fst hloop
  have hseen : .ofInt .int 7 = t.seen.result := congrArg (·.2.1.result) hloop
  refine ⟨ho, t, ht, hseen.symm, ?_⟩
  rw [hrun, ← hoverride]
  rfl

/-- Where one callback overrides with five and the next writes seven in place, the caller gets five,
    while an observer behind them sees seven. -/
theorem write_behind_override_lost :
    let stage := scripted [⟨none, .override (.ofInt .int 5)⟩, ⟨some (.ofInt .int 7), .proceed⟩]
    let observer : Scripted := ⟨none, .proceed⟩
    stage.Watches observer ∧
    (stage.dispatch ⟨1⟩ [] giveOne []).1.value = .ofInt .int 5 ∧
    ((stage.withLast ⟨1⟩ observer).dispatch ⟨1⟩ [] giveOne []).2 =
      [.ofInt .int 1, .ofInt .int 5, .ofInt .int 7] ∧
    (stage.dispatch ⟨1⟩ [] giveOne []).1.value ≠ .ofInt .int 7 := by
  refine ⟨watches_scripted _, rfl, rfl, fun h => ?_⟩
  cases h

end NativeGate.Hook
