import NativeGate.Proofs.Hook.Happenings

/-!
The counters tell what happened. What is entered in the ledger while something runs adds up to what
happens in it (`Ledger.Grown`): a machine that tells of its steps makes a dispatch tell of itself, a
stage and code that tell make a redirected call tell, and so the code of a script tells, by
induction on the depth of calls, and every routine that it runs. Counters are words and go round, so
the sums are compared in words (`counters_tell`).
-/

namespace NativeGate

/-- What a happening adds to a count. -/
def Happening.adds : Happening → Count → Nat
  | .invoked, .made => 1
  | .refused _, .failed => 1
  | .refused e, .failedAs name => if name = e.name then 1 else 0
  | .installed, .installed => 1
  | .ran, .ran => 1
  | _, _ => 0

/-- What happenings add to a count. -/
def happened (hs : List Happening) (k : Count) : Nat := (hs.map (·.adds k)).sum

theorem happened_append (hs hs' : List Happening) (k : Count) :
    happened (hs ++ hs') k = happened hs k + happened hs' k := by
  rw [happened, List.map_append, List.sum_append]
  rfl

/-! ### Ledgers that grow -/

namespace Ledger

/-- The second ledger is the first with more events. With those that are told at another time they
    add up to what happened. -/
def Grown (apart : List Event) (hs : List Happening) (l l' : Ledger) : Prop :=
  ∃ es, l' = l.add es ∧ ∀ k, added es k + added apart k = happened hs k

namespace Grown
variable {apart apart' : List Event} {hs hs' : List Happening} {l l' l'' : Ledger} {e : Event}

theorem refl (l : Ledger) : Grown [] [] l l := ⟨[], rfl, fun _ => rfl⟩

theorem trans (h : Grown [] hs l l') (h' : Grown apart hs' l' l'') :
    Grown apart (hs ++ hs') l l'' := by
  obtain ⟨es, rfl, hes⟩ := h
  obtain ⟨es', rfl, hes'⟩ := h'
  refine ⟨es' ++ es, (l.add_append es es').symm, fun k => ?_⟩
  have hk : added es k = happened hs k := hes k
  rw [added_append, happened_append, ← hk, ← hes' k]
  omega

theorem after_quiet (h : Grown [] hs l l') (h' : Grown [] [] l' l'') : Grown [] hs l l'' := by
  have hall := h.trans h'
  rwa [List.append_nil] at hall

/-- Something else happens, for which there is more to be told at another time. -/
theorem happen (h : Grown apart hs l l') {x : Happening}
    (hx : ∀ k, added apart' k = added apart k + x.adds k) : Grown apart' (x :: hs) l l' := by
  obtain ⟨es, rfl, hes⟩ := h
  refine ⟨es, rfl, fun k => ?_⟩
  have hcons : happened (x :: hs) k = x.adds k + happened hs k := List.sum_cons
  rw [hx, hcons, ← hes]
  omega

/-- The event that was missing is told behind the others. -/
theorem tell (h : Grown (e :: apart) hs l l') : Grown apart hs l (l'.note e) := by
  obtain ⟨es, rfl, hes⟩ := h
  refine ⟨e :: es, rfl, fun k => ?_⟩
  rw [← hes, added_cons, added_cons]
  omega

/-- The event that was missing was told before the others. -/
theorem told (h : Grown (e :: apart) hs (l.note e) l') : Grown apart hs l l' := by
  obtain ⟨es, rfl, hes⟩ := h
  refine ⟨es ++ [e], (l.add_append [e] es).symm, fun k => ?_⟩
  rw [← hes, added_append, added_cons, added_cons]
  exact Nat.add_assoc ..

/-- An event that adds nothing may be told in front or behind. -/
theorem apart_quiet (h : Grown apart hs l l') (he : ∀ k, e.adds k = 0) :
    Grown (e :: apart) hs l l' := by
  obtain ⟨es, rfl, hes⟩ := h
  exact ⟨es, rfl, fun k => by rw [← hes, added_cons, he, Nat.zero_add]⟩

theorem note_quiet (h : Grown apart hs l l') (he : ∀ k, e.adds k = 0) :
    Grown apart hs l (l'.note e) := (h.apart_quiet he).tell

/-- What grows from nothing grows behind a ledger as well. -/
theorem appended (h : Grown apart hs .empty l') : Grown apart hs l (l.append l') := by
  obtain ⟨es, rfl, hes⟩ := h
  refine ⟨es, ?_, hes⟩
  rw [append, events_add]
  exact congrArg l.add (List.append_nil es)

end Grown

end Ledger

/-! ### Dispatches -/

section
variable {μ ρ : Type}

/-- What a step leaves to be told when the call is over. -/
def Step.owed : Step → List Event
  | .invoke _ _ => [.called]
  | .reset | .setMode _ | .push _ => []

/-- The steps of a call have one call to be told of. -/
theorem Function.owed_protocol (f : Function) (ws : List Value) :
    (f.protocol ws).flatMap Step.owed = [.called] := by
  have hpushes : (ws.map Step.push).flatMap Step.owed = [] := by
    simp [Step.owed]
  simp [Function.protocol, List.flatMap_append, hpushes, Step.owed]

namespace CallMachine
variable {m : CallMachine μ ρ} {inside : Step → μ × World ρ → List Happening}

/-- Inside of each step of a machine happens what the ledger is told. -/
def Tells (m : CallMachine μ ρ) (inside : Step → μ × World ρ → List Happening) : Prop :=
  ∀ t s, Ledger.Grown [] (inside t s) s.2.ledger (m.take s t).2.2.ledger

/-- Steps tell everything but the calls that they were taken for. -/
theorem Tells.follow (h : m.Tells inside) (steps : List Step) (v : Value) (s : μ × World ρ) :
    Ledger.Grown (steps.flatMap Step.owed) (m.happenings inside steps s) s.2.ledger
      (steps.foldl (fun t step => m.take t.2 step) (v, s)).2.2.ledger := by
  induction steps generalizing v s with
  | nil => exact .refl _
  | cons t steps ih =>
    have hrest := (h t s).trans (ih (m.take s t).1 (m.take s t).2)
    cases t with
    | invoke a k =>
      exact hrest.happen fun k => by
        rw [List.flatMap_cons, added_append, Nat.add_comm]
        cases k <;> rfl
    | _ => exact hrest

/-- A dispatch tells what happens in it, whether it is refused or carried out. -/
theorem Tells.callRaw (h : m.Tells inside) (f : Function) (args : List Value) (s : μ × World ρ) :
    Ledger.Grown [] (f.happenings m inside args s) s.2.ledger
      (f.callRaw m args s).2.2.ledger := by
  cases hp : f.prepare args with
  | error e =>
    simp only [Function.happenings, Function.callRaw, hp]
    refine Ledger.Grown.tell ((Ledger.Grown.refl _).happen fun k => ?_)
    rw [added_cons, Nat.add_comm]
    cases k <;> rfl
  | ok ws =>
    simp only [Function.happenings, Function.callRaw, hp, Function.execute_eq_follow]
    have hsteps := h.follow (f.protocol ws) .none (noted (.calling f.convention f.signature) s)
    rw [Function.owed_protocol] at hsteps
    exact (hsteps.tell.apart_quiet fun k => by cases k <;> rfl).told

end CallMachine

/-- What code does at an address happens inside, and the ledger is told. -/
def Code.Tells (code : Code ρ) (inside : Address → List UInt64 → World ρ → List Happening) :
    Prop :=
  ∀ a words w, Ledger.Grown [] (inside a words w) w.ledger (code a words w).2.ledger

theorem Gate.ledger_ready (i : Interface) (g : Gate) (w : World ρ) :
    Ledger.Grown [] [] w.ledger (ready i (g, w)).2.ledger := by
  unfold ready
  dsimp only
  split
  · exact .refl _
  · exact (Ledger.Grown.refl _).note_quiet fun k => by cases k <;> rfl

/-- A gate tells what its code tells. -/
theorem Gate.tells_machine {code : Code ρ}
    {inside : Address → List UInt64 → World ρ → List Happening} (h : Code.Tells code inside) :
    (Gate.machine code).Tells (Gate.inside inside) := by
  intro t s
  obtain ⟨g, w⟩ := s
  cases t with
  | reset => exact .refl _
  | push v => exact .refl _
  | setMode c =>
    simp only [CallMachine.take, machine, machineThrough]
    split
    · exact .refl _
    · exact (Ledger.Grown.refl _).note_quiet fun k => by cases k <;> rfl
  | invoke a k =>
    let crossed := Value.toWords g.args w
    let ready := Gate.ready (g.interface k) (g, crossed.2)
    have hready : Ledger.Grown [] [] w.ledger ready.2.ledger := by
      rw [← Value.toWords_ledger g.args w]
      exact ledger_ready ..
    have hentered : ready.2.unledgered = crossed.2.unledgered :=
      World.unledgered_congr (ready_memory ..) (ready_native ..)
    have hcode := h a crossed.1 crossed.2.unledgered
    change Ledger.Grown [] (inside a crossed.1 crossed.2.unledgered) w.ledger
      (ready.2.ledger.append (code a crossed.1 ready.2.unledgered).2.ledger)
    rw [hentered]
    exact hready.trans hcode.appended

end

namespace Hook
open Layout

/-! ### Hooked calls -/

section
variable {χ ρ : Type} {stage : Stage χ (World ρ)} {acting : χ → HookCall → World ρ → List Happening}
  {code : Code ρ} {inside : Address → List UInt64 → World ρ → List Happening}

/-- Callbacks tell what they do, and the bridge has a ledger to tell what it does. -/
structure Stage.Tells (stage : Stage χ (World ρ))
    (acting : χ → HookCall → World ρ → List Happening) : Prop where
  note : ∀ e w, (stage.note e w).ledger = w.ledger.note e
  act : ∀ c call w, Ledger.Grown [] (acting c call w) w.ledger (stage.act c call w).2.2.ledger

/-- Callbacks that run one after the other leave to be told how many they are. -/
theorem Stage.Tells.runAll (h : stage.Tells acting) (hook : HookId) (phase : Phase) (cs : List χ)
    (call : HookCall) (w : World ρ) :
    Ledger.Grown [.callbacksRunning hook phase cs.length]
      (stage.happeningsOf acting phase cs call w) w.ledger
      (stage.runAll phase cs call w).2.2.ledger := by
  induction cs generalizing call w with
  | nil => exact (Ledger.Grown.refl _).apart_quiet fun k => by cases k <;> rfl
  | cons c cs ih =>
    have hact := h.act c call w
    have hmore : ∀ k, added [.callbacksRunning hook phase (c :: cs).length] k =
        added [.callbacksRunning hook phase cs.length] k + Happening.ran.adds k := by
      intro k
      cases k <;> rfl
    simp only [Stage.runAll, happeningsOf]
    cases hv : stage.act c call w with
    | mk verdict left =>
      rw [hv] at hact
      cases verdict with
      | proceed => exact (hact.trans (ih _ _)).happen hmore
      | override v => exact (hact.trans (ih _ _)).happen hmore

theorem Stage.Tells.run (h : stage.Tells acting) (hook : HookId) (phase : Phase) (call : HookCall)
    (w : World ρ) :
    Ledger.Grown [] (stage.happeningsIn acting hook phase call w) w.ledger
      (stage.run hook phase call w).2.2.ledger := by
  rw [Stage.run, happeningsIn]
  cases hcs : (stage.table w).snapshot hook phase with
  | nil => exact .refl _
  | cons c cs =>
    have hrun := h.runAll hook phase (c :: cs) call
      (stage.note (.callbacksRunning hook phase (c :: cs).length) w)
    rw [h.note] at hrun
    exact hrun.told

/-- A hooked call tells what its callbacks and its target tell. -/
theorem Stage.Tells.dispatch {β : Type} (h : stage.Tells acting) (hook : HookId)
    (args : List Value) {target : List Value → World ρ → (Value × β) × World ρ}
    {insideTarget : List Value → World ρ → List Happening}
    (htarget : ∀ args w,
      Ledger.Grown [] (insideTarget args w) w.ledger (target args w).2.ledger) (w : World ρ) :
    Ledger.Grown [] (stage.happenings acting hook args target insideTarget w) w.ledger
      (stage.dispatch hook args target w).2.ledger := by
  have hpre := h.run hook .pre ⟨.pre, args, .none⟩ w
  unfold Stage.dispatch happenings
  dsimp only
  cases hr : stage.run hook .pre ⟨.pre, args, .none⟩ w with
  | mk overridden left =>
    obtain ⟨call, left⟩ := left
    rw [hr] at hpre
    cases overridden with
    | some v => exact hpre.trans (h.run hook .post ⟨.post, call.args, v⟩ left)
    | none =>
      exact hpre.trans ((htarget call.args left).trans (h.run hook .post ⟨.post, call.args, _⟩ _))

/-- A call of the moved code is a dispatch. -/
theorem tells_callMoved (h : Code.Tells code inside) (hook : HookId) (f : Function)
    (args : List Value) (w : World ρ) :
    Ledger.Grown [] (f.happenings (Gate.machine code) (Gate.inside inside) args (.fresh, w))
      w.ledger (callMoved code hook f args w).2.ledger := by
  have hcall := (Gate.tells_machine h).callRaw f args (.fresh, w)
  unfold callMoved
  cases hr : f.callRaw (Gate.machine code) args (.fresh, w) with
  | mk result left =>
    rw [hr] at hcall
    cases result with
    | ok v => exact hcall
    | error e => exact hcall.note_quiet fun k => by cases k <;> rfl

theorem tells_encodeResult (hook : HookId) (k : Kind) (v : Value) (w : World ρ) :
    Ledger.Grown [] [] w.ledger (encodeResult hook k v w).2.ledger := by
  have hvalue : Ledger.Grown [] [] w.ledger (resultValue hook k v w).2.ledger := by
    unfold resultValue
    split
    · exact .refl _
    · exact .refl _
    · split
      · exact .refl _
      · exact (Ledger.Grown.refl _).note_quiet fun k => by cases k <;> rfl
  exact hvalue

/-- A redirected call tells what happens in it. -/
theorem tells_answer (hstage : stage.Tells acting) (hcode : Code.Tells code inside) (hook : HookId)
    (f : Function) (words : List UInt64) (w : World ρ) :
    Ledger.Grown [] (answerHappenings stage acting code inside hook f words w) w.ledger
      (answer stage code hook f words w).2.ledger := by
  let raw := rawArguments f.signature words
  let shown := shownArguments w.memory f.signature raw
  have hmoved : ∀ args w, Ledger.Grown []
      (f.happenings (Gate.machine code) (Gate.inside inside) (passed args shown raw) (.fresh, w))
      w.ledger (runMoved code hook f shown raw args w).2.ledger :=
    fun args w => tells_callMoved hcode hook f (passed args shown raw) w
  exact (hstage.dispatch hook shown hmoved w).after_quiet (tells_encodeResult ..)

end

/-! ### Routines -/

namespace Callee
variable {χ ε μ ρ : Type} {m : CallMachine μ ρ} {inside : Step → μ × World ρ → List Happening}

/-- A call leaves what the dispatch leaves that it comes to, and nothing where it comes to none. -/
theorem call_left (E : Engine ε) (r : Registry χ ε) (m : CallMachine μ ρ) (c : Callee)
    (args : List Value) (s : μ × World ρ) :
    (c.call E r m args s).2 =
      (c.target? E r args).elim s fun (f, args) => (f.callRaw m args s).2 := by
  cases c with
  | function f => rfl
  | method b t => rfl
  | unhooked f =>
    simp only [call, target?, callUnhooked]
    cases r.unhooked? E f <;> rfl
  | unhookedMethod b t =>
    simp only [call, target?, BoundMethod.callUnhooked, callUnhooked]
    cases r.unhooked? E b.function <;> rfl

theorem tells_call (h : m.Tells inside) (E : Engine ε) (r : Registry χ ε) (c : Callee)
    (args : List Value) (s : μ × World ρ) :
    Ledger.Grown [] (c.happenings E r m inside args s) s.2.ledger
      (c.call E r m args s).2.2.ledger := by
  rw [call_left, happenings]
  cases c.target? E r args with
  | none => exact .refl _
  | some target => exact h.callRaw target.1 target.2 s

/-- The shared gate tells what a gate tells, and nothing while it is in use. -/
theorem tells_callShared {χ υ : Type} {code : HostCode χ υ}
    {inside : Address → List UInt64 → HostWorld χ υ → List Happening}
    (hcode : Code.Tells code inside) (E : Engine ε) (r : Registry χ ε) (c : Callee)
    (args : List Value) (w : HostWorld χ υ) :
    Ledger.Grown []
      (if w.native.borrowed then []
        else c.happenings E r (Gate.machine code) (Gate.inside inside) args
          (w.native.gate, borrowed w))
      w.ledger (c.callShared E r code args w).2.ledger := by
  rw [callShared, World.withShared]
  split
  · exact .refl _
  · exact tells_call (Gate.tells_machine hcode) E r c args (w.native.gate, borrowed w)

end Callee

variable {χ υ : Type}

/-- Events that add nothing are told of a registration. -/
theorem tells_told (w : HostWorld χ υ) (r : Registry χ Detours) {events : List Event}
    (h : ∀ e ∈ events, ∀ k, e.adds k = 0) :
    Ledger.Grown [] [] w.ledger (Environment.told w r events).ledger := by
  have hfold : ∀ w' : HostWorld χ υ, Ledger.Grown [] [] w.ledger w'.ledger →
      Ledger.Grown [] [] w.ledger (events.foldl World.note w').ledger := by
    induction events with
    | nil => exact fun _ => id
    | cons e events ih =>
      exact fun w' hw => ih (fun e he => h e (List.mem_cons_of_mem _ he)) (w'.note e)
        (hw.note_quiet (h e List.mem_cons_self))
  exact hfold _ (.refl _)

theorem tells_add (site : Site) (f : Function) (phase : Phase) (callback : χ)
    (w : HostWorld χ υ) :
    Ledger.Grown [] (addHappenings (Detours.engine site) f (Environment.registry w)) w.ledger
      ((Environment.bare site).addCallback f phase callback w).2.ledger := by
  have hadded : ∀ id k, (Event.callbackAdded id phase).adds k = 0 := fun _ k => by cases k <;> rfl
  have hinstalled : ∀ id, Ledger.Grown [] [.installed] w.ledger
      (w.ledger.note (.hookInstalled id)) := fun id =>
    ((Ledger.Grown.refl _).happen fun k => by cases k <;> rfl).tell
  unfold Environment.addCallback Registry.addCallback addHappenings Environment.engine
  dsimp only [Environment.bare]
  by_cases hnull : f.address = .null
  · rw [if_pos (Address.isNull_iff.2 hnull), if_pos hnull]
    exact .refl _
  · rw [if_neg (mt Address.isNull_iff.1 hnull), if_neg hnull, Registry.secure]
    cases (Environment.registry w).find (Detours.engine site) f with
    | some record => exact (Ledger.Grown.refl w.ledger).note_quiet (hadded record.id)
    | none =>
      generalize (Detours.engine site).install f ⟨(Environment.registry w).nextId⟩
        (Environment.registry w).engine = result
      obtain ⟨result, engine⟩ := result
      cases result with
      | ok record => exact (hinstalled record.id).note_quiet (hadded record.id)
      | error e => exact .refl _

theorem tells_uninstall (site : Site) (f : Function) (w : HostWorld χ υ) :
    Ledger.Grown [] [] w.ledger ((Environment.bare site).uninstall f w).2.ledger := by
  refine tells_told w _ fun e he k => ?_
  split at he
  · cases he
  · rw [List.mem_singleton.1 he]
    cases k <;> rfl

variable [DecidableEq χ]

theorem tells_remove (site : Site) (f : Function) (phase : Phase) (callback : χ)
    (w : HostWorld χ υ) :
    Ledger.Grown [] [] w.ledger
      ((Environment.bare site).removeCallback f phase callback w).ledger := by
  refine tells_told w _ fun e he k => ?_
  split at he
  · cases he
  · dsimp only at he
    split at he
    · rw [List.mem_singleton.1 he]
      cases k <;> rfl
    · cases he

/-- A routine tells what happens in it, where native code does. -/
theorem Routine.tells_run (site : Site) {code : HostCode χ υ}
    {inside : Address → List UInt64 → HostWorld χ υ → List Happening}
    (hcode : Code.Tells code inside)
    {α : Type} (p : Routine χ υ α) (w : HostWorld χ υ) :
    Ledger.Grown [] (p.happenings site code inside w) w.ledger (p.run site code w).2.ledger := by
  induction p generalizing w with
  | finish a => exact .refl _
  | work change next ih => exact ih _ _
  | enter a words next ih => exact (hcode a words w).trans (ih _ _)
  | call g c args next ih =>
    exact (Callee.tells_call (Gate.tells_machine hcode) _ _ c args (g, w)).trans (ih _ _ _)
  | callShared c args next ih =>
    exact (Callee.tells_callShared hcode _ _ c args w).trans (ih _ _)
  | callOn take s c args next ihtake ih =>
    have htake : (machine fun t s w => (take t s).run site code w).Tells fun t s =>
        (take t s.1).happenings site code inside s.2 := by
      intro t s
      have hstep := ihtake t s.1 s.2
      cases t <;> exact hstep
    exact (Callee.tells_call htake _ _ c args (s, w)).trans (ih _ _ _)
  | add f phase callback next ih => exact (tells_add site f phase callback w).trans (ih _ _)
  | remove f phase callback next ih => exact (tells_remove site f phase callback w).trans (ih _)
  | uninstall f next ih => exact (tells_uninstall site f w).trans (ih _ _)

/-- The code of a script tells what happens in it, however deep. -/
theorem Script.tells_code (p : Script χ υ) (depth : Nat) :
    Code.Tells (p.environment.code depth) (p.happenings depth) := by
  induction depth with
  | zero => exact fun a words w => .refl _
  | succ depth ih =>
    intro a words w
    have hstage : (p.environment.stage (p.environment.code depth)).Tells fun c call w =>
        (p.act c call).happenings p.site (p.environment.code depth) (p.happenings depth) w :=
      ⟨fun _ _ => rfl, fun c call w => (p.act c call).tells_run p.site ih w⟩
    simp only [Environment.code, happenings]
    cases (Environment.registry w).engine.at? a with
    | some d => exact tells_answer hstage ih ..
    | none =>
      simp only [environment]
      cases p.native? (Environment.codeAt w a) with
      | some body => exact (body words).tells_run p.site ih w
      | none => exact .refl _

omit [DecidableEq χ] in
theorem ledger_start (rest : υ) : (Host.world rest : HostWorld χ υ).ledger.Told := rfl

/-- The counters tell what happened.

    Whatever a process has done before, a program moves each counter by what happens in it: the
    calls made by the invocations of machines, the failures by the dispatches that are refused, in
    all and under each name, the hooks by the installations, and the callbacks by the callbacks that
    bridges run, at whatever depth of calls, callbacks and moved code. At every moment the counters
    are what was told until then, and those by name add up to the failures; like the counters, these
    are numbers in 64-bit words, and without that proviso while fewer than `2 ^ 64` calls failed. -/
theorem counters_tell (p : Script χ υ) (depth : Nat) (rest : υ) {α β : Type}
    (before : Routine χ υ α) (program : Routine χ υ β) :
    let code := p.environment.code depth
    let w := (before.run p.site code (Host.world rest)).2
    let w' := (program.run p.site code w).2
    let hs := program.happenings p.site code (p.happenings depth) w
    (∀ k, w'.ledger.counters.read k = (w.ledger.counters.read k + happened hs k) % 2 ^ 64) ∧
    w'.ledger.counters = .of w'.ledger.events ∧
    ∀ moment, moment <:+ w'.ledger.events →
      (Counters.of moment).named ≡ (Counters.of moment).callFailures [MOD 2 ^ 64] ∧
      (added moment .failed < 2 ^ 64 →
        (Counters.of moment).named = (Counters.of moment).callFailures) := by
  intro code w w' hs
  have hcode := p.tells_code depth
  obtain ⟨es, hw, -⟩ := before.tells_run p.site hcode (Host.world rest)
  obtain ⟨es', hw', hes'⟩ := program.tells_run p.site hcode w
  have htold : w.ledger.Told := hw ▸ (ledger_start rest).add es
  have htold' : w'.ledger.Told := hw' ▸ htold.add es'
  refine ⟨fun k => ?_, htold', fun moment _ => Counters.named_eq_failures moment⟩
  have hevents : w'.ledger.events = es' ++ w.ledger.events := by
    rw [← Ledger.events_add, ← hw']
  have hk : added es' k = happened hs k := hes' k
  rw [htold', htold, hevents, Counters.read_of, Counters.read_of, added_append, hk, Nat.mod_add_mod,
    Nat.add_comm]

/-- A hooked function with callbacks that leave a call alone, override its result, or leave it
    without arguments. -/
def hooked : Script Nat Unit where
  native? a := if a = ⟨0x4000⟩ then some fun _ => .finish 7 else none
  act callback call := .finish <|
    match callback with
    | 0 => (.proceed, call)
    | 1 => (.override .none, call)
    | _ => (.proceed, { call with args := [] })
  site := ⟨fun _ => none, 0x1000⟩

/-- Registers a callback and calls the function. -/
def hookedCall (callback : Nat) : Routine Nat Unit Unit :=
  let f : Function := ⟨⟨0x4000⟩, .cdecl, ⟨[.bool], .void, by decide⟩⟩
  .add f .pre callback fun _ => .callShared (.function f) [.bool true] fun _ => .finish ()

/-- One native call of a hooked function is two calls, one, or one and a failure. -/
example :
    let happenings callback := (hookedCall callback).happenings hooked.site
      (hooked.environment.code 2) (hooked.happenings 2) (Host.world ())
    happenings 0 = [.installed, .invoked, .ran, .invoked] ∧
      happenings 1 = [.installed, .invoked, .ran] ∧
      happenings 2 = [.installed, .invoked, .ran, .refused (.argumentCount 1 0)] :=
  ⟨rfl, rfl, rfl⟩

end Hook

end NativeGate
