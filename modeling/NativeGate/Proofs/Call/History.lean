import NativeGate.Call.Shared
import NativeGate.Proofs.Call.Gate

/-!
Calls and the history of their gate. A gate that has been used holds pushed arguments, a mode, an
error code and prepared interfaces, and none of it reaches into a later call
(`call_independent_of_history`). The invariant behind it is that every interface at hand is the one
its key prescribes (`Gate.Sound`): each step of the machine keeps it, so every gate that any
sequence of calls and single steps leads to (`Gate.Reached`) has it.
-/

namespace NativeGate
variable {ρ : Type}

namespace Gate

/-- Every interface at hand is the one that its key prescribes. -/
def Sound (g : Gate) : Prop := g.recent.Made Interface.prepare

theorem sound_withCapacity (n : Nat) : (withCapacity n).Sound :=
  Recent.made_withCapacity Interface.prepare n

/-- A call through a sound gate goes through the interface that it asks for. -/
theorem Sound.prepared_eq {g : Gate} (h : g.Sound) (i : Interface) :
    g.prepared i = i.prepare := Recent.use_eq_make h i

theorem Sound.loaded {g : Gate} (h : g.Sound) (c : Convention) (args : List Value) :
    (g.loaded c args).Sound := h

theorem ready_gate (i : Interface) (g : Gate) (w : World ρ) :
    (ready i (g, w)).1 = { g with recent := (g.recent.use Interface.prepare i).2 } := by
  unfold ready
  dsimp only
  split
  · rfl
  · rfl

/-- Every step of the machine keeps a gate sound. -/
theorem Sound.take {g : Gate} (h : g.Sound) (enter : Prepared → Code ρ) (step : Step)
    (w : World ρ) : ((machineThrough enter).take (g, w) step).2.1.Sound := by
  cases step with
  | reset => exact h
  | push v => exact h
  | setMode c =>
    simp only [CallMachine.take, machineThrough]
    split <;> exact h
  | invoke a k =>
    simp only [CallMachine.take, machineThrough, ready_gate]
    exact h.use _

theorem Sound.follow {g : Gate} (h : g.Sound) (enter : Prepared → Code ρ) (steps : List Step)
    (w : World ρ) : ((machineThrough enter).follow steps (g, w)).2.1.Sound := by
  induction steps using List.reverseRecOn with
  | nil => exact h
  | append_singleton steps step ih =>
    rw [CallMachine.follow_concat]
    exact ih.take enter step _

theorem Sound.call {g : Gate} (h : g.Sound) (enter : Prepared → Code ρ) (f : Function)
    (args : List Value) (w : World ρ) :
    (f.call (machineThrough enter) args (g, w)).2.1.Sound := by
  cases hp : f.prepare args with
  | error e =>
    rw [Function.call_of_refused _ (Function.prepare_eq_error_iff.1 hp)]
    exact h
  | ok ws =>
    rw [Function.call_of_fitted _ (Function.prepare_eq_ok_iff.1 hp)]
    exact h.follow enter _ _

/-- The gates that calls, refused ones among them, and single steps can lead to from a new gate that
    keeps `n` interfaces, whatever the world is like at each of them. -/
inductive Reached (enter : Prepared → Code ρ) (n : Nat) : Gate → Prop
  | start : Reached enter n (.withCapacity n)
  | call {g : Gate} (f : Function) (args : List Value) (w : World ρ) (before : Reached enter n g) :
      Reached enter n (f.call (machineThrough enter) args (g, w)).2.1
  | step {g : Gate} (s : Step) (w : World ρ) (before : Reached enter n g) :
      Reached enter n ((machineThrough enter).take (g, w) s).2.1

theorem Reached.sound {enter : Prepared → Code ρ} {n : Nat} {g : Gate}
    (h : Reached enter n g) : g.Sound := by
  induction h with
  | start => exact sound_withCapacity n
  | call f args w _ ih => exact ih.call enter f args w
  | step s w _ ih => exact ih.take enter s w

end Gate

/-! ### Calls through sound gates -/

/-- The world without its ledger, as native code sees it. -/
def World.unledgered (w : World ρ) : World ρ := { w with ledger := .empty }

theorem World.unledgered_congr {w w' : World ρ} (hm : w.memory = w'.memory)
    (hn : w.native = w'.native) : w.unledgered = w'.unledgered := by
  rw [unledgered, unledgered, hm, hn]

namespace Function

/-- The interface that a call with fitted arguments asks for. -/
def asked (f : Function) (ws : List Value) : Interface :=
  ⟨f.convention.abi, ws.map Value.slotKind, f.signature.ret⟩

/-- What native code gives and leaves when a call enters it. -/
def entering (enter : Prepared → Code ρ) (f : Function) (ws : List Value) (w : World ρ) :
    UInt64 × World ρ :=
  let crossed := Value.toWords ws w
  enter (f.asked ws).prepare f.address crossed.1 crossed.2.unledgered

/-- What code is entered with is told by the arguments, memory and the native state. -/
theorem entering_congr (enter : Prepared → Code ρ) (f : Function) (ws : List Value)
    {w w' : World ρ} (hm : w.memory = w'.memory) (hn : w.native = w'.native) :
    f.entering enter ws w = f.entering enter ws w' := by
  obtain ⟨hwords, hmemory⟩ := Value.toWords_congr ws hm
  have hnative : (Value.toWords ws w).2.native = (Value.toWords ws w').2.native := by
    rw [Value.toWords_native, Value.toWords_native, hn]
  rw [entering, entering, hwords, World.unledgered_congr hmemory hnative]

/-- A call that is carried out through a sound gate gives and leaves what the code does that it
    enters, and the error code tells of its convention. -/
theorem call_sound (enter : Prepared → Code ρ) {f : Function} {args ws : List Value}
    (h : f.Fitted args ws) {g : Gate} (hg : g.Sound) (w : World ρ) :
    let left := f.entering enter ws w
    let r := f.call (Gate.machineThrough enter) args (g, w)
    r.1 = .ok ((Value.ofWord f.signature.ret left.1).received left.2.memory f.signature.ret) ∧
      r.2.2.memory = left.2.memory ∧ r.2.2.native = left.2.native ∧
      r.2.1.error = if f.convention.isDistinct then 0 else Gate.unsupportedMode := by
  intro left r
  let start := (w.note (.calling f.convention f.signature)).modeTold f.convention
  let loaded := g.loaded f.convention ws
  let s := Gate.ready (f.asked ws) (loaded, (Value.toWords ws start).2)
  have hprepared : loaded.prepared (f.asked ws) = (f.asked ws).prepare :=
    (hg.loaded f.convention ws).prepared_eq _
  have hseen : s.2.unledgered = (Value.toWords ws start).2.unledgered :=
    World.unledgered_congr (Gate.ready_memory ..) (Gate.ready_native ..)
  have hleft : f.entering enter ws start = left :=
    entering_congr enter f ws (World.memory_modeTold ..) (World.native_modeTold ..)
  have hentered : enter (loaded.prepared (f.asked ws)) f.address (Value.toWords ws start).1
      s.2.unledgered = left := by
    rw [hprepared, hseen]
    exact hleft
  have hraw : f.callRaw (Gate.machineThrough enter) args (g, w) =
      (.ok (.ofWord f.signature.ret left.1), s.1,
        ({ left.2 with ledger := s.2.ledger.append left.2.ledger } : World ρ).note .called) := by
    rw [callRaw_through enter h, ← hentered]
    rfl
  have herror : s.1.error = if f.convention.isDistinct then 0 else Gate.unsupportedMode := by
    rw [Gate.ready_gate]
    rfl
  have hcall : r = (.ok ((Value.ofWord f.signature.ret left.1).received left.2.memory
        f.signature.ret), s.1,
      ({ left.2 with ledger := s.2.ledger.append left.2.ledger } : World ρ).note .called) := by
    rw [show r = f.call (Gate.machineThrough enter) args (g, w) from rfl, call, hraw]
    rfl
  rw [hcall]
  exact ⟨rfl, rfl, rfl, herror⟩

/-- Two sound gates cannot be told apart by a call. -/
theorem call_agree (enter : Prepared → Code ρ) {g g' : Gate} (hg : g.Sound) (hg' : g'.Sound)
    (f : Function) (args : List Value) {w w' : World ρ} (hm : w.memory = w'.memory)
    (hn : w.native = w'.native) :
    let r := f.call (Gate.machineThrough enter) args (g, w)
    let r' := f.call (Gate.machineThrough enter) args (g', w')
    r.1 = r'.1 ∧ r.2.2.memory = r'.2.2.memory ∧ r.2.2.native = r'.2.2.native := by
  intro r r'
  cases hp : f.prepare args with
  | error e =>
    have hrefused := prepare_eq_error_iff.1 hp
    have hr : r = (.error e, noted (.rejected e) (g, w)) := call_of_refused _ hrefused _
    have hr' : r' = (.error e, noted (.rejected e) (g', w')) := call_of_refused _ hrefused _
    rw [hr, hr']
    exact ⟨rfl, hm, hn⟩
  | ok ws =>
    have hfit := prepare_eq_ok_iff.1 hp
    obtain ⟨hresult, hmemory, hnative, _⟩ := call_sound enter hfit hg w
    obtain ⟨hresult', hmemory', hnative', _⟩ := call_sound enter hfit hg' w'
    rw [← entering_congr enter f ws hm hn] at hresult' hmemory' hnative'
    exact ⟨hresult.trans hresult'.symm, hmemory.trans hmemory'.symm, hnative.trans hnative'.symm⟩

/-- A call through the shared gate of a thread, when that is free, gives what a call through a new
    gate gives while the shared one is in use. -/
theorem callShared_eq_new {υ : Type} (code : Code (Thread υ)) (f : Function) (args : List Value)
    {w : World (Thread υ)} (hfree : w.native.borrowed = false) (hg : w.native.gate.Sound)
    (n : Nat) :
    (f.callShared code args w).1 =
      (f.call (Gate.machine code) args
        (Gate.withCapacity n, { w with native := { w.native with borrowed := true } })).1 := by
  have hagree := call_agree (fun _ => code) hg (Gate.sound_withCapacity n) f args
    (w := { w with native := { w.native with borrowed := true } }) rfl rfl
  rw [callShared, World.withShared, if_neg (by rw [hfree]; decide)]
  exact hagree.1

/-- A call does not depend on what its gate has been used for. Through a gate that any calls and
    single steps have led to, a call gives what it gives through a new gate of any capacity in a
    world with the same memory and the same native state, the thread's shared gate included, and it
    leaves both the same. After a call that was carried out the error code tells whether the
    convention has an interface of its own, and a refused call leaves the gate as it was. -/
theorem call_independent_of_history (enter : Prepared → Code ρ) {n : Nat} {g : Gate}
    (hg : Gate.Reached enter n g) (n' : Nat) (f : Function) (args : List Value) {w w' : World ρ}
    (hm : w.memory = w'.memory) (hn : w.native = w'.native) :
    let machine := Gate.machineThrough enter
    let used := f.call machine args (g, w)
    let new := f.call machine args (Gate.withCapacity n', w')
    used.1 = new.1 ∧ used.2.2.memory = new.2.2.memory ∧ used.2.2.native = new.2.2.native ∧
      (∀ v, used.1 = .ok v →
        machine.lastError used.2.1 = if f.convention.isDistinct then 0 else -1) ∧
      ∀ e, used.1 = .error e → used.2.1 = g := by
  intro machine used new
  obtain ⟨hresult, hmemory, hnative⟩ :=
    call_agree enter hg.sound (Gate.sound_withCapacity n') f args hm hn
  refine ⟨hresult, hmemory, hnative, fun v hv => ?_, fun e he => ?_⟩
  · cases hp : f.prepare args with
    | ok ws => exact (call_sound enter (prepare_eq_ok_iff.1 hp) hg.sound w).2.2.2
    | error e =>
      have hused : used = (.error e, noted (.rejected e) (g, w)) :=
        call_of_refused _ (prepare_eq_error_iff.1 hp) _
      rw [hused] at hv
      cases hv
  · cases hp : f.prepare args with
    | ok ws =>
      rw [(call_sound enter (prepare_eq_ok_iff.1 hp) hg.sound w).1] at he
      cases he
    | error e' =>
      have hused : used = (.error e', noted (.rejected e') (g, w)) :=
        call_of_refused _ (prepare_eq_error_iff.1 hp) _
      rw [hused]
      rfl

/-- Code that adds its arguments, and one more for each parameter of the interface that it is
    entered through. -/
def countingAdder : Prepared → Code Unit := fun through _ words w =>
  (words.foldl (· + ·) 0 + UInt64.ofNat through.params.length, w)

/-- A gate of capacity zero with an argument and a mode left over gives the sum of two integers,
    counted through an interface of two parameters. -/
theorem call_with_leftovers :
    let machine := Gate.machineThrough countingAdder
    let f : Function :=
      ⟨⟨0x4000⟩, .thiscall, ⟨[.integer .int, .integer .int], .integer .int, by decide⟩⟩
    let args := [Value.ofInt .int 1, Value.ofInt .int 2]
    let invoked := (machine.take (Gate.withCapacity 0, .start ()) (.invoke ⟨0x4000⟩ .void)).2.1
    let g := (machine.take (invoked, .start ()) (.push (Value.ofInt .int 7))).2.1
    g.args = [Value.ofInt .int 7] ∧ Gate.Reached countingAdder 0 g ∧
      (f.call machine args (g, .start ())).1 = .ok (Value.ofInt .int 5) ∧
      machine.lastError (f.call machine args (g, .start ())).2.1 = -1 := by
  intro machine f args invoked g
  have hinvoked : Gate.Reached countingAdder 0 invoked := .step _ _ .start
  have hg : Gate.Reached countingAdder 0 g := .step _ _ hinvoked
  have hsame : (World.start ()).memory = (World.start ()).memory := rfl
  obtain ⟨hresult, _, _, herror, _⟩ :=
    call_independent_of_history countingAdder hg 3 f args hsame rfl
  have hnew : (f.call machine args (Gate.withCapacity 3, .start ())).1 =
      .ok (Value.ofInt .int 5) := rfl
  exact ⟨rfl, hg, hresult.trans hnew, herror _ (hresult.trans hnew)⟩

end Function

end NativeGate
