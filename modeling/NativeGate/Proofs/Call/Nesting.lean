import NativeGate.Proofs.Call.History

/-!
Nested uses of a shared gate. A program is a tree of commands that is run with some gate in hand:
its own, or the thread's shared one inside a use of that. Native code that it calls is a program
again, and may come back to the shared gate in the middle of a call. While that gate is in use, all
of this leaves it as it is (`Program.kept_run`) and goes on as if every attempt had been refused
where it stands (`Program.run_busy`); otherwise it leaves the gate free again
(`Program.returned_run`). The conventions that the shared gate was told are kept in a diary, and
the last of them tells the error code (`Diary.code`).
-/

namespace NativeGate
variable {υ : Type}

/-! ### Programs on one thread -/

/-- What a thread has of its own, with the conventions that its shared gate was told, by calls that
    were carried out or directly. -/
structure Diary (υ : Type) where
  told : List Convention
  rest : υ

/-- The error code of a gate that was told a convention. -/
def Convention.errorCode (c : Convention) : Int := if c.isDistinct then 0 else Gate.unsupportedMode

/-- The code of the last call that a shared gate was told of. -/
def Diary.code (d : Diary υ) : Int := d.told.getLast?.elim 0 Convention.errorCode

/-- Enters conventions in the diary if the gate in hand is the shared one. -/
def World.entered (shared : Bool) (told : List Convention) (w : World (Thread (Diary υ))) :
    World (Thread (Diary υ)) :=
  if shared then w.mapOwn fun d => { d with told := d.told ++ told } else w

/-- The world after a program has worked on memory and its own data. -/
def World.worked (memory : Memory) (rest : υ) (w : World (Thread (Diary υ))) :
    World (Thread (Diary υ)) :=
  { w.mapOwn fun d => { d with rest } with memory }

/-- The convention that a step tells a machine. -/
def Step.told : Step → List Convention
  | .setMode c => [c]
  | .reset | .push _ | .invoke _ _ => []

/-- The convention that a call has told its machine; a refused call has told it nothing. -/
def Function.told (f : Function) : Except Error Value → List Convention
  | .ok _ => [f.convention]
  | .error _ => []

/-- A program on one thread. It works on memory and its own data, takes single steps on the gate in
    hand or calls through it, asks for the last error code, and runs other programs with the shared
    gate in hand or with a new gate. -/
inductive Program (υ : Type) where
  | finish (result : Except Error Value)
  | work (change : Gate → Memory × υ → Memory × υ) (next : Gate → Memory × υ → Program υ)
  | step (s : Step) (next : Value → Program υ)
  | call (f : Function) (args : List Value) (next : Except Error Value → Program υ)
  | lastError (next : Int → Program υ)
  | withShared (body : Program υ) (next : Except Error Value → Program υ)
  | withOwn (capacity : Nat) (body : Program υ) (next : Except Error Value → Program υ)

namespace Program

/-- Runs a program with a gate in hand, the shared one or another. -/
def run (code : Code (Thread (Diary υ))) : Program υ → Bool → Gate × World (Thread (Diary υ)) →
    Except Error Value × (Gate × World (Thread (Diary υ)))
  | finish result, _, s => (result, s)
  | work change next, shared, (g, w) =>
    let (memory, rest) := change g (w.memory, w.native.own.rest)
    (next g (memory, rest)).run code shared (g, w.worked memory rest)
  | step t next, shared, s =>
    let (v, g, w) := (Gate.machine code).take s t
    (next v).run code shared (g, w.entered shared t.told)
  | call f args next, shared, s =>
    let (result, g, w) := f.call (Gate.machine code) args s
    (next result).run code shared (g, w.entered shared (f.told result))
  | lastError next, shared, s => (next s.2.native.lastError).run code shared s
  | withShared body next, shared, (g, w) =>
    let (result, w) := w.withShared (body.run code true)
    (next result).run code shared (g, w)
  | withOwn capacity body next, shared, (g, w) =>
    let (result, _, w) := body.run code false (.withCapacity capacity, w)
    (next result).run code shared (g, w)

/-- The program that finds the shared gate in use: an attempt to use it is refused and its body is
    gone, and the last error code is zero. -/
def busy : Program υ → Program υ
  | finish result => .finish result
  | work change next => .work change fun g m => (next g m).busy
  | step t next => .step t fun v => (next v).busy
  | call f args next => .call f args fun result => (next result).busy
  | lastError next => (next 0).busy
  | withShared _ next => (next (.error .contextBusy)).busy
  | withOwn capacity body next => .withOwn capacity body.busy fun result => (next result).busy

/-- A call through the shared gate. -/
def callShared (f : Function) (args : List Value) (next : Except Error Value → Program υ) :
    Program υ := withShared (.call f args .finish) next

/-- Calling through the shared gate is what `Function.callShared` does. -/
theorem run_callShared (code : Code (Thread (Diary υ))) (f : Function) (args : List Value)
    (next : Except Error Value → Program υ) (shared : Bool) (g : Gate)
    (w : World (Thread (Diary υ))) :
    (callShared f args next).run code shared (g, w) =
      let (result, w) := f.callShared code args w
      (next result).run code shared (g, w.entered true (f.told result)) := by
  simp only [callShared, run, Function.callShared, World.withShared]
  split
  · simp [Function.told, World.entered, World.mapOwn]
  · rfl

end Program

/-- Native code, by address and argument words, as programs. -/
abbrev Natives (υ : Type) := Address → List UInt64 → Program υ

namespace Natives

/-- Native code whose programs run with a gate of their own; calls are nested at most `depth`
    deep. -/
def code (natives : Natives υ) : Nat → Code (Thread (Diary υ))
  | 0 => fun _ _ w => (0, w)
  | depth + 1 => fun a words w =>
    let (result, _, w) := (natives a words).run (natives.code depth) false (.fresh, w)
    (match result with
      | .ok v => v.word
      | .error _ => 0, w)

/-- Native code that finds the shared gate in use. -/
def busy (natives : Natives υ) : Natives υ := fun a words => (natives a words).busy

end Natives

/-! ### One command on the gate in hand -/

section
variable {ρ : Type} {code code' : Code ρ}

/-- Two runs that agree on a world without its ledger agree when the ledger is hidden from them. -/
theorem World.unseen_congr {α : Type} {run run' : World ρ → α × World ρ} {w : World ρ}
    (h : run w.unledgered = run' w.unledgered) : w.unseen run = w.unseen run' :=
  congrArg (fun left : α × World ρ =>
    (left.1, { left.2 with ledger := w.ledger.append left.2.ledger })) h

namespace Gate

/-- An invocation enters code with the native side as it is. -/
theorem native_entered (g : Gate) (w : World ρ) (ret : Kind) :
    (ready (g.interface ret) (g, (Value.toWords g.args w).2)).2.native = w.native :=
  (ready_native ..).trans (Value.toWords_native ..)

/-- What native code does with the native side, a step of the machine does. -/
theorem take_native {R : ρ → ρ → Prop} (hrefl : ∀ t, R t t)
    (hcode : ∀ a words (w : World ρ), R w.native (code a words w).2.native) (s : Step) (g : Gate)
    (w : World ρ) : R w.native ((machine code).take (g, w) s).2.2.native := by
  cases s with
  | reset | push v => exact hrefl _
  | setMode c =>
    simp only [CallMachine.take, machine, machineThrough]
    split <;> exact hrefl _
  | invoke a k =>
    rw [← native_entered g w k]
    exact hcode a _ (World.unledgered _)

/-- Steps are the same with code that is the same where the native side is. -/
theorem take_congr {w : World ρ}
    (h : ∀ a words (u : World ρ), u.native = w.native → code a words u = code' a words u)
    (s : Step) (g : Gate) : (machine code).take (g, w) s = (machine code').take (g, w) s := by
  cases s with
  | reset | push v | setMode c => rfl
  | invoke a k =>
    have hleft := World.unseen_congr
      (h a (Value.toWords g.args w).1 (World.unledgered _) (native_entered g w k))
    simp only [CallMachine.take, machine, machineThrough, hleft]

/-- Only telling a convention sets the error code, and sets it to that of the convention. -/
theorem take_error (s : Step) (g : Gate) (w : World ρ) :
    ((machine code).take (g, w) s).2.1.error =
      s.told.getLast?.elim g.error Convention.errorCode := by
  cases s with
  | reset | push v => rfl
  | setMode c =>
    simp only [CallMachine.take, machine, machineThrough, Step.told, List.getLast?_singleton,
      Option.elim_some, Convention.errorCode]
    split <;> rfl
  | invoke a k =>
    simp only [CallMachine.take, machine, machineThrough, ready_gate]
    rfl

end Gate

namespace Function
variable (f : Function) (args : List Value) (g : Gate) (w : World ρ)

/-- A call enters code with the native side as it is. -/
theorem native_entered (ws : List Value) :
    let start := (w.note (.calling f.convention f.signature)).modeTold f.convention
    (Gate.ready ((g.loaded f.convention ws).interface f.signature.ret)
      (g.loaded f.convention ws, (Value.toWords ws start).2)).2.native = w.native :=
  (Gate.native_entered (g.loaded f.convention ws) ..).trans (World.native_modeTold ..)

/-- What native code does with the native side, a call does. -/
theorem call_native {R : ρ → ρ → Prop} (hrefl : ∀ t, R t t)
    (hcode : ∀ a words (w : World ρ), R w.native (code a words w).2.native) :
    R w.native (f.call (Gate.machine code) args (g, w)).2.2.native := by
  cases hp : f.prepare args with
  | error e =>
    rw [call_of_refused _ (prepare_eq_error_iff.1 hp)]
    exact hrefl _
  | ok ws =>
    rw [call, callRaw_gate code (prepare_eq_ok_iff.1 hp), ← native_entered f g w ws]
    exact hcode f.address _ (World.unledgered _)

/-- Calls are the same with code that is the same where the native side is. -/
theorem call_congr
    (h : ∀ a words (u : World ρ), u.native = w.native → code a words u = code' a words u) :
    f.call (Gate.machine code) args (g, w) = f.call (Gate.machine code') args (g, w) := by
  cases hp : f.prepare args with
  | error e =>
    have hrefused := prepare_eq_error_iff.1 hp
    rw [call_of_refused _ hrefused, call_of_refused _ hrefused]
  | ok ws =>
    let start := (w.note (.calling f.convention f.signature)).modeTold f.convention
    have hleft := World.unseen_congr (h f.address (Value.toWords ws start).1
      (World.unledgered _) (native_entered f g w ws))
    have hfit := prepare_eq_ok_iff.1 hp
    simp only [call, callRaw_gate code hfit, callRaw_gate code' hfit, hleft, start]

/-- A call that is carried out sets the error code to that of its convention, and a refused call
    leaves it. -/
theorem call_error :
    let r := f.call (Gate.machine code) args (g, w)
    r.2.1.error = (f.told r.1).getLast?.elim g.error Convention.errorCode := by
  intro r
  cases hp : f.prepare args with
  | error e =>
    have hr : r = (.error e, noted (.rejected e) (g, w)) :=
      call_of_refused _ (prepare_eq_error_iff.1 hp) _
    rw [hr]
    rfl
  | ok ws =>
    have hr := callRaw_gate code (prepare_eq_ok_iff.1 hp) g w
    simp only [r, call, hr, Gate.ready_gate]
    rfl

end Function

end

/-! ### While the shared gate is in use -/

variable {code plain : Code (Thread (Diary υ))}

/-- A shared gate in use is left as it is, and is told nothing. -/
def Thread.Kept (t t' : Thread (Diary υ)) : Prop :=
  t.borrowed = true → t'.borrowed = true ∧ t'.gate = t.gate ∧ t'.own.told = t.own.told

theorem Thread.Kept.refl (t : Thread (Diary υ)) : t.Kept t := fun h => ⟨h, rfl, rfl⟩

/-- Native code that keeps a shared gate in use. -/
def Code.Discreet (code : Code (Thread (Diary υ))) : Prop :=
  ∀ a words (w : World (Thread (Diary υ))), w.native.Kept (code a words w).2.native

/-- The code of the last convention is that of what was added, if anything was. -/
theorem Diary.code_append (d : Diary υ) (told : List Convention) :
    Diary.code { d with told := d.told ++ told } =
      told.getLast?.elim d.code Convention.errorCode := by
  rw [Diary.code, List.getLast?_append]
  cases told.getLast? <;> rfl

/-- What may become of a gate in hand and a world whose shared gate is in use. If the gate in hand
    is the shared one, the diary goes on telling its error code. -/
structure Held (shared : Bool) (s s' : Gate × World (Thread (Diary υ))) : Prop where
  borrowed : s'.2.native.borrowed = true
  gate : s'.2.native.gate = s.2.native.gate
  silent : shared = false → s'.2.native.own.told = s.2.native.own.told
  error : shared = true → s.1.error = s.2.native.own.code → s'.1.error = s'.2.native.own.code

namespace Held
variable {shared : Bool}

theorem refl {s : Gate × World (Thread (Diary υ))} (h : s.2.native.borrowed = true) :
    Held shared s s := ⟨h, rfl, fun _ => rfl, fun _ => id⟩

theorem trans {s t u : Gate × World (Thread (Diary υ))} (h : Held shared s t)
    (h' : Held shared t u) : Held shared s u where
  borrowed := h'.borrowed
  gate := h'.gate.trans h.gate
  silent hs := (h'.silent hs).trans (h.silent hs)
  error hs := h'.error hs ∘ h.error hs

/-- A command on the gate in hand, which is told what is entered. -/
theorem entered {g g' : Gate} {w w' : World (Thread (Diary υ))} {told : List Convention}
    (hw : w.native.borrowed = true) (hkept : w.native.Kept w'.native)
    (herror : g'.error = told.getLast?.elim g.error Convention.errorCode) :
    Held shared (g, w) (g', w'.entered shared told) := by
  obtain ⟨hborrowed, hgate, htold⟩ := hkept hw
  cases shared with
  | false => exact ⟨hborrowed, hgate, fun _ => htold, fun hc => by cases hc⟩
  | true =>
    refine ⟨hborrowed, hgate, (fun hc => by cases hc), fun _ hagree => ?_⟩
    have hcode : w.native.own.code = w'.native.own.code := by rw [Diary.code, Diary.code, htold]
    rw [show (w'.entered true told).native.own.code = _ from Diary.code_append .., ← hcode,
      ← hagree]
    exact herror

theorem step (hcode : code.Discreet) (shared : Bool) (t : Step) (g : Gate)
    {w : World (Thread (Diary υ))} (hw : w.native.borrowed = true) :
    let r := (Gate.machine code).take (g, w) t
    Held shared (g, w) (r.2.1, r.2.2.entered shared t.told) :=
  entered hw (Gate.take_native .refl hcode t g w) (Gate.take_error t g w)

theorem call (hcode : code.Discreet) (shared : Bool) (f : Function) (args : List Value)
    (g : Gate) {w : World (Thread (Diary υ))} (hw : w.native.borrowed = true) :
    let r := f.call (Gate.machine code) args (g, w)
    Held shared (g, w) (r.2.1, r.2.2.entered shared (f.told r.1)) :=
  entered hw (f.call_native args g w .refl hcode) (f.call_error args g w)

end Held

namespace Program

/-- While the shared gate is in use a program keeps it so, whatever it attempts. -/
theorem kept_run (hcode : code.Discreet) (p : Program υ) (shared : Bool) (g : Gate)
    (w : World (Thread (Diary υ))) (hw : w.native.borrowed = true) :
    Held shared (g, w) (p.run code shared (g, w)).2 := by
  induction p generalizing shared g w with
  | finish result => exact .refl hw
  | work change next ih =>
    let left := change g (w.memory, w.native.own.rest)
    have hwork : Held shared (g, w) (g, w.worked left.1 left.2) :=
      ⟨hw, rfl, fun _ => rfl, fun _ => id⟩
    exact hwork.trans (ih g left shared g _ hw)
  | step t next ih =>
    have htake := Held.step hcode shared t g hw
    exact htake.trans (ih _ _ _ _ htake.borrowed)
  | call f args next ih =>
    have hcall := Held.call hcode shared f args g hw
    exact hcall.trans (ih _ _ _ _ hcall.borrowed)
  | lastError next ih => exact ih _ _ _ _ hw
  | withShared body next _ ih =>
    rw [run, World.withShared, if_pos hw]
    exact ih _ _ _ _ hw
  | withOwn capacity body next ihbody ih =>
    have hbody := ihbody false (.withCapacity capacity) w hw
    have hown : Held shared (g, w) (g, (body.run code false (.withCapacity capacity, w)).2.2) :=
      ⟨hbody.borrowed, hbody.gate, fun _ => hbody.silent rfl, fun _ hagree => by
        rw [Diary.code, hbody.silent rfl]
        exact hagree⟩
    exact hown.trans (ih _ _ _ _ hown.borrowed)

/-- While the shared gate is in use a program does what it does when all its attempts to use it
    are refused. -/
theorem run_busy (hcode : code.Discreet)
    (hplain : ∀ a words (w : World (Thread (Diary υ))), w.native.borrowed = true →
      code a words w = plain a words w)
    (p : Program υ) (shared : Bool) (g : Gate) (w : World (Thread (Diary υ)))
    (hw : w.native.borrowed = true) :
    p.run code shared (g, w) = p.busy.run plain shared (g, w) := by
  have hsame : ∀ {w : World (Thread (Diary υ))}, w.native.borrowed = true → ∀ a words
      (u : World (Thread (Diary υ))), u.native = w.native → code a words u = plain a words u :=
    fun hw a words u hu => hplain a words u (by rw [hu, hw])
  induction p generalizing shared g w with
  | finish result => rfl
  | work change next ih => exact ih _ _ _ _ _ hw
  | step t next ih =>
    have htake := Held.step hcode shared t g hw
    rw [run, busy, run, ← Gate.take_congr (hsame hw)]
    exact ih _ _ _ _ htake.borrowed
  | call f args next ih =>
    have hcall := Held.call hcode shared f args g hw
    rw [run, busy, run, ← f.call_congr args g w (hsame hw)]
    exact ih _ _ _ _ hcall.borrowed
  | lastError next ih =>
    rw [run, busy, Thread.lastError, if_pos hw]
    exact ih _ _ _ _ hw
  | withShared body next _ ih =>
    rw [run, busy, World.withShared, if_pos hw]
    exact ih _ _ _ _ hw
  | withOwn capacity body next ihbody ih =>
    rw [run, busy, run, ← ihbody false (.withCapacity capacity) w hw]
    exact ih _ _ _ _ (kept_run hcode body false _ w hw).borrowed

end Program

namespace Natives
variable (natives : Natives υ)

theorem code_discreet (depth : Nat) : (natives.code depth).Discreet := by
  induction depth with
  | zero => exact fun a words w => .refl _
  | succ depth ih =>
    intro a words w hw
    have hrun := (natives a words).kept_run ih false .fresh w hw
    exact ⟨hrun.borrowed, hrun.gate, hrun.silent rfl⟩

/-- Native code that is entered while the shared gate is in use finds it so all the way down. -/
theorem code_busy (depth : Nat) (a : Address) (words : List UInt64)
    {w : World (Thread (Diary υ))} (hw : w.native.borrowed = true) :
    natives.code depth a words w = natives.busy.code depth a words w := by
  induction depth generalizing a words w with
  | zero => rfl
  | succ depth ih =>
    have hrun := (natives a words).run_busy (natives.code_discreet depth)
      (fun a words w hw => ih a words hw) false .fresh w hw
    simp only [code, busy, hrun]

end Natives

/-! ### After the outermost use -/

/-- A shared gate that is free is free again, and the diary goes on telling its error code. -/
def Thread.Returned (t t' : Thread (Diary υ)) : Prop :=
  t.borrowed = false →
    t'.borrowed = false ∧ (t.gate.error = t.own.code → t'.gate.error = t'.own.code)

theorem Thread.Returned.refl (t : Thread (Diary υ)) : t.Returned t := fun h => ⟨h, id⟩

theorem Thread.Returned.trans {t t' t'' : Thread (Diary υ)} (h : t.Returned t')
    (h' : t'.Returned t'') : t.Returned t'' := fun ht =>
  have ⟨ht', hagree⟩ := h ht
  have ⟨ht'', hagree'⟩ := h' ht'
  ⟨ht'', hagree' ∘ hagree⟩

/-- The world with the shared gate in use. -/
def World.taken (w : World (Thread (Diary υ))) : World (Thread (Diary υ)) :=
  { w with native := { w.native with borrowed := true } }

/-- The world with the shared gate given back. -/
def World.givenBack (g : Gate) (w : World (Thread (Diary υ))) : World (Thread (Diary υ)) :=
  { w with native := { w.native with gate := g, borrowed := false } }

theorem World.withShared_of_free {α : Type} {w : World (Thread (Diary υ))}
    (h : w.native.borrowed = false)
    (use : Gate × World (Thread (Diary υ)) → Except Error α × (Gate × World (Thread (Diary υ)))) :
    w.withShared use =
      let left := use (w.native.gate, w.taken)
      (left.1, left.2.2.givenBack left.2.1) := by
  rw [withShared, if_neg (by rw [h]; decide)]
  rfl

/-- A use of the shared gate by a program gives the gate back as the program left it. -/
theorem World.returned_withShared (hcode : code.Discreet) (p : Program υ)
    (w : World (Thread (Diary υ))) :
    w.native.Returned (w.withShared (p.run code true)).2.native := by
  intro hfree
  have hheld := p.kept_run hcode true w.native.gate w.taken rfl
  rw [withShared_of_free hfree]
  exact ⟨rfl, hheld.error rfl⟩

/-- A program that finds the shared gate free leaves it free. -/
theorem Program.returned_run (hcode : code.Discreet)
    (hreturned : ∀ a words (w : World (Thread (Diary υ))),
      w.native.Returned (code a words w).2.native)
    (p : Program υ) (g : Gate) (w : World (Thread (Diary υ))) :
    w.native.Returned (p.run code false (g, w)).2.2.native := by
  induction p generalizing g w with
  | finish result => exact .refl _
  | work change next ih =>
    let left := change g (w.memory, w.native.own.rest)
    have hwork : w.native.Returned (w.worked left.1 left.2).native := fun h => ⟨h, id⟩
    exact hwork.trans (ih g left g _)
  | step t next ih => exact (Gate.take_native .refl hreturned t g w).trans (ih _ _ _)
  | call f args next ih => exact (f.call_native args g w .refl hreturned).trans (ih _ _ _)
  | lastError next ih => exact ih _ _ _
  | withShared body next _ ih => exact (w.returned_withShared hcode body).trans (ih _ _ _)
  | withOwn capacity body next ihbody ih => exact (ihbody _ w).trans (ih _ _ _)

theorem Natives.code_returned (natives : Natives υ) (depth : Nat) (a : Address)
    (words : List UInt64) (w : World (Thread (Diary υ))) :
    w.native.Returned (natives.code depth a words w).2.native := by
  induction depth generalizing a words w with
  | zero => exact .refl _
  | succ depth ih => exact (natives a words).returned_run (natives.code_discreet depth) ih _ w

/-- The shared gate is not re-entrant and always comes back. While it is in use, whatever gate a
    program has in hand and however deep in native code, an attempt to use it is refused and changes
    nothing, the last error code reads zero, and the program does what it does with its attempts and
    their bodies gone. A use of the free gate returns what its program returns, an error or not, and
    gives the gate back as that program left it, with all attempts made inside refused. Any program
    that finds the gate free leaves it free, and the last error code is that of the last call that
    was made through it. -/
theorem shared_gate_not_reentrant (natives : Natives υ) (depth : Nat) (p : Program υ) (g : Gate)
    (w : World (Thread (Diary υ))) :
    let code := natives.code depth
    let refusing := natives.busy.code depth
    let used := w.withShared (p.run code true)
    let left := p.busy.run refusing true (w.native.gate, w.taken)
    let after := (p.run code false (g, w)).2.2
    (w.native.borrowed = true →
      (∀ use : Gate × World (Thread (Diary υ)) →
        Except Error Value × (Gate × World (Thread (Diary υ))),
          w.withShared use = (.error .contextBusy, w)) ∧
      (∀ (f : Function) (args : List Value), f.callShared code args w = (.error .contextBusy, w)) ∧
      w.native.lastError = 0 ∧
      ∀ shared,
        let r := p.run code shared (g, w)
        r = p.busy.run refusing shared (g, w) ∧ r.2.2.native.borrowed = true ∧
          r.2.2.native.gate = w.native.gate) ∧
    (w.native.borrowed = false →
      used = (left.1, left.2.2.givenBack left.2.1) ∧
      after.native.borrowed = false ∧
      (w.native.gate.error = w.native.own.code →
        used.2.native.lastError = used.2.native.own.code ∧
        after.native.lastError = after.native.own.code)) := by
  intro code refusing used left after
  have hdiscreet : code.Discreet := natives.code_discreet depth
  have hbusy : ∀ shared (g : Gate) {w : World (Thread (Diary υ))}, w.native.borrowed = true →
      p.run code shared (g, w) = p.busy.run refusing shared (g, w) := fun shared g _ hw =>
    p.run_busy hdiscreet (fun a words _ hw => natives.code_busy depth a words hw) shared g _ hw
  have hlast : ∀ {t : Thread (Diary υ)}, t.borrowed = false → t.gate.error = t.own.code →
      t.lastError = t.own.code := by
    intro t ht hagree
    rw [Thread.lastError, if_neg (by rw [ht]; decide), hagree]
  refine ⟨fun hw => ⟨fun use => if_pos hw, fun f args => if_pos hw, if_pos hw, fun shared => ?_⟩,
    fun hfree => ?_⟩
  · have hheld := p.kept_run hdiscreet shared g w hw
    exact ⟨hbusy shared g hw, hheld.borrowed, hheld.gate⟩
  · obtain ⟨hused, hagree⟩ := w.returned_withShared hdiscreet p hfree
    obtain ⟨hafter, hagree'⟩ := p.returned_run hdiscreet (natives.code_returned depth) g w hfree
    refine ⟨?_, hafter, fun h => ⟨hlast hused (hagree h), hlast hafter (hagree' h)⟩⟩
    rw [show used = _ from World.withShared_of_free hfree _, hbusy true _ (w := w.taken) rfl]

/-- Native code that tries to call a function through the shared gate and counts its refusals. -/
def meddling (f : Function) : Natives Nat := fun _ _ =>
  .callShared f [] fun result =>
    .work (fun _ s => (s.1, s.2 + match result with
      | .error .contextBusy => 1
      | _ => 0)) fun _ _ => .finish result

/-- A use of the shared gate calls such code under a convention without an interface of its own and
    then tries to use the gate again: the use ends in an error, both attempts are refused, and the
    gate is free again with the error code of the call that it made, which reads zero in a use. -/
theorem shared_gate_after_refusals :
    let f : Function := ⟨⟨0x4000⟩, .stdcall, ⟨[], .void, by decide⟩⟩
    let nested : Program Nat := .call f [] fun _ => .callShared f [] .finish
    let w : World (Thread (Diary Nat)) := .start (.start ⟨[], 0⟩)
    let used := w.withShared (nested.run ((meddling f).code 2) true)
    used.1 = .error .contextBusy ∧ used.2.native.own.rest = 1 ∧
      used.2.native.own.told = [.stdcall] ∧ used.2.native.borrowed = false ∧
      used.2.native.lastError = -1 ∧ used.2.taken.native.lastError = 0 := by
  intro f nested w used
  obtain ⟨-, hfree⟩ := shared_gate_not_reentrant (meddling f) 2 nested .fresh w
  obtain ⟨hused, -, hcodes⟩ := hfree rfl
  obtain ⟨hlast, -⟩ := hcodes rfl
  change used = _ at hused
  obtain ⟨hbusy, -⟩ := shared_gate_not_reentrant (meddling f) 2 nested .fresh used.2.taken
  obtain ⟨-, -, hzero, -⟩ := hbusy rfl
  have htold : used.2.native.own.told = [.stdcall] := by
    rw [hused]
    rfl
  refine ⟨by rw [hused]; rfl, by rw [hused]; rfl, htold, by rw [hused]; rfl, ?_, hzero⟩
  exact hlast.trans (by rw [Diary.code, htold]; rfl)

end NativeGate
