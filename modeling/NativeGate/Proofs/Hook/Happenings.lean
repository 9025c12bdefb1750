import NativeGate.Proofs.Call.History
import NativeGate.Proofs.Hook.Routine

/-!
What happens in a run, as a list beside it. A dispatch is refused, or its machine takes the steps of
the call and is invoked; a hooked call runs callbacks and dispatches the moved code; and inside of
native code, of callbacks and of the steps of a machine, all of this happens again. The lists follow
the run from state to state, and are told by what functions do and not by what the ledger holds.
-/

namespace NativeGate

/-- Something that the counters are to tell of: a machine was invoked, a call was refused before its
    machine took a step, a hook was installed, or a callback was run. -/
inductive Happening where
  | invoked
  | refused (e : Error)
  | installed
  | ran
deriving DecidableEq

/-! ### What happens in a dispatch -/

section
variable {μ ρ : Type}

/-- What a step of a machine comes to by itself. -/
def Step.happenings : Step → List Happening
  | .invoke _ _ => [.invoked]
  | .reset | .setMode _ | .push _ => []

/-- What happens while a machine takes steps, where `inside` tells what happens inside of each. -/
def CallMachine.happenings (m : CallMachine μ ρ) (inside : Step → μ × World ρ → List Happening) :
    List Step → μ × World ρ → List Happening
  | [], _ => []
  | t :: steps, s => t.happenings ++ inside t s ++ m.happenings inside steps (m.take s t).2

/-- What happens in a call: it is refused, or the machine takes the steps of the call. -/
def Function.happenings (m : CallMachine μ ρ) (inside : Step → μ × World ρ → List Happening)
    (f : Function) (args : List Value) (s : μ × World ρ) : List Happening :=
  match f.prepare args with
  | .error e => [.refused e]
  | .ok ws => m.happenings inside (f.protocol ws) (noted (.calling f.convention f.signature) s)

/-- What happens inside a step of a gate: an invocation enters native code. -/
def Gate.inside (code : Address → List UInt64 → World ρ → List Happening) :
    Step → Gate × World ρ → List Happening
  | .invoke a _, (g, w) =>
    let (words, w) := Value.toWords g.args w
    code a words w.unledgered
  | .reset, _ | .setMode _, _ | .push _, _ => []

end

namespace Hook
open Layout

/-! ### What happens in a hooked call -/

section
variable {χ ρ : Type}

/-- What happens while callbacks run one after the other. -/
def Stage.happeningsOf (stage : Stage χ (World ρ))
    (inside : χ → HookCall → World ρ → List Happening) (phase : Phase) :
    List χ → HookCall → World ρ → List Happening
  | [], _, _ => []
  | c :: cs, call, w =>
    .ran :: inside c call w ++
    match stage.act c call w with
    | (.proceed, call, w) => stage.happeningsOf inside phase cs call w
    | (.override v, call, w) =>
      stage.happeningsOf inside phase cs
        (if phase = .post then { call with result := v } else call) w

/-- What happens while the callbacks of a phase run. -/
def Stage.happeningsIn (stage : Stage χ (World ρ))
    (inside : χ → HookCall → World ρ → List Happening) (hook : HookId) (phase : Phase)
    (call : HookCall) (w : World ρ) : List Happening :=
  let cs := (stage.table w).snapshot hook phase
  stage.happeningsOf inside phase cs call (stage.note (.callbacksRunning hook phase cs.length) w)

/-- What happens in a hooked call: callbacks of the pre phase run, the target runs unless one of
    them has overridden the result, and callbacks of the post phase run. -/
def Stage.happenings {β : Type} (stage : Stage χ (World ρ))
    (inside : χ → HookCall → World ρ → List Happening) (hook : HookId) (args : List Value)
    (target : List Value → World ρ → (Value × β) × World ρ)
    (insideTarget : List Value → World ρ → List Happening) (w : World ρ) : List Happening :=
  let first : HookCall := ⟨.pre, args, .none⟩
  let (overridden, call, left) := stage.run hook .pre first w
  stage.happeningsIn inside hook .pre first w ++
  match overridden with
  | some v => stage.happeningsIn inside hook .post ⟨.post, call.args, v⟩ left
  | none =>
    let ((v, _), after) := target call.args left
    insideTarget call.args left ++
      stage.happeningsIn inside hook .post ⟨.post, call.args, v⟩ after

/-- What happens when a redirected call is answered; the moved code is called as any function. -/
def answerHappenings (stage : Stage χ (World ρ))
    (acting : χ → HookCall → World ρ → List Happening) (code : Code ρ)
    (inside : Address → List UInt64 → World ρ → List Happening) (hook : HookId) (f : Function)
    (words : List UInt64) (w : World ρ) : List Happening :=
  let raw := rawArguments f.signature words
  let shown := shownArguments w.memory f.signature raw
  stage.happenings acting hook shown (runMoved code hook f shown raw)
    (fun args w =>
      f.happenings (Gate.machine code) (Gate.inside inside) (passed args shown raw) (.fresh, w)) w

end

/-! ### What happens in a routine -/

namespace Callee
variable {χ ε μ ρ : Type}

/-- The function that a call dispatches, with its arguments; unhooked code is looked for first. -/
def target? (E : Engine ε) (r : Registry χ ε) : Callee → List Value → Option (Function × List Value)
  | function f, args => some (f, args)
  | unhooked f, args => (r.unhooked? E f).toOption.map (·, args)
  | method b _, args => some (b.function, b.withThis args)
  | unhookedMethod b _, args => (r.unhooked? E b.function).toOption.map (·, b.withThis args)

/-- What happens in a call through a machine. -/
def happenings (E : Engine ε) (r : Registry χ ε) (m : CallMachine μ ρ)
    (inside : Step → μ × World ρ → List Happening) (c : Callee) (args : List Value)
    (s : μ × World ρ) : List Happening :=
  (c.target? E r args).elim [] fun (f, args) => f.happenings m inside args s

end Callee

/-- What happens in a registration: where there is no hook one is installed, if the engine can. -/
def addHappenings {χ ε : Type} (E : Engine ε) (f : Function) (r : Registry χ ε) : List Happening :=
  if f.address = .null then []
  else
    match r.find E f, (E.install f ⟨r.nextId⟩ r.engine).1 with
    | none, .ok _ => [.installed]
    | none, .error _ | some _, _ => []

variable {χ υ : Type}

/-- The world in which a use of the shared gate begins. -/
def borrowed (w : HostWorld χ υ) : HostWorld χ υ :=
  { w with native := { w.native with borrowed := true } }

variable [DecidableEq χ]

namespace Routine

/-- What happens in a routine, where native code runs as `code` and `inside` tells what happens in
    it. -/
def happenings (site : Site) (code : HostCode χ υ)
    (inside : Address → List UInt64 → HostWorld χ υ → List Happening) {α : Type} :
    Routine χ υ α → HostWorld χ υ → List Happening
  | finish _, _ => []
  | work change next, w =>
    let (memory, rest) := change (w.memory, w.native.own.rest)
    (next (memory, rest)).happenings site code inside (worked memory rest w)
  | enter a words next, w =>
    let (x, after) := code a words w
    inside a words w ++ (next x).happenings site code inside after
  | call g c args next, w =>
    let E := Detours.engine site
    let r := Environment.registry w
    let (result, g', after) := c.call E r (Gate.machine code) args (g, w)
    c.happenings E r (Gate.machine code) (Gate.inside inside) args (g, w) ++
      (next result g').happenings site code inside after
  | callShared c args next, w =>
    let E := Detours.engine site
    let r := Environment.registry w
    let (result, after) := c.callShared E r code args w
    (if w.native.borrowed then []
      else c.happenings E r (Gate.machine code) (Gate.inside inside) args
        (w.native.gate, borrowed w)) ++
      (next result).happenings site code inside after
  | callOn take s c args next, w =>
    let E := Detours.engine site
    let r := Environment.registry w
    let m := machine fun t s w => (take t s).run site code w
    let (result, s', after) := c.call E r m args (s, w)
    c.happenings E r m (fun t s => (take t s.1).happenings site code inside s.2) args (s, w) ++
      (next result s').happenings site code inside after
  | add f phase callback next, w =>
    let (result, after) := (Environment.bare site).addCallback f phase callback w
    addHappenings (Detours.engine site) f (Environment.registry w) ++
      (next result).happenings site code inside after
  | remove f phase callback next, w =>
    next.happenings site code inside ((Environment.bare site).removeCallback f phase callback w)
  | uninstall f next, w =>
    let (removed, after) := (Environment.bare site).uninstall f w
    (next removed).happenings site code inside after

end Routine

/-- What happens when the code at an address is run, at most `depth` calls deep. -/
def Script.happenings (p : Script χ υ) :
    Nat → Address → List UInt64 → HostWorld χ υ → List Happening
  | 0 => fun _ _ _ => []
  | depth + 1 => fun a words w =>
    let code := p.environment.code depth
    let inside := p.happenings depth
    match (Environment.registry w).engine.at? a with
    | some d =>
      answerHappenings (p.environment.stage code)
        (fun c call w => (p.act c call).happenings p.site code inside w) code inside d.record.id
        (d.function.moved d.record.unhooked) words w
    | none =>
      match p.native? (Environment.codeAt w a) with
      | some body => (body words).happenings p.site code inside w
      | none => []

end Hook

end NativeGate
