import NativeGate.Hook.Host
import NativeGate.Layout.Instance
import NativeGate.Proofs.Call.Dispatch

/-!
Routines: what runs in a process, as trees of commands. Programs, native code and callbacks are
routines alike; each may call functions and methods in every way there is, enter native code, and
register and remove callbacks. A script says which routine is at each address and behind each
callback, and `Script.environment` is the process that runs them.
-/

namespace NativeGate.Hook
open Layout

/-! ### Callees -/

/-- What is called: a function or a bound method, or its unhooked code. -/
inductive Callee where
  | function (f : Function)
  | unhooked (f : Function)
  | method (b : BoundMethod) (t : Types)
  | unhookedMethod (b : BoundMethod) (t : Types)

namespace Callee
variable {χ ε μ ρ υ : Type}

/-- Calls through a machine. -/
def call (E : Engine ε) (r : Registry χ ε) (m : CallMachine μ ρ) (c : Callee) (args : List Value)
    (s : μ × World ρ) : Except Error Member × (μ × World ρ) :=
  match c with
  | function f =>
    let (result, s) := f.call m args s
    (result.map .value, s)
  | unhooked f =>
    let (result, s) := callUnhooked E r m f args s
    (result.map .value, s)
  | method b t => b.call t m args s
  | unhookedMethod b t => b.callUnhooked t E r m args s

/-- Calls through the thread's shared gate. -/
def callShared (E : Engine ε) (r : Registry χ ε) (code : Code (Thread υ)) (c : Callee)
    (args : List Value) (w : World (Thread υ)) : Except Error Member × World (Thread υ) :=
  w.withShared (c.call E r (Gate.machine code) args)

variable (E : Engine ε) (r : Registry χ ε) (code : Code (Thread υ)) (args : List Value)
  (w : World (Thread υ))

theorem callShared_function (f : Function) :
    (function f).callShared E r code args w =
      let (result, w) := f.callShared code args w
      (result.map .value, w) := by
  simp only [callShared, Function.callShared, World.withShared]
  split <;> rfl

theorem callShared_method (b : BoundMethod) (t : Types) :
    (method b t).callShared E r code args w = b.callShared t code args w := by
  simp only [callShared, BoundMethod.callShared, Function.callShared, World.withShared]
  split <;> rfl

end Callee

/-! ### Routines -/

/-- A machine that is told by what each of its steps does. -/
def machineOf {μ ρ : Type} (take : Step → μ × World ρ → Value × (μ × World ρ)) :
    CallMachine μ ρ where
  reset s := (take .reset s).2
  setMode c s := (take (.setMode c) s).2
  push v s := (take (.push v) s).2
  invoke a k s := take (.invoke a k) s
  lastError _ := 0

/-- A piece of code that comes to a result. It works on memory and its own data, enters native code
    without a call of the library, calls through a gate, the thread's shared gate or any other
    machine, whose steps are routines themselves, and changes the registry of hooks. -/
inductive Routine (χ υ : Type) : Type → Type 1 where
  | finish {α : Type} (a : α) : Routine χ υ α
  | work {α : Type} (change : Memory × υ → Memory × υ) (next : Memory × υ → Routine χ υ α) :
      Routine χ υ α
  | enter {α : Type} (a : Address) (words : List UInt64) (next : UInt64 → Routine χ υ α) :
      Routine χ υ α
  | call {α : Type} (g : Gate) (c : Callee) (args : List Value)
      (next : Except Error Member → Gate → Routine χ υ α) : Routine χ υ α
  | callShared {α : Type} (c : Callee) (args : List Value)
      (next : Except Error Member → Routine χ υ α) : Routine χ υ α
  | callOn {α μ : Type} (take : Step → μ → Routine χ υ (Value × μ)) (s : μ) (c : Callee)
      (args : List Value) (next : Except Error Member → μ → Routine χ υ α) : Routine χ υ α
  | add {α : Type} (f : Function) (phase : Phase) (callback : χ)
      (next : Except Error Unit → Routine χ υ α) : Routine χ υ α
  | remove {α : Type} (f : Function) (phase : Phase) (callback : χ) (next : Routine χ υ α) :
      Routine χ υ α
  | uninstall {α : Type} (f : Function) (next : Bool → Routine χ υ α) : Routine χ υ α

/-- The world after work on memory and a routine's own data. -/
def worked {χ υ : Type} (memory : Memory) (rest : υ) (w : HostWorld χ υ) : HostWorld χ υ :=
  { w.mapOwn fun h => { h with rest } with memory }

/-- An environment without code of its own; registrations depend on its site only. -/
def Environment.bare {χ υ : Type} (site : Site) : Environment χ υ :=
  ⟨fun _ => none, fun _ _ call w => (.proceed, call, w), site⟩

namespace Routine
variable {χ υ : Type} [DecidableEq χ]

/-- A machine whose steps are run by `run`. -/
def machine {μ : Type} (run : Step → μ → HostWorld χ υ → (Value × μ) × HostWorld χ υ) :
    CallMachine μ (Thread (Host χ υ)) :=
  machineOf fun t s =>
    let ((v, left), w) := run t s.1 s.2
    (v, left, w)

/-- Runs a routine where native code runs as `code`. -/
def run (site : Site) (code : HostCode χ υ) {α : Type} :
    Routine χ υ α → HostWorld χ υ → α × HostWorld χ υ
  | finish a, w => (a, w)
  | work change next, w =>
    let (memory, rest) := change (w.memory, w.native.own.rest)
    (next (memory, rest)).run site code (worked memory rest w)
  | enter a words next, w =>
    let (x, w) := code a words w
    (next x).run site code w
  | call g c args next, w =>
    let (result, g, w) :=
      c.call (Detours.engine site) (Environment.registry w) (Gate.machine code) args (g, w)
    (next result g).run site code w
  | callShared c args next, w =>
    let (result, w) := c.callShared (Detours.engine site) (Environment.registry w) code args w
    (next result).run site code w
  | callOn take s c args next, w =>
    let (result, s, w) := c.call (Detours.engine site) (Environment.registry w)
      (machine fun t s w => (take t s).run site code w) args (s, w)
    (next result s).run site code w
  | add f phase callback next, w =>
    let (result, w) := (Environment.bare site).addCallback f phase callback w
    (next result).run site code w
  | remove f phase callback next, w =>
    next.run site code ((Environment.bare site).removeCallback f phase callback w)
  | uninstall f next, w =>
    let (removed, w) := (Environment.bare site).uninstall f w
    (next removed).run site code w

end Routine

/-! ### Scripts -/

/-- The routine at each address, which gets the argument words, the routine behind each callback,
    and the site for detours. -/
structure Script (χ υ : Type) where
  native? : Address → Option (List UInt64 → Routine χ υ UInt64)
  act : χ → HookCall → Routine χ υ (Verdict × HookCall)
  site : Site

/-- The process that runs the routines of a script. -/
def Script.environment {χ υ : Type} [DecidableEq χ] (p : Script χ υ) : Environment χ υ where
  native? a := (p.native? a).map fun body code words w => (body words).run p.site code w
  act code callback call w :=
    let ((verdict, call), w) := (p.act callback call).run p.site code w
    (verdict, call, w)
  site := p.site

end NativeGate.Hook
