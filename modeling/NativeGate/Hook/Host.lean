import NativeGate.Call.Shared
import NativeGate.Hook.Detour

/-!
A process with native code and detours in it. The environment says what code is at an address and
what each callback does; `Environment.code` runs what a jump to an address runs: a detour answers in
place of the code that it redirects, the moved code is found at its new entry, and everything else
is the code itself. Code may call other code, so running is limited by a depth.
-/

namespace NativeGate.Hook

/-- A thread's own state: the hook registry and whatever else there is. -/
structure Host (χ υ : Type) where
  registry : Registry χ Detours
  rest : υ

/-- The world of a process. -/
abbrev HostWorld (χ υ : Type) := World (Thread (Host χ υ))

/-- The code of a process. -/
abbrev HostCode (χ υ : Type) := Code (Thread (Host χ υ))

/-- What a process starts with: the code at each address, the behaviour of each callback, and the
    site for detours. Code and callbacks are given the means to run other code. -/
structure Environment (χ υ : Type) where
  native? : Address → Option (HostCode χ υ → List UInt64 → HostWorld χ υ →
    UInt64 × HostWorld χ υ)
  act : HostCode χ υ → χ → HookCall → HostWorld χ υ → Verdict × HookCall × HostWorld χ υ
  site : Site

def Host.world {χ υ : Type} (rest : υ) : HostWorld χ υ :=
  .start (.start ⟨.start .none, rest⟩)

namespace Environment
variable {χ υ : Type}

def engine (e : Environment χ υ) : Engine Detours := Detours.engine e.site

/-- The registry of a process, as bridges and calls see it. -/
def registry (w : HostWorld χ υ) : Registry χ Detours := w.native.own.registry

/-- The stage on which bridges run when code runs as `code`. -/
def stage (e : Environment χ υ) (code : HostCode χ υ) : Stage χ (HostWorld χ υ) where
  table w := (registry w).table
  note event w := w.note event
  act := e.act code

/-- The function that a moved entry or an ordinary address stands for. -/
def codeAt (w : HostWorld χ υ) (a : Address) : Address :=
  match (registry w).engine.movedTo? a with
  | some d => d.record.target
  | none => a

/-- Runs the code at an address, at most `depth` calls deep; where there is no code the result is
    zero. -/
def code (e : Environment χ υ) : Nat → HostCode χ υ
  | 0 => fun _ _ w => (0, w)
  | depth + 1 => fun a words w =>
    let inner := e.code depth
    match (registry w).engine.at? a with
    | some d =>
      answer (e.stage inner) inner d.record.id (d.function.moved d.record.unhooked) words w
    | none =>
      match e.native? (codeAt w a) with
      | some body => body inner words w
      | none => (0, w)

/-! ### Registrations in a process -/

/-- Puts a registry in place and tells what was done. -/
def told (w : HostWorld χ υ) (r : Registry χ Detours) (events : List Event) :
    HostWorld χ υ :=
  events.foldl World.note (w.mapOwn fun p => { p with registry := r })

def addCallback (e : Environment χ υ) (f : Function) (phase : Phase) (callback : χ)
    (w : HostWorld χ υ) : Except Error Unit × HostWorld χ υ :=
  match (registry w).addCallback e.engine f phase callback with
  | (.ok events, r) => (.ok (), told w r events)
  | (.error error, r) => (.error error, told w r [])

def removeCallback [DecidableEq χ] (e : Environment χ υ) (f : Function) (phase : Phase)
    (callback : χ) (w : HostWorld χ υ) : HostWorld χ υ :=
  let (events, r) := (registry w).removeCallback e.engine f phase callback
  told w r events

def uninstall (e : Environment χ υ) (f : Function) (w : HostWorld χ υ) :
    Bool × HostWorld χ υ :=
  let (removed, events, r) := (registry w).uninstall e.engine f
  (removed, told w r events)

end Environment

end NativeGate.Hook
