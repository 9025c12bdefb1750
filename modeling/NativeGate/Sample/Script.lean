import NativeGate.Sample.Natives

/-!
Scripted callbacks. A script gives each callback a list of actions, which it takes in order after it
has entered the call it sees into the log; its verdict is the last override, unless that was
withdrawn. Functions are named through the script.
-/

namespace NativeGate.Sample
open Hook

/-- One thing that a callback does. -/
inductive Action where
  | set (i : Nat) (v : Value)
  | push (v : Value)
  | pop
  | addInteger (i : Nat) (n : Int)
  | override (v : Value)
  | overrideArgument (i : Nat)
  | overrideAdd (n : Int)
  | proceed
  | setResult (v : Value)
  | setPhase (phase : Phase)
  | add (target : String) (phase : Phase) (callback : String)
  | remove (target : String) (phase : Phase) (callback : String)
  | uninstall (target : String)
  | sidePush (hook : HookId) (phase : Phase) (callback : String)
  | sideClear (hook : HookId)
  | call (native : String) (args : List Value)

/-- What each callback does, and the functions that scripts name. -/
structure Script where
  actions : String → List Action
  target? : String → Option Function

/-- How deep natives and callbacks may call each other. -/
def depth : Nat := 100000

/-- The integer that a value carries, in 64 bits, moved by `n`. -/
def movedInteger? (v : Value) (n : Int) : Option Value :=
  v.integer?.map fun m => .ofInt .longLong (m + n)

def enter (e : Entry) : SampleWorld → SampleWorld :=
  update fun s => { s with log := e :: s.log }

/-- The environment of a site, in which callbacks do what `act` says. -/
def environmentWith (site : Site)
    (act : SampleCode → String → HookCall → SampleWorld → Verdict × HookCall × SampleWorld) :
    Environment String State where
  native? a := (nativeAt? a).map Native.body
  act := act
  site := site

/-- An environment in which callbacks do nothing. -/
def plainEnvironment (site : Site) : Environment String State :=
  environmentWith site fun _ _ call w => (.proceed, call, w)

/-- A process at its start. -/
def world : SampleWorld := Host.world .fresh

/-- The code of a process without callbacks. -/
def code : SampleCode := (plainEnvironment site).code depth

/-- Jumps to a function as native code does: arguments that do not fit are passed as they are. The
    first argument word is remembered as the buffer that was passed. -/
def callDirectly (code : SampleCode) (f : Function) (args : List Value) (w : SampleWorld) :
    Value × SampleWorld :=
  let fitted := (args.zip f.signature.params).map fun (v, k) => (v.coerce k 0).toOption.getD v
  let (words, w) := Value.toWords fitted w
  let w := update (fun s => { s with buffer := ⟨words.headD 0⟩ }) w
  let (x, w) := code f.address words w
  let ret := f.signature.ret
  ((Value.ofWord ret x).received w.memory ret, w)

/-- What stands in for the code behind a hook. -/
inductive StandIn where
  | sum
  | first
  | fixed (v : Value)

/-- The result for the arguments that reach the code; truth values count in a sum. -/
def StandIn.result (args : List Value) : StandIn → Value
  | sum => .ofInt .longLong ((args.filterMap Value.integer?).foldl (· + ·) 0)
  | first => Sample.first args
  | fixed v => v

namespace Script

/-- Where a callback stands in its script. -/
structure Progress where
  verdict : Option Value
  call : HookCall
  world : SampleWorld

/-- Takes one action. -/
def step (script : Script) (site : Site) (code : SampleCode) (p : Progress) : Action → Progress
  | .set i v => { p with call.args := p.call.args.set i v }
  | .push v => { p with call.args := p.call.args ++ [v] }
  | .pop => { p with call.args := p.call.args.dropLast }
  | .addInteger i n =>
    match p.call.args[i]?.bind fun v => movedInteger? v n with
    | some v => { p with call.args := p.call.args.set i v }
    | none => p
  | .override v => { p with verdict := some v }
  | .overrideArgument i => { p with verdict := p.call.args[i]?.or p.verdict }
  | .overrideAdd n => { p with verdict := (movedInteger? p.call.result n).or p.verdict }
  | .proceed => { p with verdict := none }
  | .setResult v => { p with call.result := v }
  | .setPhase phase => { p with call.phase := phase }
  | .add target phase callback =>
    match script.target? target with
    | some f =>
      let (outcome, w) := (plainEnvironment site).addCallback f phase callback p.world
      { p with world := enter (.added outcome) w }
    | none => p
  | .remove target phase callback =>
    match script.target? target with
    | some f => { p with world := (plainEnvironment site).removeCallback f phase callback p.world }
    | none => p
  | .uninstall target =>
    match script.target? target with
    | some f =>
      let (removed, w) := (plainEnvironment site).uninstall f p.world
      { p with world := enter (.uninstalled removed) w }
    | none => p
  | .sidePush hook phase callback =>
    { p with world := update (fun s => { s with side := s.side.push hook phase callback }) p.world }
  | .sideClear hook =>
    { p with world := update (fun s => { s with side := s.side.clear hook }) p.world }
  | .call native args =>
    match functionOf? native .cdecl with
    | some f =>
      let (outcome, w) := f.callShared code args p.world
      { p with world := enter (.called outcome) w }
    | none => p

/-- Runs a callback: the entry in the log, then its actions. -/
def act (script : Script) (site : Site) (code : SampleCode) (callback : String) (call : HookCall)
    (w : SampleWorld) : Verdict × HookCall × SampleWorld :=
  let start : Progress :=
    ⟨none, call, enter (.ran callback call.phase call.args call.result) w⟩
  let p := (script.actions callback).foldl (script.step site code) start
  match p.verdict with
  | some v => (.override v, p.call, p.world)
  | none => (.proceed, p.call, p.world)

def environment (script : Script) (site : Site) : Environment String State :=
  environmentWith site (script.act site)

end Script

end NativeGate.Sample
