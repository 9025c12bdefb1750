import NativeGate.Pipe
import NativeGate.Sample.Script

/-!
Scenarios: short pieces of work, each of which makes the library tell of one part of itself. They
call the sample adder through a gate of their own, and every scenario begins with an empty registry
of hooks.
-/

namespace NativeGate.Sample
open Hook Layout

/-- The pieces of work; some name a library or a function in one. -/
inductive Scenario where
  | call | callTwice | reject | thiscall | memory | hook | bridge | method
  | load (library : String)
  | scan (library : String) (pattern : String)
  | pipe (binary symbol : String)
  | discover (files : Files)

/-- Resolves the description of a function to the native that has its name. -/
def resolveNative {σ : Type} : Resolver σ := fun spec s =>
  let found :=
    match spec.symbols.current? with
    | none => .error (.library (.described "no symbol"))
    | some name =>
      match locate? name with
      | some a => .ok ⟨a, spec.convention, spec.signature⟩
      | none => .error (.library (.described ("no native " ++ name)))
  (found, s)

namespace Scenario

/-- The scenario of a name, if it needs nothing but its name. -/
def ofName? : String → Option Scenario
  | "call" => some call
  | "call_twice" => some callTwice
  | "reject" => some reject
  | "thiscall" => some thiscall
  | "memory" => some memory
  | "hook" => some hook
  | "bridge" => some bridge
  | "method" => some method
  | _ => none

/-- The sample adder under a convention. -/
def adder (convention : Convention) : Function :=
  ⟨(locate? "add_i32").getD .null, convention,
    ⟨[.integer .int, .integer .int], .integer .int, by decide⟩⟩

def callWith (convention : Convention) (args : List Value) (s : Gate × SampleWorld) :
    Gate × SampleWorld :=
  ((adder convention).call (Gate.machine code) args s).2

/-- One and two. -/
def args : List Value := [Value.ofInt .int 1, Value.ofInt .int 2]

/-- A block is taken, resized and given back. -/
def memoryWork (w : SampleWorld) : SampleWorld :=
  match w.allocate 8 with
  | .error _ => w
  | .ok (a, w) =>
    match w.reallocate a 64 with
    | .error _ => w
    | .ok (a, w) => w.release a

/-- A callback is added in both phases, taken out of the first twice, and unhooked. -/
def hookWork (w : SampleWorld) : SampleWorld :=
  let e := plainEnvironment site
  let f := adder .cdecl
  let w := w.mapOwn fun p => { p with registry := .start .none }
  let w := (e.addCallback f .pre "a" w).2
  let w := (e.addCallback f .post "a" w).2
  let w := e.removeCallback f .pre "a" w
  let w := e.removeCallback f .pre "a" w
  (e.uninstall f w).2

/-- Two callbacks see one call. -/
def bridgeWork (w : SampleWorld) : SampleWorld :=
  let e := plainEnvironment site
  let table : Table String := (Table.empty.push ⟨7⟩ .pre "a").push ⟨7⟩ .pre "b"
  let stage := { e.stage code with table := fun _ => table }
  (stage.dispatch ⟨7⟩ [] (fun _ w => ((.none, ()), w)) w).2

/-- A method of a type is bound. -/
def methodWork (w : SampleWorld) : SampleWorld :=
  let f := adder .cdecl
  let spec : FunctionSpec := ⟨"", ⟨some "add_i32", none, none⟩, .cdecl, f.signature, none⟩
  let i : Instance := ⟨f.address, (TypeLayout.new "Thing").withFunction "go" spec, .nowhere⟩
  (i.method (fun _ w => (.ok f, w)) (fun e w => w.note e) "go" w).2

/-- Does the work of a scenario. -/
def run (loader : Loader) (w : SampleWorld) : Scenario → SampleWorld
  | call => (callWith .cdecl args (.fresh, w)).2
  | callTwice => (callWith .cdecl args (callWith .cdecl args (.fresh, w))).2
  | reject => (callWith .cdecl (args.take 1) (.fresh, w)).2
  | thiscall => (callWith .thiscall args (.fresh, w)).2
  | memory => memoryWork w
  | hook => hookWork w
  | bridge => bridgeWork w
  | method => methodWork w
  | load library => (Library.opened (Library.load loader library) w).2
  | scan library pattern =>
    match Library.opened (Library.load loader library) w with
    | (.ok l, w) => (l.resolved pattern w).2
    | (.error _, w) => w
  | pipe binary symbol =>
    let spec : FunctionSpec :=
      ⟨binary, ⟨some symbol, none, none⟩, .cdecl, (adder .cdecl).signature, none⟩
    (Pipe.resolve loader spec (Pipe.new .empty, w)).2.2
  | discover files => (Config.discover files).2.foldl World.note w

end Scenario

end NativeGate.Sample
