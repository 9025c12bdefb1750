import NativeGate.Config
import NativeGate.Layout.Instance
import NativeGate.Library

/-!
Pipes: functions by name, out of a manifest. A pipe opens the library of a function when it is first
asked for one of its functions, and keeps it under the name that the manifest spells.
-/

namespace NativeGate
open Layout

/-- A manifest and the libraries opened so far. -/
structure Pipe where
  functions : Dict FunctionSpec
  libraries : List (String × Library)

namespace Pipe
variable {ρ : Type}

def new (functions : Dict FunctionSpec) : Pipe := ⟨functions, []⟩

/-- The pipe over the manifests of several files; where two have a name, the later counts. -/
def ofFiles (files : Files) (paths : List String) : Except Error Pipe :=
  (paths.foldlM (fun c path => (Config.load files path).map c.merge) Config.default).map fun c =>
    new c.functions

def addFunction (p : Pipe) (name : String) (spec : FunctionSpec) : Pipe :=
  { p with functions := p.functions.insert name spec }

def spec? (p : Pipe) (name : String) : Option FunctionSpec := p.functions.find? name

def names (p : Pipe) : List String := p.functions.names

/-- The library of a name, opened at the first request that succeeds. -/
def library (loader : Loader) (binary : String) (s : Pipe × World ρ) :
    Except Error Library × (Pipe × World ρ) :=
  match s.1.libraries.lookup binary with
  | some l => (.ok l, s)
  | none =>
    match Library.opened (Library.find loader binary) s.2 with
    | (.ok l, w) => (.ok l, { s.1 with libraries := (binary, l) :: s.1.libraries }, w)
    | (.error e, w) => (.error e, s.1, w)

/-- The function of a description: the name it has on this system, found in its library. -/
def resolve (loader : Loader) : Resolver (Pipe × World ρ) := fun spec s =>
  match spec.symbols.current? with
  | none => (.error (.library (.noSymbol spec.binary)), s)
  | some identifier =>
    match library loader spec.binary s with
    | (.error e, s) => (.error e, s)
    | (.ok l, p, w) =>
      match l.resolved identifier w with
      | (.error e, w) => (.error e, p, w)
      | (.ok a, w) =>
        (.ok ⟨a, spec.convention, spec.signature⟩, p,
          w.note (.symbolResolved spec.binary identifier))

/-- The function of a name in the manifest. -/
def get (loader : Loader) (name : String) (s : Pipe × World ρ) :
    Except Error Function × (Pipe × World ρ) :=
  match s.1.spec? name with
  | none => (.error (.unknownMember "Pipe" name), s)
  | some spec => resolve loader spec s

end Pipe

end NativeGate
