import NativeGate.Call.Shared
import NativeGate.Hook.Registry
import NativeGate.Layout.Types

/-!
Instances: addresses seen through a layout. An instance keeps the layout it was made with; the
registry is only asked when a result is to be wrapped, and then as it is at that moment. Methods
come back bound, with the address of the instance as their first argument.
-/

namespace NativeGate.Layout

/-- Where an instance looks for converters: in the registry, or nowhere. -/
inductive Scope where
  | registry | nowhere
deriving DecidableEq

/-- The registry as it is seen from a scope. -/
def Scope.types (s : Scope) (t : Types) : Types :=
  match s with
  | registry => t
  | nowhere => .empty

/-- An address with the layout of what is there. -/
structure Instance where
  pointer : Address
  layout : TypeLayout
  scope : Scope
deriving DecidableEq

/-- A result: a plain value, or an instance that a converter made of an address. -/
inductive Member where
  | value (v : Value)
  | wrapped (i : Instance)

namespace Member

def value? : Member → Option Value
  | value v => some v
  | wrapped _ => none

def instance? : Member → Option Instance
  | value _ => none
  | wrapped i => some i

/-- The plain value; an instance gives its address. -/
def plain : Member → Value
  | value v => v
  | wrapped i => .pointer i.pointer

def text? (m : Member) : Option String := m.value?.bind Value.text?

/-- Equality with a value; an instance equals none. -/
def same (m : Member) (v : Value) : Bool := m.value?.elim false (·.same v)

end Member

namespace Types

/-- An instance of a registered type. -/
def view (t : Types) (name : String) (pointer : Address) : Except Error Instance :=
  (t.layout name).map fun layout => ⟨pointer, layout, .registry⟩

/-- Wraps an address that is not null with the named converter or the default one; everything else,
    and everything where no converter applies, stays as it is. -/
def convert (t : Types) (converter : Option String) (v : Value) : Except Error Member :=
  match converter.or t.defaultConverter, v with
  | some name, .pointer p =>
    if p.isNull then .ok (.value v) else (t.view name p).map .wrapped
  | _, _ => .ok (.value v)

end Types

/-- A function with the address of an instance as its first argument. Results are converted in a
    scope, or not at all. -/
structure BoundMethod where
  function : Function
  this : Address
  conversion : Option (Scope × Option String)

namespace BoundMethod

/-- A method whose results stay plain. -/
def new (function : Function) (this : Address) : BoundMethod := ⟨function, this, none⟩

/-- The arguments behind the address of the instance. -/
def withThis (b : BoundMethod) (args : List Value) : List Value := .pointer b.this :: args

def convert (b : BoundMethod) (t : Types) (v : Value) : Except Error Member :=
  match b.conversion with
  | some (scope, name) => (scope.types t).convert name v
  | none => .ok (.value v)

variable {μ ρ υ χ ε : Type}

/-- Calls through a machine. -/
def call (b : BoundMethod) (t : Types) (m : CallMachine μ ρ) (args : List Value)
    (s : μ × World ρ) : Except Error Member × (μ × World ρ) :=
  let (r, s) := b.function.call m (b.withThis args) s
  (r.bind (b.convert t), s)

/-- Calls through the thread's shared gate. -/
def callShared (b : BoundMethod) (t : Types) (code : Code (Thread υ)) (args : List Value)
    (w : World (Thread υ)) : Except Error Member × World (Thread υ) :=
  let (r, w) := b.function.callShared code (b.withThis args) w
  (r.bind (b.convert t), w)

/-- Calls the unhooked code of the method. -/
def callUnhooked (b : BoundMethod) (t : Types) (E : Hook.Engine ε) (r : Hook.Registry χ ε)
    (m : CallMachine μ ρ) (args : List Value) (s : μ × World ρ) :
    Except Error Member × (μ × World ρ) :=
  let (result, s) := Hook.callUnhooked E r m b.function (b.withThis args) s
  (result.bind (b.convert t), s)

end BoundMethod

/-- What turns the description of a function into a function; it may work on the world. -/
abbrev Resolver (σ : Type) := FunctionSpec → σ → Except Error Function × σ

namespace Instance

def field (i : Instance) (name : String) : Except Error Attribute :=
  match i.layout.attributes.find? name with
  | some a => .ok a
  | none => .error (.unknownMember i.layout.name name)

/-- The plain value of a field. -/
def load (i : Instance) (m : Memory) (a : Attribute) : Except Error Value :=
  match a.kind with
  | .string => (m.getText i.pointer a.offset.toInt a.indirect).bind Memory.textValue
  | k => m.getValue i.pointer k a.offset.toInt

/-- Reads a field. -/
def get (i : Instance) (m : Memory) (t : Types) (name : String) : Except Error Member := do
  let a ← i.field name
  if !a.access.readable then throw (.attributeAccess name false)
  (i.scope.types t).convert a.converter (← i.load m a)

/-- Writes a field; a string field takes texts only. -/
def set (i : Instance) (m : Memory) (name : String) (v : Value) : Except Error Memory := do
  let a ← i.field name
  if !a.access.writable then throw (.attributeAccess name true)
  match a.kind with
  | .string =>
    match v.text? with
    | some text =>
      m.setText i.pointer text (a.capacity.map UInt64.toNat) a.offset.toInt a.indirect
    | none => throw (.argumentType 0 .string (.sort v.sort))
  | k => m.setValue i.pointer k v a.offset.toInt

/-- Binds a function to the instance. -/
def bind (i : Instance) (f : Function) (converter : Option String) : BoundMethod :=
  ⟨f, i.pointer, some (i.scope, converter)⟩

/-- An exported method, found by a resolver. -/
def method {σ : Type} (i : Instance) (resolve : Resolver σ) (note : Event → σ → σ) (name : String)
    (s : σ) : Except Error BoundMethod × σ :=
  match i.layout.functions.find? name with
  | none => (.error (.unknownMember i.layout.name name), s)
  | some spec =>
    match resolve spec s with
    | (.error e, s) => (.error e, s)
    | (.ok f, s) => (.ok (i.bind f spec.converter), note (.methodBound i.layout.name name) s)

/-- A virtual method, found in the table of the object that is there now. -/
def virtualMethod (i : Instance) (m : Memory) (name : String) : Except Error BoundMethod :=
  match i.layout.virtuals.find? name with
  | none => .error (.unknownMember i.layout.name name)
  | some spec =>
    (m.virtualEntry i.pointer spec.index.toNat spec.shifted).map fun a =>
      i.bind ⟨a, spec.convention, spec.signature⟩ spec.converter

end Instance

end NativeGate.Layout
