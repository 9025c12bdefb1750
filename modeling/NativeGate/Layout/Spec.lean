import NativeGate.Convention
import NativeGate.Dict
import NativeGate.Signature

/-!
Layouts of native types: named fields at byte offsets, exported functions that take the address of
an instance first, and slots of the table of virtual functions. A layout only describes; where an
instance lies and what its members hold is asked of memory.
-/

namespace NativeGate.Layout

/-- What may be done with a field. -/
inductive Access where
  | read | write | readWrite
deriving DecidableEq

namespace Access

def readable : Access → Bool
  | read | readWrite => true
  | write => false

def writable : Access → Bool
  | write | readWrite => true
  | read => false

def name : Access → String
  | read => "read"
  | write => "write"
  | readWrite => "read_write"

def all : List Access := [read, write, readWrite]

end Access

/-- A field at a byte offset. Two facts concern strings only: whether the field holds the address of
    the text instead of the text, and how many bytes there are for it. -/
structure Attribute where
  kind : Kind
  offset : Int64
  indirect : Bool
  capacity : Option UInt64
  access : Access
  converter : Option String
deriving DecidableEq

/-- The names of a function on the systems that have it. -/
structure Symbols where
  linux : Option String
  windows : Option String
  macos : Option String
deriving DecidableEq

/-- The name of a function on this system. -/
def Symbols.current? (s : Symbols) : Option String := s.linux

/-- An exported function: the library, the symbol or byte pattern, and how to call it. -/
structure FunctionSpec where
  binary : String
  symbols : Symbols
  convention : Convention
  signature : Signature
  converter : Option String
deriving DecidableEq

/-- A slot of the table of virtual functions. A shifted slot leaves room for the second destructor
    that this system puts into the table. -/
structure VirtualSpec where
  index : UInt64
  convention : Convention
  signature : Signature
  shifted : Bool
  converter : Option String
deriving DecidableEq

/-- The layout of one native type, under the name it was registered with. -/
structure TypeLayout where
  name : String
  size : Option UInt64
  attributes : Dict Attribute
  functions : Dict FunctionSpec
  virtuals : Dict VirtualSpec
deriving DecidableEq

namespace TypeLayout

/-- A layout without members. -/
def new (name : String) : TypeLayout := ⟨name, none, .empty, .empty, .empty⟩

def withAttribute (l : TypeLayout) (name : String) (a : Attribute) : TypeLayout :=
  { l with attributes := l.attributes.insert name a }

def withFunction (l : TypeLayout) (name : String) (f : FunctionSpec) : TypeLayout :=
  { l with functions := l.functions.insert name f }

def withVirtual (l : TypeLayout) (name : String) (f : VirtualSpec) : TypeLayout :=
  { l with virtuals := l.virtuals.insert name f }

end TypeLayout

end NativeGate.Layout
