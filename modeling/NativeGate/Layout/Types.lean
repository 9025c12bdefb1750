import NativeGate.Error
import NativeGate.Layout.Spec

/-!
The registry of types: layouts by name, and the layout that wraps results which name none. A layout
is stored under the name it is registered with, and only an override replaces one.
-/

namespace NativeGate.Layout

/-- Registered layouts and the default converter. -/
structure Types where
  layouts : Dict TypeLayout
  defaultConverter : Option String
deriving DecidableEq

namespace Types

def empty : Types := ⟨.empty, none⟩

/-- Registers a layout under a name. -/
def add (t : Types) (name : String) (layout : TypeLayout) (override : Bool) :
    Except Error (TypeLayout × Types) :=
  if !override && (t.layouts.find? name).isSome then .error (.duplicateType name)
  else
    let named := { layout with name }
    .ok (named, { t with layouts := t.layouts.insert name named })

def get? (t : Types) (name : String) : Option TypeLayout := t.layouts.find? name

/-- The layout under a name, which must be there. -/
def layout (t : Types) (name : String) : Except Error TypeLayout :=
  match t.get? name with
  | some l => .ok l
  | none => .error (.unknownMember "TypeManager" name)

def setDefaultConverter (t : Types) (name : Option String) : Types :=
  { t with defaultConverter := name }

def names (t : Types) : List String := t.layouts.names

def size (t : Types) : Nat := t.layouts.size

def isEmpty (t : Types) : Bool := t.layouts.isEmpty

end Types

end NativeGate.Layout
