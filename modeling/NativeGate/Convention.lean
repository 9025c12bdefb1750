/-!
Calling conventions. A convention is a tag that a call carries; on this machine only the C
convention has an interface of its own, and calls under the other three go through the C one.
-/

namespace NativeGate

/-- Calling convention tags. -/
inductive Convention where
  | cdecl | stdcall | thiscall | fastcall
deriving DecidableEq

namespace Convention

def name : Convention → String
  | cdecl => "cdecl"
  | stdcall => "stdcall"
  | thiscall => "thiscall"
  | fastcall => "fastcall"

/-- Binary interfaces that this machine can call through. -/
inductive Abi where
  | native
deriving DecidableEq

/-- The number that log lines show for an interface. -/
def Abi.number : Abi → Nat
  | .native => 2

/-- The interface that belongs to the convention alone, if it has one here. -/
def abi? : Convention → Option Abi
  | cdecl => some .native
  | stdcall | thiscall | fastcall => none

/-- The interface to call through: the convention's own, or else the machine's. -/
def abi (c : Convention) : Abi := c.abi?.getD .native

def isDistinct (c : Convention) : Bool := c.abi?.isSome

/-- The text after every leading `conv_`. -/
def dropTag : List Char → List Char
  | 'c' :: 'o' :: 'n' :: 'v' :: '_' :: rest => dropTag rest
  | cs => cs

/-- The spelling under which a text is looked up: lower case, without leading `conv_`. -/
def normalise (text : String) : String := String.ofList (dropTag text.toLower.toList)

def ofName? : String → Option Convention
  | "cdecl" | "c" => some cdecl
  | "stdcall" => some stdcall
  | "thiscall" => some thiscall
  | "fastcall" => some fastcall
  | _ => none

/-- Reads a convention's name in any ASCII case, with or without `conv_` in front. -/
def parse? (text : String) : Option Convention := ofName? (normalise text)

/-- What is said of a text that names no convention. -/
def unknownName (text : String) : String :=
  "unknown calling convention '" ++ normalise text ++ "'"

theorem ofName?_name (c : Convention) : ofName? c.name = some c := by cases c <;> rfl

end Convention

end NativeGate
