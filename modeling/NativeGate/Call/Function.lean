import NativeGate.World

/-!
Functions. A function is an address with a convention and a signature. Before a call every argument
is fitted to its parameter, so a call that is refused has not begun: `prepare` gives either all
arguments in the form of their parameters or the first reason why not.
-/

namespace NativeGate

/-- A native function as a caller sees it. -/
structure Function where
  address : Address
  convention : Convention
  signature : Signature
deriving DecidableEq

namespace Function

/-- Reads the signature from its text. -/
def parse (address : Address) (convention : Convention) (text : String) :
    Except SignatureError Function :=
  (Signature.parse text).map fun s => ⟨address, convention, s⟩

/-- The function at an address that must not be null. -/
def locate (address : Address) (convention : Convention) (text : String) : Except Error Function :=
  if address.isNull then .error (.nullPointer .function)
  else (parse address convention text).mapError Error.ofSignature

def isValid (f : Function) : Bool := !f.address.isNull

/-- The same function at another address. -/
def moved (f : Function) (address : Address) : Function := { f with address }

/-- Fits arguments to parameters in order, from position `index` on. -/
def coerceFrom (index : Nat) : List Value → List Kind → Except Error (List Value)
  | v :: vs, k :: ks =>
    (v.coerce k index).bind fun w => (coerceFrom (index + 1) vs ks).map (w :: ·)
  | _, _ => .ok []

/-- The arguments in the form of their parameters; the address is looked at first, then the number
    of arguments, then each argument. -/
def prepare (f : Function) (args : List Value) : Except Error (List Value) :=
  if f.address.isNull then .error (.nullPointer .target)
  else if args.length ≠ f.signature.arity then
    .error (.argumentCount f.signature.arity args.length)
  else coerceFrom 0 args f.signature.params

def displayWith (place : Address → String) (f : Function) : String :=
  "<" ++ f.convention.name ++ " " ++ f.signature.text ++ " at " ++ place f.address ++ ">"

end Function

/-- What the caller gets for a raw result: nothing for void, and the text behind an address that was
    returned for a string. -/
def Value.received (m : Memory) (ret : Kind) (raw : Value) : Value :=
  match ret, raw with
  | .void, _ => .none
  | .string, .pointer p => if p.isNull then .none else .string (m.cstring p)
  | _, raw => raw

end NativeGate
