import NativeGate.Call.Machine
import NativeGate.Call.Recent

/-!
The gate: the call machine that goes through native interfaces. A call needs an interface, which is
told by the binary interface, the kinds of the arguments as they were pushed, and the kind of the
result; interfaces are prepared on first use and the most recent ones are kept. Arguments cross as
64-bit words, strings by address, and so does the result. The code that is called may depend on the
prepared interface that it is entered through (`Gate.machineThrough`); it sees memory and its own
state but not the ledger, so it cannot depend on which interfaces were at hand.
-/

namespace NativeGate

/-- What an interface is prepared for. -/
structure Interface where
  abi : Convention.Abi
  params : List Kind
  ret : Kind
deriving DecidableEq

/-- How a value crosses: as an integer of so many bytes, as a floating-point number, or as an
    address. -/
inductive NativeType where
  | void
  | integer (signed : Bool) (bytes : Nat)
  | single
  | double
  | address
deriving DecidableEq

/-- The native type of a kind; texts cross by their address. -/
def Kind.nativeType : Kind → NativeType
  | .void => .void
  | .bool => .integer false 1
  | .integer k => .integer k.signed k.bytes
  | .float => .single
  | .double => .double
  | .pointer | .string => .address

/-- A prepared interface: a binary interface with the native types that cross. -/
structure Prepared where
  abi : Convention.Abi
  params : List NativeType
  ret : NativeType
deriving DecidableEq

def Interface.prepare (i : Interface) : Prepared :=
  ⟨i.abi, i.params.map Kind.nativeType, i.ret.nativeType⟩

/-- Native code: what running it at an address does with argument words. -/
abbrev Code (ρ : Type) := Address → List UInt64 → World ρ → UInt64 × World ρ

namespace Value

/-- The kind under which a pushed value travels; no value travels as a null pointer. -/
def slotKind : Value → Kind
  | none => .pointer
  | v => v.kind

/-- The word of a value that needs no place in memory. -/
def word : Value → UInt64
  | none => 0
  | bool b => if b then 1 else 0
  | integer n => UInt64.ofInt n.val
  | float x => x.bits.toUInt64
  | double x => x.bits
  | pointer p => p.word
  | string _ => 0

/-- The word that native code receives for a value; a string is put into memory first. -/
def toWord {ρ : Type} (v : Value) (w : World ρ) : UInt64 × World ρ :=
  match v with
  | string s =>
    let (a, w) := w.place s.bytes
    (a.word, w)
  | v => (v.word, w)

/-- The words of values from left to right. -/
def toWords {ρ : Type} : List Value → World ρ → List UInt64 × World ρ
  | [], w => ([], w)
  | v :: vs, w =>
    let (x, w) := v.toWord w
    let (xs, w) := toWords vs w
    (x :: xs, w)

/-- The value of a kind that a result word carries. -/
def ofWord (k : Kind) (x : UInt64) : Value := ofBits k x.toNat

end Value

/-- The state of the gate: selected interface, pushed arguments, error code, recent interfaces. -/
structure Gate where
  abi : Convention.Abi
  args : List Value
  error : Int
  recent : Recent Interface Prepared

namespace Gate

/-- Interfaces kept unless told otherwise. -/
def defaultCapacity : Nat := 64

/-- The error code of a convention that has no interface of its own. -/
def unsupportedMode : Int := -1

def withCapacity (n : Nat) : Gate := ⟨Convention.cdecl.abi, [], 0, .withCapacity n⟩

def fresh : Gate := withCapacity defaultCapacity

/-- Interfaces kept at present. -/
def cached (g : Gate) : Nat := g.recent.size

/-- The interface of a call with the pushed arguments. -/
def interface (g : Gate) (ret : Kind) : Interface := ⟨g.abi, g.args.map Value.slotKind, ret⟩

/-- The prepared interface that a call goes through: one at hand, or else a new one. -/
def prepared (g : Gate) (i : Interface) : Prepared := (g.recent.use Interface.prepare i).1

/-- Uses an interface, and prepares it if it is not at hand. -/
def ready {ρ : Type} (i : Interface) (s : Gate × World ρ) : Gate × World ρ :=
  let g := { s.1 with recent := (s.1.recent.use Interface.prepare i).2 }
  match s.1.recent.find? i with
  | some _ => (g, s.2)
  | none => (g, s.2.note (.interfacePrepared i.abi i.params.length))

/-- The machine that enters code through prepared interfaces. -/
def machineThrough {ρ : Type} (enter : Prepared → Code ρ) : CallMachine Gate ρ where
  reset s := ({ s.1 with args := [] }, s.2)
  setMode c s :=
    if c.isDistinct then ({ s.1 with abi := c.abi, error := 0 }, s.2)
    else ({ s.1 with abi := c.abi, error := unsupportedMode }, s.2.note (.indistinct c))
  push v s := ({ s.1 with args := s.1.args ++ [v] }, s.2)
  invoke a k s :=
    let (words, w) := Value.toWords s.1.args s.2
    let i := s.1.interface k
    let through := s.1.prepared i
    let (g, w) := ready i (s.1, w)
    let (x, w) := w.unseen (enter through a words)
    (Value.ofWord k x, g, w)
  lastError g := g.error

/-- The machine that runs `code`, which is the same through every interface. -/
def machine {ρ : Type} (code : Code ρ) : CallMachine Gate ρ := machineThrough fun _ => code

end Gate

end NativeGate
