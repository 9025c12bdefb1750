import NativeGate.Call.Machine
import NativeGate.Hook.Table

/-!
The hook registry: callbacks on top of a hook engine. The engine knows which addresses are hooked
and under which identity; the registry gives out identities, asks the engine for a hook when the
first callback of a function arrives, and drops the callbacks of a hook with the hook. Every
operation is made of at most two steps, one on the engine and one on the table, and each step is a
function of its own: other operations may come between them.
-/

namespace NativeGate.Hook

/-- What is known of an installed hook: its identity, the hooked address, and the address that still
    runs the unhooked code. -/
structure Record where
  id : HookId
  target : Address
  unhooked : Address
deriving DecidableEq

/-- A hook engine with state `ε`. -/
structure Engine (ε : Type) where
  find : ε → Address → Option Record
  install : Function → HookId → ε → Except Error Record × ε
  uninstall : Address → ε → Option Record × ε

/-- Engine state, registrations, and the next identity to give out. -/
structure Registry (χ ε : Type) where
  engine : ε
  table : Table χ
  nextId : Nat

namespace Registry
variable {χ ε : Type}

def start (engine : ε) : Registry χ ε := ⟨engine, .empty, 1⟩

def find (E : Engine ε) (r : Registry χ ε) (f : Function) : Option Record :=
  E.find r.engine f.address

/-- How many callbacks a function has in a phase. -/
def count (E : Engine ε) (r : Registry χ ε) (f : Function) (phase : Phase) : Nat :=
  match r.find E f with
  | some record => r.table.length record.id phase
  | none => 0

/-! ### Steps -/

/-- A hook that is at hand, and whether it was installed just now. -/
structure Secured where
  record : Record
  fresh : Bool

/-- Finds the hook of a function or installs one under the next identity; an identity is used up
    whether or not the installation succeeds. -/
def secure (E : Engine ε) (f : Function) (r : Registry χ ε) :
    Except Error Secured × Registry χ ε :=
  match r.find E f with
  | some record => (.ok ⟨record, false⟩, r)
  | none =>
    let (result, engine) := E.install f ⟨r.nextId⟩ r.engine
    (result.map fun record => ⟨record, true⟩, { r with engine, nextId := r.nextId + 1 })

/-- Registers a callback under a hook. -/
def enroll (id : HookId) (phase : Phase) (callback : χ) (r : Registry χ ε) : Registry χ ε :=
  { r with table := r.table.push id phase callback }

/-- Takes the hook of a function out of the engine. -/
def detach (E : Engine ε) (f : Function) (r : Registry χ ε) : Option Record × Registry χ ε :=
  let (record, engine) := E.uninstall f.address r.engine
  (record, { r with engine })

/-- Drops the callbacks of a hook. -/
def forget (id : HookId) (r : Registry χ ε) : Registry χ ε := { r with table := r.table.clear id }

/-- Takes one registration of a callback out, and says whether there was one. -/
def withdraw [DecidableEq χ] (id : HookId) (phase : Phase) (callback : χ) (r : Registry χ ε) :
    Bool × Registry χ ε :=
  let (found, table) := r.table.remove id phase callback
  (found, { r with table })

/-! ### Operations -/

/-- Registers a callback for a function, installing its hook on first use. -/
def addCallback (E : Engine ε) (f : Function) (phase : Phase) (callback : χ) (r : Registry χ ε) :
    Except Error (List Event) × Registry χ ε :=
  if f.address.isNull then (.error (.nullPointer .target), r)
  else
    match secure E f r with
    | (.error e, r) => (.error e, r)
    | (.ok ⟨record, fresh⟩, r) =>
      let told := if fresh then [.hookInstalled record.id] else []
      (.ok (told ++ [.callbackAdded record.id phase]), r.enroll record.id phase callback)

/-- Takes one registration of a callback out; nothing happens where there is none. -/
def removeCallback [DecidableEq χ] (E : Engine ε) (f : Function) (phase : Phase) (callback : χ)
    (r : Registry χ ε) : List Event × Registry χ ε :=
  match r.find E f with
  | none => ([], r)
  | some record =>
    let (found, r) := r.withdraw record.id phase callback
    (if found then [.callbackRemoved record.id phase] else [], r)

/-- Removes the hook of a function with all its callbacks, and says whether it was hooked. -/
def uninstall (E : Engine ε) (f : Function) (r : Registry χ ε) :
    Bool × List Event × Registry χ ε :=
  match detach E f r with
  | (none, r) => (false, [], r)
  | (some record, r) => (true, [.hookRemoved record.id], r.forget record.id)

/-- The function at the address that runs the unhooked code. -/
def unhooked? (E : Engine ε) (f : Function) (r : Registry χ ε) : Except Error Function :=
  if f.address.isNull then .error (.nullPointer .target)
  else
    match r.find E f with
    | some record => .ok (f.moved record.unhooked)
    | none => .error (.notHooked f.address)

end Registry

/-- Calls the unhooked code of a function through a machine, past all callbacks. -/
def callUnhooked {χ ε μ ρ : Type} (E : Engine ε) (r : Registry χ ε) (m : CallMachine μ ρ)
    (f : Function) (args : List Value) (s : μ × World ρ) : Except Error Value × (μ × World ρ) :=
  match r.unhooked? E f with
  | .error e => (.error e, s)
  | .ok g => g.call m args s

end NativeGate.Hook
