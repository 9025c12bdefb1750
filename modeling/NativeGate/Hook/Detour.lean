import NativeGate.Call.Gate
import NativeGate.Hook.Bridge
import NativeGate.Hook.Registry

/-!
Detours: hooks in the code itself. The engine redirects an address and moves the code that was there
to another entry; some addresses it must refuse. A redirected call is answered in place of the code:
the argument words are decoded by kind, the bridge runs, the moved code is called with what the
callbacks left, and the value is encoded again as the result word. An argument or a result that no
callback changed crosses as the word it was, so that strings keep their addresses.
-/

namespace NativeGate.Hook

/-! ### The engine -/

/-- An installed detour: its record and the function that it redirects. -/
structure Detour where
  record : Record
  function : Function

/-- The installed detours, the latest first, and how many installations were tried. -/
structure Detours where
  installed : List Detour
  attempts : Nat

/-- The code that detours are put into: why an address cannot be redirected, and how far the code of
    an address is moved. -/
structure Site where
  refusal : Address → Option String
  displacement : Int

namespace Detours

def none : Detours := ⟨[], 0⟩

/-- The detour at an address. -/
def at? (d : Detours) (a : Address) : Option Detour :=
  d.installed.find? fun x => x.record.target = a

/-- The detour whose moved code begins at an address. -/
def movedTo? (d : Detours) (a : Address) : Option Detour :=
  d.installed.find? fun x => x.record.unhooked = a

def engine (site : Site) : Engine Detours where
  find d a := (d.at? a).map (·.record)
  install f id d :=
    let d := { d with attempts := d.attempts + 1 }
    match site.refusal f.address with
    | some reason => (.error (.hookInstall f.address reason), d)
    | Option.none =>
      let record : Record := ⟨id, f.address, f.address.add site.displacement⟩
      (.ok record, { d with installed := ⟨record, f⟩ :: d.installed })
  uninstall a d :=
    let kept := d.installed.filter fun x => x.record.target ≠ a
    ((d.at? a).map (·.record), { d with installed := kept })

end Detours

/-! ### The redirected call -/

/-- The value of an argument word; a string is taken by its address. -/
def decodeArgument (k : Kind) (x : UInt64) : Value :=
  match k with
  | .string => Value.ofWord .pointer x
  | k => Value.ofWord k x

/-- The arguments for the moved code: where a callback left what it was shown, the raw argument. -/
def passed (args shown raw : List Value) : List Value :=
  (args.zip (shown.zip raw)).map fun (arg, seen, raw) => if arg.same seen then raw else arg

/-- The value that a result word is made of: a text is put into memory, and any other value is
    fitted to the kind or else nothing. -/
def resultValue {ρ : Type} (hook : HookId) (k : Kind) (v : Value) (w : World ρ) :
    Value × World ρ :=
  match k, v with
  | .void, _ => (.none, w)
  | .string, .string s =>
    let (a, w) := w.place s.bytes
    (.pointer a, w)
  | k, v =>
    match v.coerce k 0 with
    | .ok v => (v, w)
    | .error _ => (.none, w.note (.resultReplaced hook))

/-- The result word for a value, zero where it does not fit the kind. -/
def encodeResult {ρ : Type} (hook : HookId) (k : Kind) (v : Value) (w : World ρ) :
    UInt64 × World ρ :=
  let (v, w) := resultValue hook k v w
  (v.word, w)

/-- Calls the moved code through a machine of its own; a call that is refused gives nothing. -/
def callMoved {ρ : Type} (code : Code ρ) (hook : HookId) (f : Function) (args : List Value)
    (w : World ρ) : Value × World ρ :=
  match f.callRaw (Gate.machine code) args (Gate.fresh, w) with
  | (.ok v, _, w) => (v, w)
  | (.error _, _, w) => (.none, w.note (.movedCallFailed hook))

/-- The arguments of a redirected call as its words carry them. -/
def rawArguments (sig : Signature) (words : List UInt64) : List Value :=
  (sig.params.zip words).map fun (k, x) => decodeArgument k x

/-- The arguments as callbacks are shown them. -/
def shownArguments (m : Memory) (sig : Signature) (raw : List Value) : List Value :=
  (sig.params.zip raw).map fun (k, v) => v.received m k

/-- Runs the moved code for what callbacks left of the arguments; it leaves the result as callbacks
    see it, and the result as it was. -/
def runMoved {ρ : Type} (code : Code ρ) (hook : HookId) (f : Function) (shown raw args : List Value)
    (w : World ρ) : (Value × (Value × Value)) × World ρ :=
  let (rawResult, w) := callMoved code hook f (passed args shown raw) w
  let seen := rawResult.received w.memory f.signature.ret
  ((seen, (seen, rawResult)), w)

/-- The value that crosses back: where callbacks left the result they were shown, the raw result. -/
def returned (outcome : Stage.Outcome (Value × Value)) : Value :=
  match outcome.left with
  | some (seen, rawResult) => if seen.same outcome.value then rawResult else outcome.value
  | none => outcome.value

/-- Answers a redirected call. -/
def answer {χ ρ : Type} (stage : Stage χ (World ρ)) (code : Code ρ) (hook : HookId)
    (f : Function) (words : List UInt64) (w : World ρ) : UInt64 × World ρ :=
  let raw := rawArguments f.signature words
  let shown := shownArguments w.memory f.signature raw
  let (outcome, w) := stage.dispatch hook shown (runMoved code hook f shown raw) w
  encodeResult hook f.signature.ret (returned outcome) w

end NativeGate.Hook
