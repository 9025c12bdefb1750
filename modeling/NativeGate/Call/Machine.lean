import NativeGate.Call.Function

/-!
Call machines and dispatch. A machine takes a call in small steps: it is reset, told the convention,
given one argument after the other and then told to invoke. `Function.call` drives any machine
through exactly these steps, once all arguments are fitted; a call that is refused takes no step and
leaves a note of the refusal and nothing else.
-/

namespace NativeGate

/-- The steps of a call machine with state `μ` in a world with native state `ρ`. -/
structure CallMachine (μ ρ : Type) where
  reset : μ × World ρ → μ × World ρ
  setMode : Convention → μ × World ρ → μ × World ρ
  push : Value → μ × World ρ → μ × World ρ
  invoke : Address → Kind → μ × World ρ → Value × (μ × World ρ)
  lastError : μ → Int

variable {μ ρ : Type}

/-- Notes an event in the world beside a machine. -/
def noted (e : Event) (s : μ × World ρ) : μ × World ρ := (s.1, s.2.note e)

/-- One call on a machine, with arguments that fit. -/
def CallMachine.execute (m : CallMachine μ ρ) (f : Function) (args : List Value)
    (s : μ × World ρ) : Value × (μ × World ρ) :=
  let ready := m.setMode f.convention (m.reset s)
  m.invoke f.address f.signature.ret (args.foldl (fun s v => m.push v s) ready)

namespace Function

/-- Calls through a machine and keeps the machine's result as it is. -/
def callRaw (m : CallMachine μ ρ) (f : Function) (args : List Value) (s : μ × World ρ) :
    Except Error Value × (μ × World ρ) :=
  match f.prepare args with
  | .error e => (.error e, noted (.rejected e) s)
  | .ok args =>
    let (raw, s) := m.execute f args (noted (.calling f.convention f.signature) s)
    (.ok raw, noted .called s)

/-- Calls through a machine; a string comes back as its text. -/
def call (m : CallMachine μ ρ) (f : Function) (args : List Value) (s : μ × World ρ) :
    Except Error Value × (μ × World ρ) :=
  let (result, s) := f.callRaw m args s
  (result.map (Value.received s.2.memory f.signature.ret), s)

end Function

end NativeGate
