import NativeGate.Call.Machine

/-!
A machine that calls nothing. It records the steps it is taken through and answers every invocation
with a given reply, for looking at what a call would do.
-/

namespace NativeGate

/-- What a recording machine has seen. -/
structure Recorder where
  resets : Nat
  mode : Option Convention
  pushed : List Value
  invoked : List (Address × Kind)

namespace Recorder

def fresh : Recorder := ⟨0, none, [], []⟩

/-- The error code: that of a convention the machine does not have. -/
def lastError (r : Recorder) : Int := if r.mode = some .fastcall then -1 else 0

/-- The machine that records, with what it replies. -/
def machine {ρ : Type} (reply : World ρ → Value × World ρ) : CallMachine Recorder ρ where
  reset s := ({ s.1 with resets := s.1.resets + 1, pushed := [] }, s.2)
  setMode c s := ({ s.1 with mode := some c }, s.2)
  push v s := ({ s.1 with pushed := s.1.pushed ++ [v] }, s.2)
  invoke a k s :=
    let (v, w) := reply s.2
    (v, { s.1 with invoked := s.1.invoked ++ [(a, k)] }, w)
  lastError := lastError

end Recorder

end NativeGate
