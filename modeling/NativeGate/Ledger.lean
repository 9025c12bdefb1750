import NativeGate.Event

/-!
The ledger: every event so far, and the counters that sum them up. Counters are 64-bit words and go
round. `Ledger.note` is the only way to write.
-/

namespace NativeGate

/-- Counters of the interop work of a process. -/
structure Counters where
  callsMade : Nat
  callFailures : Nat
  hooksInstalled : Nat
  callbacksRun : Nat
  librariesLoaded : Nat
  /-- How often each failure name was counted, in order of first arrival. -/
  failures : List (String × Nat)
deriving DecidableEq

namespace Counters

def zero : Counters := ⟨0, 0, 0, 0, 0, []⟩

def recordCall (c : Counters) : Counters :=
  { c with callsMade := (c.callsMade + 1) % wordCount }

def recordFailure (c : Counters) : Counters :=
  { c with callFailures := (c.callFailures + 1) % wordCount }

def recordHook (c : Counters) : Counters :=
  { c with hooksInstalled := (c.hooksInstalled + 1) % wordCount }

def recordCallbacks (n : Nat) (c : Counters) : Counters :=
  { c with callbacksRun := (c.callbacksRun + n) % wordCount }

def recordLibrary (c : Counters) : Counters :=
  { c with librariesLoaded := (c.librariesLoaded + 1) % wordCount }

/-- Adds one under a name, which goes to the end when it is new. -/
def bump (name : String) : List (String × Nat) → List (String × Nat)
  | [] => [(name, 1)]
  | (n, count) :: rest =>
    if n = name then (n, (count + 1) % wordCount) :: rest else (n, count) :: bump name rest

def recordError (name : String) (c : Counters) : Counters :=
  { c with failures := bump name c.failures }

/-- How often a failure name was counted. -/
def errors (c : Counters) (name : String) : Nat := (c.failures.lookup name).getD 0

/-- What an event adds to the counters. A rejected call is a failure and is counted by name. -/
def tally (c : Counters) : Event → Counters
  | .called => c.recordCall
  | .rejected error => c.recordFailure.recordError error.name
  | .hookInstalled _ => c.recordHook
  | .callbacksRunning _ _ count => c.recordCallbacks count
  | .libraryLoaded _ => c.recordLibrary
  | _ => c

/-- The lines of the report, failures in the order of their names. -/
def report (c : Counters) : List String :=
  let line (name : String) (n : Nat) := name ++ ": " ++ toString n
  let failures := c.failures.mergeSort fun a b => a.1 ≤ b.1
  ["", "=== Interop ===", line "calls_made" c.callsMade, line "call_failures" c.callFailures,
    line "hooks_installed" c.hooksInstalled, line "callbacks_run" c.callbacksRun,
    line "libraries_loaded" c.librariesLoaded]
  ++ if failures.isEmpty then []
     else ["", "=== Failures ==="] ++ failures.map fun f => line f.1 f.2

end Counters

/-- All events, the latest first, and their counters. -/
structure Ledger where
  events : List Event
  counters : Counters

namespace Ledger

def empty : Ledger := ⟨[], .zero⟩

def note (l : Ledger) (e : Event) : Ledger := ⟨e :: l.events, l.counters.tally e⟩

/-- Enters everything that another ledger holds, behind what is there. -/
def append (l later : Ledger) : Ledger := later.events.foldr (fun e l => l.note e) l

/-- The lines told so far, in order. -/
def lines (l : Ledger) : List Log.Line := l.events.reverse.filterMap Event.line?

end Ledger

end NativeGate
