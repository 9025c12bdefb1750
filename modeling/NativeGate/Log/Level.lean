import NativeGate.Text.Digits

/-!
Log levels, from the errors that are always worth a line to the trace of every step. A filter names
the lowest level that it lets through, or lets nothing through.
-/

namespace NativeGate.Log

inductive Level where
  | error | warn | info | debug | trace
deriving DecidableEq

namespace Level

/-- How much is said at the level; errors are rank one. -/
def rank : Level → Nat
  | error => 1
  | warn => 2
  | info => 3
  | debug => 4
  | trace => 5

def name : Level → String
  | error => "ERROR"
  | warn => "WARN"
  | info => "INFO"
  | debug => "DEBUG"
  | trace => "TRACE"

def all : List Level := [error, warn, info, debug, trace]

/-- The level of a name in upper case. -/
def ofName? (text : String) : Option Level := all.find? fun l => l.name == text

def ofRank? (n : Nat) : Option Level := all.find? fun l => l.rank == n

/-- Reads a level from its name in any case or from its rank. -/
def parse? (text : String) : Option Level :=
  match Text.unsigned? 10 text.toList with
  | some n => ofRank? n
  | none => ofName? text.toUpper

end Level

/-- The lowest level that passes, or none. -/
structure Threshold where
  level? : Option Level
deriving DecidableEq

namespace Threshold

def upTo (l : Level) : Threshold := ⟨some l⟩

def off : Threshold := ⟨none⟩

def passes (t : Threshold) (l : Level) : Bool :=
  match t.level? with
  | some floor => l.rank ≤ floor.rank
  | none => false

/-- Reads a threshold: a level's name or the word for none in any case, or a rank, where zero is
    none. -/
def parse? (text : String) : Option Threshold :=
  match Text.unsigned? 10 text.toList with
  | some 0 => some off
  | some n => (Level.ofRank? n).map upTo
  | none => if text.toUpper = "OFF" then some off else (Level.ofName? text.toUpper).map upTo

end Threshold

end NativeGate.Log
