import NativeGate.Decimal.Reader
import NativeGate.Value

/-!
Values as words of a command line. The kind of the parameter decides how a word is read: a truth
value by its name or digit, a number by its decimal, a string as it stands, and everything else as
an integer in base ten or sixteen. What was read is then fitted to the parameter like any other
value. Reading computes in 128 bits; what comes of a number that does not fit there depends on the
build.
-/

namespace NativeGate.CommandLine

/-! ### Builds -/

/-- What a build does with a result that does not fit its type: it stops, or goes round. -/
inductive Build where
  | checked | wrapping

/-- The stop of a build at an operation, which would have given this result. -/
structure Overflow where
  exact : Int
deriving DecidableEq

def Overflow.message (_ : Overflow) : String := "attempt to negate with overflow"

/-- Negates an integer of 128 bits. -/
def Build.negate : Build → Int → Except Overflow Int
  | .checked, n => if FitsSigned 128 (-n) then .ok (-n) else .error ⟨-n⟩
  | .wrapping, n => .ok (Int.bmod (-n) (2 ^ (128 : Nat)))

/-- Why there is no result: an error is reported, or the build stopped. -/
inductive Failure where
  | refused (error : Error)
  | stopped (overflow : Overflow)
deriving DecidableEq

/-! ### Words -/

variable (b : Build)

/-- Reads digits after the mark of base sixteen, or else decimal digits, as a 128-bit integer; a
    sign may stand before the digits. -/
def wideInteger? (cs : List Char) : Option Int :=
  let n :=
    match cs with
    | '0' :: 'x' :: rest | '0' :: 'X' :: rest => Text.signed? 16 rest
    | _ => Text.signed? 10 cs
  n.filter (FitsSigned 128 ·)

/-- Reads an integer with an optional minus sign before the mark of its base. -/
def integer? : List Char → Except Overflow (Option Int)
  | '-' :: rest =>
    match wideInteger? rest with
    | some n => (b.negate n).map some
    | none => .ok none
  | cs => .ok (wideInteger? cs)

/-- The integer in the widest type that holds it, the signed one first. -/
def widest? (n : Int) : Option Value :=
  ((NativeInt.of? .longLong n).or (NativeInt.of? .ulongLong n)).map .integer

/-- What was read from a word; one that says nothing is refused as it stands. -/
def taken (text : String) (k : Kind) (index : Nat) : Option Value → Except Failure Value
  | some v => .ok v
  | none => .error (.refused (.argumentType index k (.word text)))

theorem taken_eq_ok_iff {text : String} {k : Kind} {index : Nat} {o : Option Value} {v : Value} :
    taken text k index o = .ok v ↔ o = some v := by
  cases o <;> simp [taken]

theorem taken_eq_error_iff {text : String} {k : Kind} {index : Nat} {o : Option Value}
    {f : Failure} : taken text k index o = .error f ↔
      o = none ∧ f = .refused (.argumentType index k (.word text)) := by
  cases o <;> simp [taken, eq_comm]

/-- What a word says before it is fitted to its parameter. -/
def rawWord (text : String) (k : Kind) (index : Nat) : Except Failure Value :=
  let read := taken text k index
  let counted := ((integer? b text.toList).mapError .stopped).bind fun n => read (n.bind widest?)
  match k with
  | .bool =>
    read <|
      if text = "true" ∨ text = "1" then some (.bool true)
      else if text = "false" ∨ text = "0" then some (.bool false)
      else none
  | .float | .double => read ((Decimal.read? text.toList).map .double)
  | .string => if text = "null" then .ok .none else (Value.ofText text).mapError .refused
  | .pointer => if text = "null" then .ok .null else counted
  | .void | .integer _ => counted

/-- Reads a word as a value for the parameter of kind `k` at `index`. -/
def readWord (text : String) (k : Kind) (index : Nat) : Except Failure Value :=
  (rawWord b text k index).bind fun v => (v.coerce k index).mapError .refused

/-- Reads words from position `index` on, one for each parameter; the first word that cannot be read
    ends the reading. -/
def readWordsFrom (index : Nat) : List String → List Kind → Except Failure (List Value)
  | w :: ws, k :: ks =>
    (readWord b w k index).bind fun v => (readWordsFrom (index + 1) ws ks).map (v :: ·)
  | _, _ => .ok []

/-- Reads the words for a function of signature `s`. -/
def readWords (s : Signature) (words : List String) : Except Failure (List Value) :=
  if s.arity ≠ words.length then .error (.refused (.argumentCount s.arity words.length))
  else readWordsFrom b 0 words s.params

end NativeGate.CommandLine
