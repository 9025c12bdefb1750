import NativeGate.Convention
import NativeGate.Decimal.Shortest
import NativeGate.Signature
import NativeGate.Text.Quoted

/-!
Why data could not be taken for what was asked. Faults name what they found as the notation that it
came from would write it. The text of a fault may run over several lines; a report has room for one,
so `DecodeFault.summary` keeps the last line, provided that it begins like a fault, and says no more
than `syntax` otherwise.
-/

namespace NativeGate

/-- The sentence about a text that is no signature. -/
def SignatureError.message : SignatureError → String
  | malformed text fault => "malformed signature " ++ Text.quote text ++ ": " ++ fault.message
  | returnKind c position =>
    "unsupported type: return type '" ++ String.singleton c ++ "' at position " ++ toString position

namespace Data

/-- What stood where something else was expected. -/
inductive Unexpected where
  | null
  | boolean (b : Bool)
  | integer (n : Int)
  | float (x : Double)
  | text (s : String)
  | list
  | table
deriving DecidableEq

/-- Notations that data is written in. -/
inductive Source where
  | toml | json
deriving DecidableEq

/-- How data shows its numbers. In JSON those below a hundred-thousandth and from ten to the
    sixteenth on have an exponent. -/
def Source.numbers : Source → Decimal.Style
  | toml => Decimal.plain
  | json => ⟨.even, Decimal.positionalBetween (-5) 15⟩

/-- A number in data; one that would look like an integer has a point. -/
def Source.number (source : Source) (x : Double) : String :=
  let text := Decimal.write source.numbers Binary.double x.bits.toNat
  if text.toList.all fun c => c.isDigit || c == '-' then text ++ ".0" else text

def Unexpected.describe (source : Source) : Unexpected → String
  | null => "null"
  | boolean b => "boolean `" ++ toString b ++ "`"
  | integer n => "integer `" ++ toString n ++ "`"
  | float x => "floating point `" ++ source.number x ++ "`"
  | text s => "string " ++ Text.quote s
  | list => "sequence"
  | table => "map"

/-- A fault met while reading data. -/
inductive DecodeFault where
  | unreadable
  | missingField (name : String)
  | unknownVariant (found : String) (allowed : List String)
  | invalidType (found : Unexpected) (expected : String)
  | typeName (text : String)
  | conventionName (text : String)
  | signature (e : SignatureError)
deriving DecidableEq

namespace DecodeFault

def ticked (s : String) : String := "`" ++ s ++ "`"

/-- The whole text of a fault in data of a notation. -/
def text (source : Source) : DecodeFault → String
  | unreadable => "syntax"
  | missingField name => "missing field " ++ ticked name
  | unknownVariant found allowed =>
    "unknown variant " ++ ticked found ++ ", expected one of "
      ++ ", ".intercalate (allowed.map ticked)
  | invalidType found expected =>
    "invalid type: " ++ found.describe source ++ ", expected " ++ expected
  | typeName t => Kind.unknownName t
  | conventionName t => Convention.unknownName t
  | signature e => e.message

/-- How the line of a fault may begin. -/
def openings : List String :=
  ["malformed signature", "unsupported type", "unknown type name", "unknown calling convention",
    "missing field", "unknown variant", "invalid type"]

/-- The characters after the last line feed. -/
def lastLine (cs : List Char) : List Char := (cs.reverse.takeWhile (· ≠ '\n')).reverse

/-- The characters before the first mention of a line number. -/
def beforePlace : List Char → List Char
  | [] => []
  | c :: rest => if " at line ".toList.isPrefixOf (c :: rest) then [] else c :: beforePlace rest

/-- The one line that is reported of a fault. -/
def summary (source : Source) (f : DecodeFault) : String :=
  let line := lastLine (f.text source).toList
  if openings.any fun o => o.toList.isPrefixOf line then String.ofList (beforePlace line)
  else "syntax"

end DecodeFault

end Data

end NativeGate
