import NativeGate.Integer

/-!
Kinds: what a parameter, a result or a field of native memory is. Each kind is spelled by one
letter in signatures, by a C name in messages and by a lower-case name in configuration files. The
letter tables are each other's inverse (`ofLetter?_eq_some_iff`).
-/

namespace NativeGate

/-- The kinds of value that cross the native boundary. -/
inductive Kind where
  | void
  | bool
  | integer (k : IntKind)
  | float
  | double
  | pointer
  | string
deriving DecidableEq

namespace Kind

/-- Every kind, in the order of the letter table. -/
def all : List Kind :=
  [void, bool, integer .char, integer .uchar, integer .short, integer .ushort, integer .int,
    integer .uint, integer .long, integer .ulong, integer .longLong, integer .ulongLong, float,
    double, pointer, string]

/-- The letter of a kind in a signature. -/
def letter : Kind → Char
  | void => 'v'
  | bool => 'B'
  | integer .char => 'c'
  | integer .uchar => 'C'
  | integer .short => 's'
  | integer .ushort => 'S'
  | integer .int => 'i'
  | integer .uint => 'I'
  | integer .long => 'j'
  | integer .ulong => 'J'
  | integer .longLong => 'l'
  | integer .ulongLong => 'L'
  | float => 'f'
  | double => 'd'
  | pointer => 'p'
  | string => 'Z'

/-- The kind that a letter spells. -/
def ofLetter? : Char → Option Kind
  | 'v' => some void
  | 'B' => some bool
  | 'c' => some (integer .char)
  | 'C' => some (integer .uchar)
  | 's' => some (integer .short)
  | 'S' => some (integer .ushort)
  | 'i' => some (integer .int)
  | 'I' => some (integer .uint)
  | 'j' => some (integer .long)
  | 'J' => some (integer .ulong)
  | 'l' => some (integer .longLong)
  | 'L' => some (integer .ulongLong)
  | 'f' => some float
  | 'd' => some double
  | 'p' => some pointer
  | 'Z' => some string
  | _ => none

theorem ofLetter?_letter (k : Kind) : ofLetter? k.letter = some k := by
  rcases k with _ | _ | k | _ | _ | _ | _
  case integer => cases k <;> rfl
  all_goals rfl

theorem letter_of_ofLetter? {c : Char} {k : Kind} (h : ofLetter? c = some k) : k.letter = c := by
  unfold ofLetter? at h
  split at h <;> cases h <;> rfl

theorem ofLetter?_eq_some_iff {c : Char} {k : Kind} : ofLetter? c = some k ↔ k.letter = c :=
  ⟨letter_of_ofLetter?, fun h => h ▸ ofLetter?_letter k⟩

/-- Bytes that a stored value of the kind takes. -/
def size : Kind → Nat
  | void => 0
  | bool => 1
  | integer k => k.bytes
  | float => 4
  | double | pointer | string => 8

def isIntegral : Kind → Bool
  | integer _ => true
  | _ => false

/-- The C type, as messages write it. -/
def cName : Kind → String
  | void => "void"
  | bool => "bool"
  | integer .char => "char"
  | integer .uchar => "unsigned char"
  | integer .short => "short"
  | integer .ushort => "unsigned short"
  | integer .int => "int"
  | integer .uint => "unsigned int"
  | integer .long => "long"
  | integer .ulong => "unsigned long"
  | integer .longLong => "long long"
  | integer .ulongLong => "unsigned long long"
  | float => "float"
  | double => "double"
  | pointer => "void*"
  | string => "char*"

/-- The name that listings of kinds show. -/
def title : Kind → String
  | void => "Void"
  | bool => "Bool"
  | integer .char => "Char"
  | integer .uchar => "UChar"
  | integer .short => "Short"
  | integer .ushort => "UShort"
  | integer .int => "Int"
  | integer .uint => "UInt"
  | integer .long => "Long"
  | integer .ulong => "ULong"
  | integer .longLong => "LongLong"
  | integer .ulongLong => "ULongLong"
  | float => "Float"
  | double => "Double"
  | pointer => "Pointer"
  | string => "String"

/-- The name that configuration files write. -/
def configName : Kind → String
  | void => "void"
  | bool => "bool"
  | integer .char => "char"
  | integer .uchar => "uchar"
  | integer .short => "short"
  | integer .ushort => "ushort"
  | integer .int => "int"
  | integer .uint => "uint"
  | integer .long => "long"
  | integer .ulong => "ulong"
  | integer .longLong => "long_long"
  | integer .ulongLong => "ulong_long"
  | float => "float"
  | double => "double"
  | pointer => "ptr"
  | string => "string"

/-- The kind of a lower-case name, the written one or another that is read. -/
def ofName? : String → Option Kind
  | "void" => some void
  | "bool" => some bool
  | "char" => some (integer .char)
  | "uchar" => some (integer .uchar)
  | "short" => some (integer .short)
  | "ushort" => some (integer .ushort)
  | "int" => some (integer .int)
  | "uint" => some (integer .uint)
  | "long" => some (integer .long)
  | "ulong" => some (integer .ulong)
  | "long_long" | "longlong" => some (integer .longLong)
  | "ulong_long" | "ulonglong" => some (integer .ulongLong)
  | "float" => some float
  | "double" => some double
  | "ptr" | "pointer" => some pointer
  | "string" | "str" => some string
  | _ => none

/-- Reads a kind from a letter of the table, or from a name in any ASCII case. -/
def parse? (text : String) : Option Kind :=
  match text.toList with
  | [c] => ofLetter? c <|> ofName? text.toLower
  | _ => ofName? text.toLower

/-- What is said of a text that names no kind. -/
def unknownName (text : String) : String := "unknown type name '" ++ text ++ "'"

theorem ofName?_configName (k : Kind) : ofName? k.configName = some k := by
  rcases k with _ | _ | k | _ | _ | _ | _
  case integer => cases k <;> rfl
  all_goals rfl

end Kind

end NativeGate
