import NativeGate.Error
import NativeGate.Decimal.Shortest
import NativeGate.Text.Utf8

/-!
Values with their kind at run time, as they cross the native boundary. A value is one of the kinds
or nothing at all. `Value.coerce` fits a value to a parameter: an integer goes into any integer type
that holds it, integers widen to floating point, an integer that is an address serves as a pointer,
and no value serves as the null pointer. It is the only place where the range
of a type is asked for.
-/

namespace NativeGate

/-- A string of C: bytes without a zero byte. -/
structure CString where
  bytes : List UInt8
  noNul : (0 : UInt8) ∉ bytes
deriving DecidableEq

namespace CString

/-- The bytes as a string, when none of them is zero. -/
def of? (bytes : List UInt8) : Option CString :=
  if h : (0 : UInt8) ∈ bytes then none else some ⟨bytes, h⟩

/-- The bytes before the first zero byte. -/
def upToNul (bytes : List UInt8) : CString :=
  ⟨bytes.takeWhile (· ≠ 0), by
    induction bytes with
    | nil => simp
    | cons b rest ih =>
      rw [List.takeWhile_cons]
      split
      · rename_i hb
        simp only [decide_eq_true_eq] at hb
        simp only [List.mem_cons, not_or]
        exact ⟨fun e => hb e.symm, ih⟩
      · simp⟩

/-- The text, when the bytes are well-formed. -/
def text? (s : CString) : Option String := (Text.Utf8.decode? s.bytes).map String.ofList

/-- The text with the replacement character for what is ill-formed. -/
def lossyText (s : CString) : String := String.ofList (Text.Utf8.decodeLossy s.bytes)

end CString

/-- The bytes of a text. -/
def Text.utf8 (text : String) : List UInt8 := Text.Utf8.encode text.toList

/-- A value of any kind, or none. -/
inductive Value where
  | none
  | bool (b : Bool)
  | integer (n : NativeInt)
  | float (x : Single)
  | double (x : Double)
  | pointer (p : Address)
  | string (s : CString)
deriving DecidableEq

namespace Value

/-- The text as a value; a text with a zero byte is no string. -/
def ofText (text : String) : Except Error Value :=
  match CString.of? (Text.utf8 text) with
  | some s => .ok (.string s)
  | Option.none => .error (.argumentType 0 .string .interiorNul)

/-- The integer with the low bits of `n`, in a type of C. -/
def ofInt (k : IntKind) (n : Int) : Value := .integer (.wrapping k n)

/-- The value that is made of the bare payload of a value: a 64-bit integer does not tell which of
    the two types of that width it came from, and becomes a `long long`. -/
def ofPayload : Value → Value
  | integer ⟨.long, n, _⟩ => ofInt .longLong n
  | integer ⟨.ulong, n, _⟩ => ofInt .ulongLong n
  | v => v

def null : Value := .pointer .null

/-- The kind that the value carries; nothing is void. -/
def kind : Value → Kind
  | none => .void
  | bool _ => .bool
  | integer n => .integer n.kind
  | float _ => .float
  | double _ => .double
  | pointer _ => .pointer
  | string _ => .string

def sort : Value → ValueSort
  | none => .none
  | bool _ => .bool
  | integer _ => .int
  | float _ | double _ => .float
  | pointer _ => .pointer
  | string _ => .text

def isNone : Value → Bool
  | none => true
  | _ => false

/-- The integer that the value carries; a truth value counts as zero or one. -/
def integer? : Value → Option Int
  | bool b => some (if b then 1 else 0)
  | integer n => some n.val
  | _ => Option.none

/-- The number that the value carries, as a 64-bit floating-point number. -/
def number? : Value → Option Double
  | float x => some x.toDouble
  | double x => some x
  | v => v.integer?.map Double.ofInt

def pointer? : Value → Option Address
  | pointer p => some p
  | _ => Option.none

/-- The text of a string that is well-formed. -/
def text? : Value → Option String
  | string s => s.text?
  | _ => Option.none

/-- Equality of values: of one kind and equal, floating-point values as numbers. -/
def same : Value → Value → Bool
  | float x, float y => x.same y
  | double x, double y => x.same y
  | v, w => v == w

/-- The error of a value that does not fit its parameter: an integer is out of range, anything else
    is of the wrong sort. -/
def misfit (v : Value) (k : Kind) (index : Nat) : Error :=
  .argumentType index k <|
    match v with
    | integer n => .outOfRange n.val
    | v => .sort v.sort

/-- The value as the address it serves for. -/
def address? : Value → Option Address
  | pointer p => some p
  | none => some .null
  | integer n =>
    if FitsUnsigned 64 n.val then some (.ofNat n.val.toNat) else Option.none
  | _ => Option.none

/-- The value that passes for a parameter of kind `k`. -/
def fit? (v : Value) : Kind → Option Value
  | .void => Option.none
  | .bool =>
    match v with
    | bool _ => some v
    | _ => Option.none
  | .integer k => (v.integer?.bind (NativeInt.of? k)).map .integer
  | .float => v.number?.map fun x => .float x.toSingle
  | .double => v.number?.map .double
  | .pointer => v.address?.map .pointer
  | .string =>
    match v with
    | string _ | pointer _ => some v
    | none => some null
    | _ => Option.none

/-- Fits a value to the parameter at `index`. An out-of-range integer is only named as such where
    integers are asked for. -/
def coerce (v : Value) (k : Kind) (index : Nat) : Except Error Value :=
  match v.fit? k with
  | some w => .ok w
  | Option.none =>
    .error <|
      match k with
      | .void => .unsupportedType .voidParameter
      | .integer _ | .pointer => v.misfit k index
      | k => .argumentType index k (.sort v.sort)

/-- The value as a listing shows it, with addresses as `place` shows them. -/
def displayWith (place : Address → String) : Value → String
  | none => "None"
  | bool b => toString b
  | integer n => toString n.val
  | float x => x.display
  | double x => x.display
  | pointer p => place p
  | string s => Text.quoteChars (Text.Utf8.decodeLossy s.bytes)

def display : Value → String := displayWith Address.display

end Value

end NativeGate
