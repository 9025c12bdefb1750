import NativeGate.Address
import NativeGate.Data.Fault

/-!
What goes wrong. An error is a cause with the facts that its message states; the wording is in
`Error.messageWith` and the short name under which failures are counted is in `Error.name`. A
message that states an address shows it through a function, so that whoever knows a better name for
a place can give it.
-/

namespace NativeGate

/-- What a value is called when it is of the wrong sort. -/
inductive ValueSort where
  | none | bool | int | float | pointer | text
deriving DecidableEq

def ValueSort.name : ValueSort → String
  | none => "None"
  | bool => "bool"
  | int => "int"
  | float => "float"
  | pointer => "Pointer"
  | text => "str"

/-- What was found in place of an argument of the expected kind. -/
inductive Found where
  | sort (s : ValueSort)
  | outOfRange (n : Int)
  | word (text : String)
  | interiorNul
  | described (text : String)
deriving DecidableEq

def Found.describe : Found → String
  | sort s => s.name
  | outOfRange n => "out-of-range integer " ++ toString n
  | word text => Text.quote text
  | interiorNul => "str with NUL byte"
  | described text => text

/-- What cannot be done with a kind. -/
inductive Unsupported where
  | voidParameter
  | returnKind (c : Char) (position : Nat)
  | readVoid
  | store (k : Kind)
  | described (text : String)
deriving DecidableEq

def Unsupported.describe : Unsupported → String
  | voidParameter => "void parameter"
  | returnKind c position =>
    "return type '" ++ String.singleton c ++ "' at position " ++ toString position
  | readVoid => "cannot read a void value"
  | store k => "cannot store " ++ k.cName ++ " through set_value"
  | described text => text

/-- What was null that must not be. -/
inductive NullSite where
  | target | pointer | stringSlot | function
  | described (text : String)
deriving DecidableEq

def NullSite.describe : NullSite → String
  | target => "function address"
  | pointer => "pointer"
  | stringSlot => "string slot"
  | function => "function pointer"
  | described text => text

/-- The bytes of a pattern in pairs of upper-case digits, a space between two pairs. -/
def Text.hexPairs (bytes : List UInt8) : String := " ".intercalate (bytes.map Text.hexByte)

/-- What went wrong with a shared library. -/
inductive LibraryFault where
  | invalidName (name : String)
  | notLoaded (name : String) (reason : String)
  | invalidSymbol (symbol : String)
  | symbolNotFound (symbol : String) (library : String)
  | invalidPattern (identifier : String)
  | emptyPattern
  | patternNotFound (pattern : List UInt8) (library : String)
  | noImage (library : String)
  | noSymbol (binary : String)
  | described (text : String)
deriving DecidableEq

def LibraryFault.message : LibraryFault → String
  | invalidName name => "invalid library name " ++ Text.quote name
  | notLoaded name reason => "failed to load " ++ name ++ ": " ++ reason
  | invalidSymbol symbol => "invalid symbol name " ++ Text.quote symbol
  | symbolNotFound symbol library => "symbol " ++ symbol ++ " not found in " ++ library
  | invalidPattern identifier => "invalid signature " ++ Text.quote identifier
  | emptyPattern => "empty signature"
  | patternNotFound pattern library =>
    "signature " ++ Text.hexPairs pattern ++ " not found in " ++ library
  | noImage library => "no mapped image found for " ++ library
  | noSymbol binary => "no linux symbol given for a function in " ++ binary
  | described text => text

/-- What went wrong with a configuration. -/
inductive ConfigFault where
  | unreadable (path : String) (reason : String)
  | malformed (fault : Data.DecodeFault)
  | unserialisable
  | unwritable (reason : String)
  | described (text : String)
deriving DecidableEq

def ConfigFault.message : ConfigFault → String
  | unreadable path reason => "Failed to read config " ++ path ++ ": " ++ reason
  | malformed fault => fault.summary .toml
  | unserialisable => "Failed to serialize config: out-of-range value for u64 type"
  | unwritable reason => "Failed to write config: " ++ reason
  | described text => text

/-- The errors of the library. -/
inductive Error where
  | nullPointer (site : NullSite)
  | malformedSignature (text : String) (fault : SignatureFault)
  | argumentCount (expected got : Nat)
  | argumentType (index : Nat) (expected : Kind) (found : Found)
  | unsupportedType (what : Unsupported)
  | notHooked (address : Address)
  | bufferOverflow (length capacity : Nat)
  | sizeUnavailable (address : Address)
  | allocationFailed (size : Nat)
  | hookInstall (address : Address) (reason : String)
  | contextBusy
  | unknownMember (owner name : String)
  | duplicateType (name : String)
  | attributeAccess (name : String) (write : Bool)
  | library (fault : LibraryFault)
  | config (fault : ConfigFault)
deriving DecidableEq

namespace Error

/-- The error of a text that is no signature. -/
def ofSignature : SignatureError → Error
  | .malformed text fault => malformedSignature text fault
  | .returnKind c position => unsupportedType (.returnKind c position)

/-- The short name under which failures are counted and logged. -/
def name : Error → String
  | nullPointer .. => "null_pointer"
  | malformedSignature .. => "malformed_signature"
  | argumentCount .. => "argument_count"
  | argumentType .. => "argument_type"
  | unsupportedType .. => "unsupported_type"
  | notHooked .. => "not_hooked"
  | bufferOverflow .. => "buffer_overflow"
  | sizeUnavailable .. => "allocation_size_unavailable"
  | allocationFailed .. => "allocation_failed"
  | hookInstall .. => "hook_install"
  | contextBusy => "context_busy"
  | unknownMember .. => "unknown_member"
  | duplicateType .. => "duplicate_type"
  | attributeAccess .. => "attribute_access"
  | library .. => "library"
  | config .. => "config"

/-- The message, with addresses as `place` shows them. -/
def messageWith (place : Address → String) : Error → String
  | nullPointer site => site.describe ++ " is NULL"
  | malformedSignature text fault => (SignatureError.malformed text fault).message
  | argumentCount expected got =>
    "signature expects " ++ toString expected ++ " arguments, got " ++ toString got
  | argumentType index expected found =>
    "argument " ++ toString index ++ ": expected " ++ expected.cName ++ ", found "
      ++ found.describe
  | unsupportedType what => "unsupported type: " ++ what.describe
  | notHooked address => "function at " ++ place address ++ " was not hooked"
  | bufferOverflow length capacity =>
    "string of " ++ toString length ++ " bytes (plus terminator) exceeds memory block of "
      ++ toString capacity ++ " bytes"
  | sizeUnavailable address => "unable to retrieve size of address " ++ place address
  | allocationFailed size => "failed to allocate " ++ toString size ++ " bytes"
  | hookInstall address reason => "failed to hook " ++ place address ++ ": " ++ reason
  | contextBusy => "call context is already in use on this thread"
  | unknownMember owner name => owner ++ " has no member '" ++ name ++ "'"
  | duplicateType name => "type '" ++ name ++ "' already exists"
  | attributeAccess name write =>
    "attribute '" ++ name ++ (if write then "' is not writeable" else "' is not readable")
  | library fault => fault.message
  | config fault => fault.message

def message : Error → String := messageWith Address.display

end Error

end NativeGate
