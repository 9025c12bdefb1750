import NativeGate.Data.Record
import NativeGate.Layout.Spec

/-!
The written form of layouts. Every part of a layout has a tree, in which a part that is not set is
null, a converter that is not set has no entry, and the name is left to the entry that the layout
stands under. Reading gives defaults to what is missing.
-/

namespace NativeGate.Layout
open Data

/-- Reads the name of a kind. -/
def readKind : Reader Kind :=
  readParsed fun s => (Kind.parse? s).elim (.error (.typeName s)) .ok

/-- Reads the name of a convention. -/
def readConvention : Reader Convention :=
  readParsed fun s => (Convention.parse? s).elim (.error (.conventionName s)) .ok

/-- Reads the text of a signature. -/
def readSignature : Reader Signature :=
  readParsed fun s => (Signature.parse s).mapError .signature

def readAccess (source : Source) : Reader Access :=
  readChoice source (Access.all.map fun a => (a.name, a))

/-- The entry of a converter, if there is one. -/
def converterEntry : Option String → List (String × Tree)
  | some name => [("converter", .text name)]
  | none => []

/-- An entry that is a text or null. -/
def textEntry (name : String) (s : Option String) : String × Tree := (name, .ofOption .text s)

/-- An entry that is a count or null. -/
def countEntry (name : String) (n : Option UInt64) : String × Tree :=
  (name, .ofOption (fun n => .integer n.toNat) n)

namespace Attribute

def fields : List String := ["type", "offset", "is_ptr", "size", "access", "converter"]

def read (source : Source) : Reader Attribute := fun t => do
  let r ← Record.ofTree source "Attribute" fields t
  r.scan [Record.check "type" readKind, Record.check "offset" readOffset,
    Record.check "is_ptr" readBoolean, Record.check "size" (readOptional readCount),
    Record.check "access" (readAccess source), Record.check "converter" (readOptional readText)]
  let kind ← r.required "type" readKind
  let offset ← r.required "offset" readOffset
  let indirect ← r.optional "is_ptr" readBoolean false
  let capacity ← r.optional "size" (readOptional readCount) none
  let access ← r.optional "access" (readAccess source) .readWrite
  let converter ← r.optional "converter" (readOptional readText) none
  r.close
  return ⟨kind, offset, indirect, capacity, access, converter⟩

def tree (a : Attribute) : Tree :=
  .table <|
    [("type", .text a.kind.configName), ("offset", .integer a.offset.toInt),
      ("is_ptr", .boolean a.indirect), countEntry "size" a.capacity,
      ("access", .text a.access.name)]
    ++ converterEntry a.converter

end Attribute

namespace FunctionSpec

/-- Reads the entry of a function. The names on the several systems are entries like all others, but
    they are looked at last. -/
def read : Reader FunctionSpec := fun t => do
  let r ← Record.ofTable "FunctionSpec" t
  r.scan [Record.check "binary" readText, Record.check "convention" readConvention,
    Record.check "parameters" readSignature, Record.check "converter" (readOptional readText)]
  let binary ← r.required "binary" readText
  let convention ← r.optional "convention" readConvention .cdecl
  let signature ← r.required "parameters" readSignature
  let converter ← r.optional "converter" (readOptional readText) none
  let systems := ["linux", "windows", "macos"]
  r.scan (systems.map fun system => Record.check system (readOptional readText))
  let linux ← r.optional "linux" (readOptional readText) none
  let windows ← r.optional "windows" (readOptional readText) none
  let macos ← r.optional "macos" (readOptional readText) none
  return ⟨binary, ⟨linux, windows, macos⟩, convention, signature, converter⟩

def tree (f : FunctionSpec) : Tree :=
  .table <|
    [("binary", .text f.binary), textEntry "linux" f.symbols.linux,
      textEntry "windows" f.symbols.windows, textEntry "macos" f.symbols.macos,
      ("convention", .text f.convention.name), ("parameters", .text f.signature.text)]
    ++ converterEntry f.converter

end FunctionSpec

namespace VirtualSpec

def fields : List String := ["index", "convention", "parameters", "platform_check", "converter"]

def read (source : Source) : Reader VirtualSpec := fun t => do
  let r ← Record.ofTree source "VirtualFunctionSpec" fields t
  r.scan [Record.check "index" readCount, Record.check "convention" readConvention,
    Record.check "parameters" readSignature, Record.check "platform_check" readBoolean,
    Record.check "converter" (readOptional readText)]
  let index ← r.required "index" readCount
  let convention ← r.optional "convention" readConvention .cdecl
  let signature ← r.required "parameters" readSignature
  let shifted ← r.optional "platform_check" readBoolean true
  let converter ← r.optional "converter" (readOptional readText) none
  r.close
  return ⟨index, convention, signature, shifted, converter⟩

def tree (f : VirtualSpec) : Tree :=
  .table <|
    [("index", .integer f.index.toNat), ("convention", .text f.convention.name),
      ("parameters", .text f.signature.text), ("platform_check", .boolean f.shifted)]
    ++ converterEntry f.converter

end VirtualSpec

namespace TypeLayout

def fields : List String := ["size", "attributes", "functions", "virtual_functions"]

/-- Reads a layout, which has no name yet. -/
def read (source : Source) : Reader TypeLayout := fun t => do
  let attributes := readDict (Attribute.read source)
  let functions := readDict FunctionSpec.read
  let virtuals := readDict (VirtualSpec.read source)
  let r ← Record.ofTree source "TypeLayout" fields t
  r.scan [Record.check "size" (readOptional readCount), Record.check "attributes" attributes,
    Record.check "functions" functions, Record.check "virtual_functions" virtuals]
  let size ← r.optional "size" (readOptional readCount) none
  let attributes ← r.optional "attributes" attributes .empty
  let functions ← r.optional "functions" functions .empty
  let virtuals ← r.optional "virtual_functions" virtuals .empty
  r.close
  return ⟨"", size, attributes, functions, virtuals⟩

def tree (l : TypeLayout) : Tree :=
  .table
    [countEntry "size" l.size, ("attributes", writeDict Attribute.tree l.attributes),
      ("functions", writeDict FunctionSpec.tree l.functions),
      ("virtual_functions", writeDict VirtualSpec.tree l.virtuals)]

end TypeLayout

end NativeGate.Layout
