import NativeGate.Call.Function
import NativeGate.Library.Pattern

/-!
Shared libraries. A loader finds images by name; an image has symbols and regions of code. What is
looked for in a library is named by an identifier, which is a symbol or a byte pattern, and a
pattern is found at its first occurrence in the code.
-/

namespace NativeGate

/-- A run of code bytes at an address. -/
structure Region where
  start : Address
  code : List UInt8

/-- A shared object: its symbols, and its code where that can be seen. -/
structure Image where
  symbol? : String → Option Address
  regions? : Option (List Region)

/-- Finds the image of a file name, or says why there is none. -/
structure Loader where
  image : String → Except String Image

/-- A loaded library, under the name it was asked for by. -/
structure Library where
  name : String
  image : Image

namespace Library

/-- The file name of the C library on this system. -/
def systemName : String := "libc.so.6"

def isName (text : String) : Bool := '\x00' ∉ text.toList

/-- Loads a library by name or path. -/
def load (loader : Loader) (name : String) : Except Error Library :=
  if !isName name then .error (.library (.invalidName name))
  else
    match loader.image name with
    | .ok image => .ok ⟨name, image⟩
    | .error reason => .error (.library (.notLoaded name reason))

/-- The names tried for a bare name that is not itself the name of a library. -/
def candidates (name : String) : List String := ["lib" ++ name ++ ".so", "lib" ++ name ++ ".so.6"]

/-- A name with a separator in it is a path. -/
def isPath (name : String) : Bool := name.toList.any fun c => c = '/' || c = '\\'

/-- Loads a library by name, or a bare name by the file names it may stand for; the failure that is
    reported is the first. -/
def find (loader : Loader) (name : String) : Except Error Library :=
  match load loader name with
  | .ok library => .ok library
  | .error first =>
    if isPath name then .error first
    else
      match (candidates name).findSome? fun c => (load loader c).toOption with
      | some library => .ok library
      | none => .error first

/-- Address of an exported symbol. -/
def symbol (l : Library) (name : String) : Except Error Address :=
  if !isName name then .error (.library (.invalidSymbol name))
  else
    match l.image.symbol? name with
    | some a => .ok a
    | none => .error (.library (.symbolNotFound name l.name))

/-- How many bytes before the first occurrence of a pattern. -/
def firstMatch? (pattern : List UInt8) : List UInt8 → Option Nat
  | [] => if pattern.isEmpty then some 0 else none
  | b :: rest =>
    if pattern.isPrefixOf (b :: rest) then some 0 else (firstMatch? pattern rest).map (· + 1)

/-- The first occurrence of a pattern in regions of code. -/
def scan (pattern : List UInt8) (regions : List Region) : Option Address :=
  regions.findSome? fun r => (firstMatch? pattern r.code).map fun n => r.start.add n

/-- Address of the first occurrence of a pattern in the code. -/
def findPattern (l : Library) (pattern : List UInt8) : Except Error Address :=
  if pattern.isEmpty then .error (.library .emptyPattern)
  else
    match l.image.regions? with
    | none => .error (.library (.noImage l.name))
    | some regions =>
      match scan pattern regions with
      | some a => .ok a
      | none => .error (.library (.patternNotFound pattern l.name))

/-- Address of what an identifier names. -/
def resolve (l : Library) (identifier : String) : Except Error Address :=
  (Pattern.parse identifier).bind fun
    | some pattern => l.findPattern pattern
    | none => l.symbol identifier

/-- The function that an identifier names; the signature is read once the address is known. -/
def function (l : Library) (identifier : String) (convention : Convention) (signature : String) :
    Except Error Function :=
  (l.resolve identifier).bind fun a =>
    (Function.parse a convention signature).mapError Error.ofSignature

/-- The library as a listing shows it, on one line or with a line for each part. -/
def describe (l : Library) (handle : String) (overLines : Bool) : String :=
  let parts := ["name: " ++ Text.quote l.name, "handle: " ++ handle]
  if overLines then
    "Library \x7b\n" ++ String.join (parts.map fun part => "    " ++ part ++ ",\n") ++ "\x7d"
  else "Library \x7b " ++ ", ".intercalate parts ++ " \x7d"

/-! ### In a world -/

variable {ρ : Type}

/-- Loads a library and tells of it. -/
def opened (found : Except Error Library) (w : World ρ) : Except Error Library × World ρ :=
  match found with
  | .ok l => (.ok l, w.note (.libraryLoaded l.name))
  | .error e => (.error e, w)

/-- What an identifier names, with a note of a pattern that was found. -/
def resolved (l : Library) (identifier : String) (w : World ρ) : Except Error Address × World ρ :=
  match Pattern.parse identifier, l.resolve identifier with
  | .ok (some _), .ok a => (.ok a, w.note (.patternFound l.name))
  | _, r => (r, w)

end Library

end NativeGate
