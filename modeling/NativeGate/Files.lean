import NativeGate.Dict

/-!
Files as programs see them: texts under paths, and a current directory. Paths are followed part by
part from the root or from the current directory; a part may name the directory itself or the one
above it. There is a directory wherever a file or another known directory lies below. Paths and
their parts have a greatest length, in bytes.
-/

namespace NativeGate

/-- Why a file could not be read. -/
inductive FileFault where
  | missing | isDirectory | notDirectory | nameTooLong | interiorNul
deriving DecidableEq

namespace FileFault

/-- The fault in words. -/
def reason : FileFault → String
  | missing => "No such file or directory"
  | isDirectory => "Is a directory"
  | notDirectory => "Not a directory"
  | nameTooLong => "File name too long"
  | interiorNul => "file name contained an unexpected NUL byte"

/-- The number that the system gives the fault; it never sees a path with a NUL. -/
def number? : FileFault → Option Nat
  | missing => some 2
  | isDirectory => some 21
  | notDirectory => some 20
  | nameTooLong => some 36
  | interiorNul => none

/-- The fault as messages show it. -/
def message (f : FileFault) : String :=
  f.reason ++ f.number?.elim "" fun n => " (os error " ++ toString n ++ ")"

end FileFault

/-- Texts by the parts of their paths, and the current directory. -/
structure Files where
  texts : List (List String × String)
  current : List String

namespace Files

/-- The parts of a path; empty parts say nothing. -/
def parts (path : String) : List String := (path.splitOn "/").filter fun part => part ≠ ""

/-- No files. -/
def empty : Files := ⟨[], []⟩

/-- The files of a dictionary of texts under paths from the root. -/
def ofTexts (texts : List (String × String)) (current : String) : Files :=
  ⟨texts.map fun t => (parts t.1, t.2), parts current⟩

def text? (f : Files) (place : List String) : Option String := f.texts.lookup place

def isDirectory (f : Files) (place : List String) : Bool :=
  (f.text? place).isNone
    && (place.isPrefixOf f.current || f.texts.any fun t => place.isPrefixOf t.1)

/-- The most bytes that a part of a path may have. -/
def partLimit : Nat := 255

/-- The most bytes that a path may have. -/
def pathLimit : Nat := 4095

/-- Follows parts from a directory; only a directory can be followed further. -/
def follow (f : Files) (place : List String) : List String → Except FileFault (List String)
  | [] => .ok place
  | part :: rest =>
    if (f.text? place).isSome then .error .notDirectory
    else if !f.isDirectory place then .error .missing
    else if part = "." then follow f place rest
    else if part = ".." then follow f place.dropLast rest
    else if partLimit < part.utf8ByteSize then .error .nameTooLong
    else follow f (place ++ [part]) rest

/-- The place of a path; a path that begins at the root leaves the current directory aside. A
    slash at the end asks for a directory. -/
def place (f : Files) (path : String) : Except FileFault (List String) :=
  if path = "" then .error .missing
  else if path.toList.contains '\x00' then .error .interiorNul
  else if pathLimit < path.utf8ByteSize then .error .nameTooLong
  else
    let start := if path.startsWith "/" then [] else f.current
    f.follow start (parts path ++ if path.endsWith "/" then ["."] else [])

/-- The text of a file. -/
def read (f : Files) (path : String) : Except FileFault String :=
  (f.place path).bind fun place =>
    match f.text? place with
    | some text => .ok text
    | none => .error (if f.isDirectory place then .isDirectory else .missing)

/-- Writes a text to a file, in place of the one that was there. -/
def write (f : Files) (path text : String) : Except FileFault Files :=
  (f.place path).bind fun place =>
    if f.isDirectory place then .error .isDirectory
    else .ok { f with texts := (place, text) :: f.texts.filter fun t => t.1 ≠ place }

/-- The nearest file of a name in a directory or above it. -/
def nearest (f : Files) (name : String) : Nat → List String → Option (List String)
  | 0, directory =>
    if (f.text? (directory ++ [name])).isSome then some (directory ++ [name]) else none
  | above + 1, directory =>
    if (f.text? (directory ++ [name])).isSome then some (directory ++ [name])
    else f.nearest name above directory.dropLast

/-- The nearest file of a name in the current directory or above it. -/
def discover (f : Files) (name : String) : Option (List String) :=
  f.nearest name f.current.length f.current

/-- A place as a path from the root. -/
def path (place : List String) : String := "/".intercalate place

end Files

end NativeGate
