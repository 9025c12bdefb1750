import NativeGate.Files
import NativeGate.Library
import NativeGate.Sample.Natives

/-!
Sample images: the library that exports the sample functions, the C library, and the program itself.
The sample library has three marks in its code, runs of bytes that stand nowhere else.
-/

namespace NativeGate.Sample

/-- The marks of the sample library, one behind the other. -/
def marks : List (List UInt8) :=
  [[0xF4, 0x0F, 0x0B, 0xA1, 0xB2, 0xC3, 0xD4, 0xE5, 0xF6, 0x17, 0x28, 0x39],
    [0xF4, 0x0F, 0x0B, 0xA1, 0xB2, 0xC3, 0xD4, 0xE5, 0xF6, 0x17, 0x28, 0x4A],
    [0x0F, 0x0B, 0x00, 0xFF, 0x5A, 0x6B, 0x7C, 0x8D, 0x9E, 0xAF, 0x10, 0x21]]

/-- Where the marks begin. -/
def marksStart : Address := .ofNat 0x5c0000000000

/-- The symbols of the marks. -/
def markSymbols : List (String × Address) :=
  [("fx_mark_a", marksStart), ("fx_mark_b", marksStart.add 12), ("fx_mark_c", marksStart.add 24)]

/-- The address of a native, if it is in the list. -/
def exportedBy (natives : List Native) (name : String) : Option Address :=
  if natives.any fun n => n.name == name then locate? name else none

/-- The C library. -/
def systemImage : Image := ⟨exportedBy system, some []⟩

/-- The sample library; a symbol that it lacks is looked for in the C library. -/
def exportsImage : Image :=
  ⟨fun name =>
      ((markSymbols.lookup name).or (exportedBy exported name)).or (exportedBy system name),
    some [⟨marksStart, marks.flatten⟩]⟩

/-- The program itself, which exports nothing and is not listed among the images. -/
def programImage : Image := ⟨fun _ => none, none⟩

/-- What is at an address in a library: one of the exported functions, a byte of the marks, or
    something else that was resolved. -/
def placeName (a : Address) : String :=
  let n := Memory.reach marksStart a
  match nativeAt? a with
  | some f => if exported.any fun e => e.name == f.name then "fx:" ++ f.name else "resolved"
  | none => if n < marks.flatten.length then "mark+" ++ toString n else "resolved"

/-- The length of the header that an image file begins with. -/
def headerSize : Nat := 64

/-- Why there is no image behind a name. A name with a slash is the path of a file, which here is a
    text and so has no image in it; every other name is that of no file, or too long to be one. -/
def refusal (files : Files) (name : String) : String :=
  let files := if '/' ∈ name.toList then files else .empty
  let unopened (fault : FileFault) := "cannot open shared object file: " ++ fault.reason
  match files.read name with
  | .ok text => if text.utf8ByteSize < headerSize then "file too short" else "invalid ELF header"
  | .error .isDirectory =>
    if '/' ∈ name.toList then "cannot read file data: " ++ FileFault.isDirectory.reason
    else unopened .missing
  | .error fault => unopened fault

/-- A loader of the C libraries, the program itself and further images, among files. -/
def loader (files : Files) (further : List (String × Image)) : Loader where
  image name :=
    let images :=
      further ++ [(Library.systemName, systemImage), ("libm.so.6", systemImage), ("", programImage)]
    match images.lookup name with
    | some image => .ok image
    | none => .error (name ++ ": " ++ refusal files name)

end NativeGate.Sample
