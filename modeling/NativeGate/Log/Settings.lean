import NativeGate.Log.Filter

/-!
Log settings: level, format, destination and extra directives. The settings decide which lines are
kept and where they go; how a line is laid out is left to the format.
-/

namespace NativeGate.Log

/-- Forms of a line. -/
inductive Format where
  | pretty | compact | json
deriving DecidableEq

namespace Format

def name : Format → String
  | pretty => "pretty"
  | compact => "compact"
  | json => "json"

def all : List Format := [pretty, compact, json]

def ofName? (text : String) : Option Format := all.find? fun f => f.name == text

end Format

/-- Where lines go; files are named after the day, behind a fixed first part. -/
inductive Destination where
  | stdout
  | stderr
  | file (directory stem : String)
deriving DecidableEq

structure Settings where
  level : Level
  format : Format
  destination : Destination
  spanEvents : Bool
  filter : Option String
deriving DecidableEq

namespace Settings

def default : Settings := ⟨.warn, .compact, .stderr, false, none⟩

/-- Everything of the call, hook and memory layers, for a reader at a terminal. -/
def development : Settings :=
  ⟨.debug, .pretty, .stderr, true, some "ffi=trace,hooks=trace,memory=trace"⟩

/-- What an operator reads later, in daily files of a directory. -/
def production (directory : String) : Settings :=
  ⟨.info, .json, .file directory "binutils", false, some "ffi=info,hooks=info"⟩

/-- The lines that these settings keep. -/
def keep (s : Settings) (lines : List Line) : List Line :=
  lines.filter (Filter.ofDirectives s.level s.filter).keeps

end Settings

end NativeGate.Log
