import NativeGate.Event
import NativeGate.Files
import NativeGate.Layout.Types
import NativeGate.Layout.Written
import NativeGate.Log.Settings
import NativeGate.Toml.Document
import NativeGate.Toml.Printer

/-!
Configuration: how to log, how many call interfaces to keep, the manifest of functions, and the
layouts of types. A configuration is read from TOML with defaults for everything that is missing,
and written in full.
-/

namespace NativeGate
open Data Layout

/-- How to log, as files say it. -/
structure LoggingConfig where
  level : String
  format : Log.Format
  directory : Option String
  filter : Option String
  spanEvents : Bool
deriving DecidableEq

namespace LoggingConfig

def default : LoggingConfig := ⟨"warn", .pretty, none, none, false⟩

/-- The settings that are meant: an unknown level is a warning's, and a directory takes the lines to
    daily files. -/
def settings (c : LoggingConfig) : Log.Settings where
  level := (Log.Level.parse? c.level).getD .warn
  format := c.format
  destination := c.directory.elim .stderr fun directory => .file directory "binutils"
  spanEvents := c.spanEvents
  filter := c.filter

def fields : List String := ["level", "format", "directory", "filter", "span_events"]

def read (source : Source) : Reader LoggingConfig := fun t => do
  let formats := Log.Format.all.map fun f => (f.name, f)
  let r ← Record.ofTree source "LoggingConfig" fields t
  r.scan [Record.check "level" readText, Record.check "format" (readChoice source formats),
    Record.check "directory" (readOptional readText), Record.check "filter" (readOptional readText),
    Record.check "span_events" readBoolean]
  let level ← r.optional "level" readText default.level
  let format ← r.optional "format" (readChoice source formats) default.format
  let directory ← r.optional "directory" (readOptional readText) none
  let filter ← r.optional "filter" (readOptional readText) none
  let spanEvents ← r.optional "span_events" readBoolean false
  r.close
  return ⟨level, format, directory, filter, spanEvents⟩

def tree (c : LoggingConfig) : Tree :=
  .table
    [("level", .text c.level), ("format", .text c.format.name), textEntry "directory" c.directory,
      textEntry "filter" c.filter, ("span_events", .boolean c.spanEvents)]

end LoggingConfig

/-- How to call: the number of call interfaces that a gate keeps. -/
structure CallConfig where
  capacity : UInt64
deriving DecidableEq

namespace CallConfig

def default : CallConfig := ⟨64⟩

def read (source : Source) : Reader CallConfig := fun t => do
  let r ← Record.ofTree source "CallConfig" ["cif_cache_size"] t
  r.scan [Record.check "cif_cache_size" readCount]
  let capacity ← r.optional "cif_cache_size" readCount default.capacity
  r.close
  return ⟨capacity⟩

def tree (c : CallConfig) : Tree := .table [("cif_cache_size", .integer c.capacity.toNat)]

end CallConfig

structure Config where
  logging : LoggingConfig
  call : CallConfig
  functions : Dict FunctionSpec
  types : Dict TypeLayout
deriving DecidableEq

namespace Config

/-- The name that configuration files are found by. -/
def fileName : String := "binutils.toml"

def default : Config := ⟨.default, .default, .empty, .empty⟩

def fields : List String := ["logging", "call", "functions", "types"]

def read (source : Source) : Reader Config := fun t => do
  let functions := readDict FunctionSpec.read
  let types := readDict (TypeLayout.read source)
  let r ← Record.ofTree source "Config" fields t
  r.scan [Record.check "logging" (LoggingConfig.read source),
    Record.check "call" (CallConfig.read source), Record.check "functions" functions,
    Record.check "types" types]
  let logging ← r.optional "logging" (LoggingConfig.read source) .default
  let call ← r.optional "call" (CallConfig.read source) .default
  let functions ← r.optional "functions" functions .empty
  let types ← r.optional "types" types .empty
  r.close
  return ⟨logging, call, functions, types⟩

def tree (c : Config) : Tree :=
  .table
    [("logging", c.logging.tree), ("call", c.call.tree),
      ("functions", writeDict FunctionSpec.tree c.functions),
      ("types", writeDict TypeLayout.tree c.types)]

/-- Reads a configuration from its text. -/
def parse (text : String) : Except Error Config :=
  let outcome :=
    match Toml.read text with
    | some t => read .toml t
    | none => .error .unreadable
  outcome.mapError fun fault => .config (.malformed fault)

/-- The text of a configuration; there is none for a count that is out of range. -/
def serialise (c : Config) : Except Error String :=
  match Toml.write? c.tree with
  | some text => .ok text
  | none => .error (.config .unserialisable)

/-- The text of the default configuration. -/
def generated : String :=
  match default.serialise with
  | .ok text => text
  | .error _ => "# Failed to generate config"

/-- Reads a configuration from a file. -/
def load (files : Files) (path : String) : Except Error Config :=
  match files.read path with
  | .ok text => parse text
  | .error fault => .error (.config (.unreadable path fault.message))

/-- Writes a configuration to a file. -/
def save (c : Config) (files : Files) (path : String) : Except Error Files :=
  c.serialise.bind fun text =>
    (files.write path text).mapError fun fault => .config (.unwritable fault.message)

/-- The nearest configuration, the default one where there is none. One that cannot be read is told
    of and passed over. -/
def discover (files : Files) : Config × List Event :=
  match files.discover fileName with
  | none => (default, [])
  | some place =>
    match (files.text? place).elim (.ok default) parse with
    | .ok c => (c, [])
    | .error _ => (default, [.configIgnored])

/-- Takes over the functions and types of another configuration; where both have a name, the other's
    counts. -/
def merge (c other : Config) : Config :=
  { c with functions := c.functions.union other.functions, types := c.types.union other.types }

/-- The registry of the types of a configuration, registered one after the other. -/
def registry (c : Config) : Except Error Types :=
  c.types.entries.foldlM (fun t e => (t.add e.1 e.2 false).map (·.2)) .empty

end Config

end NativeGate
