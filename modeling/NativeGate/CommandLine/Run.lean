import NativeGate.Call.Gate
import NativeGate.CommandLine.Arguments
import NativeGate.CommandLine.Words
import NativeGate.Pipe

/-!
Running a command. A command prints a line, fails with an error, or stops where its build does; what
is printed, what is reported and the exit code are the outcome. The build, the world, the files and
the loader are given, so a run is a function of them.
-/

namespace NativeGate.CommandLine

/-- What a run leaves: the text on both streams, the exit code, and the settings under which it
    logged, if it came so far. -/
structure Outcome where
  stdout : String
  stderr : String
  code : Nat
  log : Option Log.Settings

namespace Outcome

def line (text : String) : String := text ++ "\n"

/-- A run that ended in failure. -/
def failed (log : Option Log.Settings) (message : String) : Outcome :=
  ⟨"", line ("Error: " ++ message), 1, log⟩

/-- A run that the build stopped. -/
def stopped (log : Option Log.Settings) (message : String) : Outcome :=
  ⟨"", line message, 101, log⟩

end Outcome

/-- What a command writes when it succeeds. -/
structure Printed where
  stdout : String
  stderr : String

/-- The report of an error; what is wrong inside a configuration is said to be its fault. -/
def report : Error → String
  | .config (.malformed fault) => "config: " ++ fault.summary .toml
  | e => e.message

/-- A list of texts, a line for each. -/
def listForm (indent : String) (texts : List String) : String :=
  if texts.isEmpty then "[]"
  else
    let rows := texts.map fun t => indent ++ "  \"" ++ t ++ "\""
    "[\n" ++ ",\n".intercalate rows ++ "\n" ++ indent ++ "]"

/-- The description of a signature, as a line or as an object. -/
def description (s : Signature) (json : Bool) : String :=
  let params := s.params.map Kind.cName
  if json then
    "\x7b\n  \"parameters\": " ++ listForm "  " params ++ ",\n  \"return\": \"" ++ s.ret.cName
      ++ "\",\n  \"signature\": \"" ++ s.text ++ "\"\n\x7d"
  else
    let shown := if params.isEmpty then "void" else ", ".intercalate params
    s.text ++ " (" ++ shown ++ ") -> " ++ s.ret.cName

/-- What is said of a call under a convention that has no interface of its own. -/
def warning (convention : Convention) : String :=
  "warning: " ++ convention.name ++ " has no distinct ABI here, called with the default"

variable {ρ : Type} (b : Build)

/-- Calls a function with words for arguments, through a gate of its own. -/
def callWords (code : Code ρ) (capacity : Nat) (f : Function) (words : List String) (w : World ρ) :
    Except Failure Printed × World ρ :=
  match readWords b f.signature words with
  | .error e => (.error e, w)
  | .ok args =>
    let (result, gate, w) := f.call (Gate.machine code) args (Gate.withCapacity capacity, w)
    let warned := if gate.error ≠ 0 then Outcome.line (warning f.convention) else ""
    ((result.mapError .refused).map fun v => ⟨Outcome.line v.display, warned⟩, w)

/-- Calls a function that was looked for, if it was found. -/
def callFound (code : Code ρ) (capacity : Nat) (words : List String) :
    Except Error Function × World ρ → Except Failure Printed × World ρ
  | (.ok f, w) => callWords b code capacity f words w
  | (.error e, w) => (.error (.refused e), w)

/-- The function that an identifier names in a library. -/
def exported (loader : Loader) (library identifier : String) (convention : Convention)
    (signature : String) (w : World ρ) : Except Error Function × World ρ :=
  match Library.opened (Library.find loader library) w with
  | (.error e, w) => (.error e, w)
  | (.ok l, w) =>
    match l.resolved identifier w with
    | (.error e, w) => (.error e, w)
    | (.ok a, w) => ((Function.parse a convention signature).mapError Error.ofSignature, w)

/-- The function of a name in a manifest. -/
def manifested (loader : Loader) (files : Files) (manifest name : String) (w : World ρ) :
    Except Error Function × World ρ :=
  match Pipe.ofFiles files [manifest] with
  | .error e => (.error e, w)
  | .ok pipe =>
    let (f, _, w) := Pipe.get loader name (pipe, w)
    (f, w)

/-- Carries out a command. -/
def execute (code : Code ρ) (loader : Loader) (files : Files) (capacity : Nat) (command : Command)
    (w : World ρ) : Except Failure Printed × World ρ :=
  match command with
  | .describe signature json =>
    (((Signature.parse signature).mapError fun e => .refused (.ofSignature e)).map fun s =>
      ⟨Outcome.line (description s json), ""⟩, w)
  | .call library identifier signature convention args =>
    callFound b code capacity args (exported loader library identifier convention signature w)
  | .pipe manifest name args =>
    callFound b code capacity args (manifested loader files manifest name w)

/-- The configuration of a run: the named file, or the nearest one. -/
def configuration (files : Files) (config : Option String) : Except Error Config :=
  match config with
  | some path => Config.load files path
  | none => .ok (Config.discover files).1

/-- The settings under which a run logs. -/
def settings (i : Invocation) (c : Config) : Log.Settings :=
  if i.verbose then .development else c.logging.settings

/-- Runs a command line. -/
def run (code : Code ρ) (loader : Loader) (files : Files) (words : List String) (w : World ρ) :
    Outcome × World ρ :=
  match parse words with
  | .error fault => (.failed none fault.message, w)
  | .ok i =>
    match configuration files i.config with
    | .error e => (.failed none (report e), w)
    | .ok c =>
      let log := some (settings i c)
      match execute b code loader files c.call.capacity.toNat i.command w with
      | (.error (.refused e), w) => (.failed log (report e), w)
      | (.error (.stopped overflow), w) => (.stopped log overflow.message, w)
      | (.ok printed, w) =>
        let counters := "\n".intercalate w.ledger.counters.report
        let stats := if i.stats then Outcome.line counters else ""
        (⟨printed.stdout, printed.stderr ++ stats, 0, log⟩, w)

end NativeGate.CommandLine
