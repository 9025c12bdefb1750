import NativeGate.Convention

/-!
Command lines. Words are read from left to right: a flag is noted, an option takes the word behind
it, and everything else is positional; behind a lone `--` all words are. The positional words then
make a command. The first word that is wrong decides what is reported.
-/

namespace NativeGate.CommandLine

/-- What the program can be told to do. -/
inductive Command where
  | describe (signature : String) (json : Bool)
  | call (library symbol signature : String) (convention : Convention) (args : List String)
  | pipe (manifest name : String) (args : List String)
deriving DecidableEq

/-- A command with what belongs to every command. -/
structure Invocation where
  command : Command
  config : Option String
  verbose : Bool
  stats : Bool
deriving DecidableEq

/-- Why words are no command line. -/
inductive Fault where
  | usage
  | optionWithoutArgument (option : String)
  | unknownOption (word : String)
  | unknownConvention (word : String)
  | unknownCommand (word : String)
  | operandMissing (command operand : String)
deriving DecidableEq

/-- What the program says of itself. -/
def usage : String :=
  "\n".intercalate [
    "Usage: binutils [OPTIONS] <COMMAND>",
    "",
    "Commands:",
    "  describe <signature> [--json]                  Decode a signature string",
    "  call <library> <symbol> <signature> [args...]  Call an exported function",
    "  pipe <config> <name> [args...]                 Call a function from a manifest",
    "",
    "A <symbol> with spaces is a hex byte signature, e.g. \"55 8B EC\".",
    "",
    "Options:",
    "  --convention <c>  Calling convention for `call` (default: cdecl)",
    "  --config <path>   Config file (default: nearest binutils.toml)",
    "  --verbose         Trace every call to stderr",
    "  --stats           Print interop counters after the command"]

def Fault.message : Fault → String
  | usage => CommandLine.usage
  | optionWithoutArgument option => option ++ " requires an argument"
  | unknownOption word => "Unknown option: " ++ word
  | unknownConvention word => Convention.unknownName word
  | unknownCommand word => "Unknown command: " ++ word ++ "\n\n" ++ CommandLine.usage
  | operandMissing command operand => command ++ " requires a " ++ operand

/-- The words of a command line by what they are. -/
structure Words where
  positional : List String
  json : Bool
  verbose : Bool
  stats : Bool
  convention : Convention
  config : Option String
deriving DecidableEq

namespace Words

def none : Words := ⟨[], false, false, false, .cdecl, .none⟩

/-- Reads words behind those already read. -/
def scan (w : Words) : List String → Except Fault Words
  | [] => .ok w
  | "--json" :: rest => scan { w with json := true } rest
  | "--verbose" :: rest | "-v" :: rest => scan { w with verbose := true } rest
  | "--stats" :: rest => scan { w with stats := true } rest
  | "--help" :: _ | "-h" :: _ => .error .usage
  | ["--convention"] => .error (.optionWithoutArgument "--convention")
  | "--convention" :: word :: rest =>
    match Convention.parse? word with
    | some convention => scan { w with convention } rest
    | .none => .error (.unknownConvention word)
  | ["--config"] => .error (.optionWithoutArgument "--config")
  | "--config" :: word :: rest => scan { w with config := some word } rest
  | "--" :: rest => .ok { w with positional := w.positional ++ rest }
  | word :: rest =>
    if "--".toList.isPrefixOf word.toList then .error (.unknownOption word)
    else scan { w with positional := w.positional ++ [word] } rest

/-- The command that positional words make. -/
def command (w : Words) : Except Fault Command :=
  match w.positional with
  | [] => .error .usage
  | "describe" :: rest =>
    match rest with
    | [] => .error (.operandMissing "describe" "signature")
    | signature :: _ => .ok (.describe signature w.json)
  | "call" :: rest =>
    match rest with
    | [] => .error (.operandMissing "call" "library")
    | [_] => .error (.operandMissing "call" "symbol")
    | [_, _] => .error (.operandMissing "call" "signature")
    | library :: symbol :: signature :: args =>
      .ok (.call library symbol signature w.convention args)
  | "pipe" :: rest =>
    match rest with
    | [] => .error (.operandMissing "pipe" "config file")
    | [_] => .error (.operandMissing "pipe" "function name")
    | manifest :: name :: args => .ok (.pipe manifest name args)
  | word :: _ => .error (.unknownCommand word)

end Words

/-- Reads the words of a command line. -/
def parse (words : List String) : Except Fault Invocation := do
  let w ← Words.none.scan words
  return ⟨← w.command, w.config, w.verbose, w.stats⟩

end NativeGate.CommandLine
