import NativeGate.CommandLine.Run
import NativeGate.Sample.Images
import NativeGate.Sample.Script

/-!
The command line program. It reads the files that a command line may ask for, runs the command over
the sample process, and writes what came of it; everything in between is `CommandLine.run`.
-/

namespace NativeGate.Main

/-- The text of a file under its path from the root, if there is one that can be read. -/
def textAt (path : String) : IO (List (String × String)) := do
  try
    let text ← IO.FS.readFile path
    return [((← IO.FS.realPath path).toString, text)]
  catch _ => return []

/-- The paths that a command line may ask for: its words, and the configuration file in the current
    directory or above it. -/
def candidates (words current : List String) : List String :=
  let directories := (List.range (current.length + 1)).map fun n => current.take n
  words ++ directories.map fun d => "/" ++ Files.path (d ++ [Config.fileName])

/-- The files as far as a command line may ask for them. -/
def files (words : List String) : IO Files := do
  let current := (← IO.currentDir).toString
  let texts ← (candidates words (Files.parts current)).mapM textAt
  return .ofTexts texts.flatten current

/-- Writes lines of the log where the settings want them. -/
def writeLog (s : Log.Settings) (lines : List Log.Line) : IO Unit := do
  let text := String.join ((s.keep lines).map fun l => CommandLine.Outcome.line l.display)
  match s.destination with
  | .stdout => IO.print text
  | .stderr => IO.eprint text
  | .file directory stem =>
    IO.FS.createDirAll directory
    let file ← IO.FS.Handle.mk (directory ++ "/" ++ stem) .append
    file.putStr text

end NativeGate.Main

open NativeGate in
def main (words : List String) : IO UInt32 := do
  let files ← Main.files words
  let (o, w) :=
    CommandLine.run .checked Sample.code (Sample.loader files []) files words Sample.world
  if let some settings := o.log then Main.writeLog settings w.ledger.lines
  IO.print o.stdout
  IO.eprint o.stderr
  return o.code.toUInt32
