import NativeGate.Error
import NativeGate.Log.Level

/-!
Events: what the library tells of its work. An event is told once; the counters and the log are two
readings of the same sequence of events, so what is counted and what is logged cannot drift apart.
-/

namespace NativeGate

/-- When a callback runs, relative to the code that is hooked. -/
inductive Phase where
  | pre | post
deriving DecidableEq

def Phase.name : Phase → String
  | pre => "pre"
  | post => "post"

/-- Identity of one installed hook. Identities are counted upward, one for each installation asked
    for, and as words they are told apart in a run that asks for fewer than 2 ^ 64. -/
structure HookId where
  number : Nat
deriving DecidableEq

/-- Everything the library tells of its work. -/
inductive Event where
  | calling (convention : Convention) (signature : Signature)
  | called
  | rejected (error : Error)
  | indistinct (convention : Convention)
  | interfacePrepared (abi : Convention.Abi) (params : Nat)
  | allocated (size : Nat)
  | reallocated (size : Nat)
  | freed
  | libraryLoaded (name : String)
  | patternFound (library : String)
  | hookInstalled (hook : HookId)
  | hookRemoved (hook : HookId)
  | callbackAdded (hook : HookId) (phase : Phase)
  | callbackRemoved (hook : HookId) (phase : Phase)
  | callbacksRunning (hook : HookId) (phase : Phase) (count : Nat)
  | movedCallFailed (hook : HookId)
  | resultReplaced (hook : HookId)
  | symbolResolved (binary identifier : String)
  | methodBound (owner method : String)
  | configIgnored
deriving DecidableEq

namespace Log

/-- A field of a line. -/
inductive Field where
  | number (n : Nat)
  | text (s : String)
deriving DecidableEq

def Field.display : Field → String
  | number n => toString n
  | text s => s

/-- A line of the log: how important it is, what part of the library speaks, and what it says.
    Fields that hold addresses, paths or reasons differ from run to run and are only named. -/
structure Line where
  level : Level
  target : String
  message : String
  fields : List (String × Field)
  unshown : List String
deriving DecidableEq

/-- Whether the line has a field of a name; the message counts as one. -/
def Line.hasField (l : Line) (name : String) : Bool :=
  name = "message" || (l.fields.lookup name).isSome || l.unshown.contains name

/-- The line as a terminal shows it. -/
def Line.display (l : Line) : String :=
  let fields := l.fields.map fun (name, v) => " " ++ name ++ "=" ++ v.display
  l.level.name ++ " " ++ l.target ++ ": " ++ l.message ++ String.join fields

end Log

open Log in
/-- The line of an event; an event that is only counted has none. -/
def Event.line? : Event → Option Line
  | calling convention signature =>
    some ⟨.trace, "ffi", "calling",
      [("convention", .text convention.name), ("signature", .text signature.text)], ["address"]⟩
  | called => none
  | rejected error =>
    some ⟨.trace, "ffi", "call rejected", [("error", .text error.name)], ["address"]⟩
  | indistinct convention =>
    some ⟨.debug, "ffi", "convention has no distinct ABI here, using default",
      [("convention", .text convention.name)], []⟩
  | interfacePrepared abi params =>
    some ⟨.trace, "ffi", "preparing call interface",
      [("abi", .number abi.number), ("params", .number params)], []⟩
  | allocated size =>
    some ⟨.trace, "memory", "allocated", [("size", .number size)], ["address"]⟩
  | reallocated size =>
    some ⟨.trace, "memory", "reallocated", [("size", .number size)], ["from", "to"]⟩
  | freed => some ⟨.trace, "memory", "freed", [], ["address"]⟩
  | libraryLoaded name => some ⟨.debug, "ffi", "loaded", [("library", .text name)], []⟩
  | patternFound library =>
    some ⟨.debug, "ffi", "signature found", [("library", .text library)], ["address"]⟩
  | hookInstalled hook =>
    some ⟨.info, "hooks", "hook installed", [("hook", .number hook.number)],
      ["target_address", "original"]⟩
  | hookRemoved hook =>
    some ⟨.info, "hooks", "hook removed", [("hook", .number hook.number)], ["target_address"]⟩
  | callbackAdded hook phase =>
    some ⟨.debug, "hooks", "callback added",
      [("hook", .number hook.number), ("phase", .text phase.name)], []⟩
  | callbackRemoved hook phase =>
    some ⟨.debug, "hooks", "callback removed",
      [("hook", .number hook.number), ("phase", .text phase.name)], []⟩
  | callbacksRunning hook phase count =>
    some ⟨.trace, "hooks", "running callbacks",
      [("hook", .number hook.number), ("phase", .text phase.name), ("count", .number count)],
      []⟩
  | movedCallFailed hook =>
    some ⟨.error, "hooks", "calling original failed", [("hook", .number hook.number)], ["err"]⟩
  | resultReplaced hook =>
    some ⟨.warn, "hooks", "bad hook return value, returning zero",
      [("hook", .number hook.number)], ["err"]⟩
  | symbolResolved binary identifier =>
    some ⟨.debug, "config", "resolved",
      [("binary", .text binary), ("identifier", .text identifier)], ["address"]⟩
  | methodBound owner method =>
    some ⟨.debug, "memory", "bound method",
      [("owner", .text owner), ("method", .text method)], []⟩
  | configIgnored => some ⟨.warn, "config", "ignoring unreadable config", [], ["path", "err"]⟩

end NativeGate
