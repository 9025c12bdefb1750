import NativeGate.Hook.Table
import NativeGate.Value

/-!
The bridge: what every call of a hooked function runs. Callbacks of the pre phase see the arguments
and may change them or override the result, which skips the hooked code; callbacks of the post
phase see the result and may replace it. The callbacks of a phase are those registered when the
phase begins, whatever callbacks register or remove meanwhile.
-/

namespace NativeGate.Hook

/-- What a callback sees of a call and may change; there is no result until the target has run
    or a callback has overridden it. -/
structure HookCall where
  phase : Phase
  args : List Value
  result : Value

/-- What a callback says when it is done. -/
inductive Verdict where
  | proceed
  | override (v : Value)

/-- Where a bridge works, with state `σ`: the registrations, the ledger, and what callbacks do. -/
structure Stage (χ σ : Type) where
  table : σ → Table χ
  note : Event → σ → σ
  act : χ → HookCall → σ → Verdict × HookCall × σ

namespace Stage
variable {χ σ β : Type}

/-- Runs callbacks one after the other. The last override counts; in the post phase an override is
    the result that the next callback sees. -/
def runAll (stage : Stage χ σ) (phase : Phase) : List χ → HookCall → σ → Option Value × HookCall × σ
  | [], call, s => (none, call, s)
  | c :: cs, call, s =>
    match stage.act c call s with
    | (.proceed, call, s) => runAll stage phase cs call s
    | (.override v, call, s) =>
      let call := if phase = .post then { call with result := v } else call
      let (later, call, s) := runAll stage phase cs call s
      (later.or (some v), call, s)

/-- Runs the callbacks that a hook has when the phase begins. -/
def run (stage : Stage χ σ) (hook : HookId) (phase : Phase) (call : HookCall) (s : σ) :
    Option Value × HookCall × σ :=
  match (stage.table s).snapshot hook phase with
  | [] => (none, call, s)
  | cs => stage.runAll phase cs call (stage.note (.callbacksRunning hook phase cs.length) s)

/-- What a hooked call comes to: the value for the caller, and what the target left if it ran. -/
structure Outcome (β : Type) where
  value : Value
  left : Option β

/-- Runs one hooked call. The target gives its result and something of its own, which is handed
    out beside the value. -/
def dispatch (stage : Stage χ σ) (hook : HookId) (args : List Value)
    (target : List Value → σ → (Value × β) × σ) (s : σ) : Outcome β × σ :=
  let (overridden, call, s) := stage.run hook .pre ⟨.pre, args, .none⟩ s
  let ((result, left), s) :=
    match overridden with
    | some v => ((v, none), s)
    | none =>
      let ((v, b), s) := target call.args s
      ((v, some b), s)
  let (replaced, call, s) := stage.run hook .post ⟨.post, call.args, result⟩ s
  (⟨replaced.getD call.result, left⟩, s)

end Stage

end NativeGate.Hook
