import NativeGate.Hook.Detour
import NativeGate.Proofs.Call.Gate
import NativeGate.Proofs.Coercion

/-!
A redirected call in two halves. While no pre callback overrides, the moved code is entered once, in
a world and with words that do not depend on what it will do (`answer_eq_resume`); what it leaves
goes through the post callbacks into the result word (`resume`).
-/

namespace NativeGate

theorem Signature.ne_void {sig : Signature} {i : Nat} {k : Kind} (hk : sig.params[i]? = some k) :
    k ≠ .void := by
  rintro rfl
  exact sig.noVoid (List.mem_of_getElem? hk)

namespace Hook

/-! ### Lists of arguments -/

/-- A value that decodes an argument word is the value that the word carries. -/
theorem decodeArgument_eq (k : Kind) (x : UInt64) : decodeArgument k x = .ofWord k x := by
  cases k <;> rfl

theorem length_rawArguments {sig : Signature} {words : List UInt64}
    (h : words.length = sig.arity) : (rawArguments sig words).length = sig.arity := by
  rw [rawArguments, List.length_map, List.length_zip, h]
  exact Nat.min_self _

theorem rawArguments_getElem? {sig : Signature} {words : List UInt64} {i : Nat} {k : Kind}
    {x : UInt64} (hk : sig.params[i]? = some k) (hx : words[i]? = some x) :
    (rawArguments sig words)[i]? = some (.ofWord k x) := by
  have hz : (sig.params.zip words)[i]? = some (k, x) := List.getElem?_zip_eq_some.2 ⟨hk, hx⟩
  rw [rawArguments, List.getElem?_map, hz, ← decodeArgument_eq]
  rfl

theorem length_shownArguments {m : Memory} {sig : Signature} {raw : List Value}
    (h : raw.length = sig.arity) : (shownArguments m sig raw).length = sig.arity := by
  rw [shownArguments, List.length_map, List.length_zip, h]
  exact Nat.min_self _

theorem shownArguments_getElem? (m : Memory) {sig : Signature} {raw : List Value} {i : Nat}
    {k : Kind} {v : Value} (hk : sig.params[i]? = some k) (hv : raw[i]? = some v) :
    (shownArguments m sig raw)[i]? = some (v.received m k) := by
  have hz : (sig.params.zip raw)[i]? = some (k, v) := List.getElem?_zip_eq_some.2 ⟨hk, hv⟩
  rw [shownArguments, List.getElem?_map, hz]
  rfl

theorem passed_getElem? {args shown raw : List Value} {i : Nat} {a s r : Value}
    (ha : args[i]? = some a) (hs : shown[i]? = some s) (hr : raw[i]? = some r) :
    (passed args shown raw)[i]? = some (if a.same s then r else a) := by
  have hz : (args.zip (shown.zip raw))[i]? = some (a, (s, r)) :=
    List.getElem?_zip_eq_some.2 ⟨ha, List.getElem?_zip_eq_some.2 ⟨hs, hr⟩⟩
  rw [passed, List.getElem?_map, hz]
  rfl

theorem length_passed {args shown raw : List Value} (hs : shown.length = args.length)
    (hr : raw.length = args.length) : (passed args shown raw).length = args.length := by
  rw [passed, List.length_map, List.length_zip, List.length_zip, hs, hr, Nat.min_self, Nat.min_self]

/-- What is shown of an argument, and what goes on for what a callback left of it. -/
theorem passed_words {sig : Signature} {words : List UInt64} {args : List Value} (m : Memory)
    {i : Nat} {k : Kind} {x : UInt64} {a : Value} (hk : sig.params[i]? = some k)
    (hx : words[i]? = some x) (ha : args[i]? = some a) :
    let raw := rawArguments sig words
    let shown := shownArguments m sig raw
    shown[i]? = some ((Value.ofWord k x).received m k) ∧ (passed args shown raw)[i]? =
      some (if a.same ((Value.ofWord k x).received m k) then .ofWord k x else a) := by
  intro raw shown
  have hr := rawArguments_getElem? hk hx
  have hs := shownArguments_getElem? m hk hr
  exact ⟨hs, passed_getElem? ha hs hr⟩

theorem length_passed_words {sig : Signature} {words : List UInt64} {args : List Value}
    (m : Memory) (hwords : words.length = sig.arity) (hargs : args.length = sig.arity) :
    (passed args (shownArguments m sig (rawArguments sig words)) (rawArguments sig words)).length =
      sig.arity := by
  have hraw := length_rawArguments hwords
  rw [length_passed]
  · exact hargs
  · rw [length_shownArguments hraw, hargs]
  · rw [hraw, hargs]

/-! ### Into the moved code and back -/

section Crossing
variable {χ ρ : Type}

/-- The words and the world that a call of `f` with arguments that fit enters its code with. -/
def entry (f : Function) (ws : List Value) (w : World ρ) : List UInt64 × World ρ :=
  let crossed :=
    Value.toWords ws ((w.note (.calling f.convention f.signature)).modeTold f.convention)
  let gate := Gate.fresh.loaded f.convention ws
  (crossed.1, (Gate.ready (gate.interface f.signature.ret) (gate, crossed.2)).2)

theorem length_entry {f : Function} {args ws : List Value} (h : f.Fitted args ws) (w : World ρ) :
    (entry f ws w).1.length = f.signature.arity := by
  rw [entry, Value.length_toWords, h.length]

theorem entry_memory (f : Function) (ws : List Value) (w : World ρ) :
    (entry f ws w).2.memory =
      (Value.toWords ws
        ((w.note (.calling f.convention f.signature)).modeTold f.convention)).2.memory :=
  Gate.ready_memory ..

theorem entry_native (f : Function) (ws : List Value) (w : World ρ) :
    (entry f ws w).2.native = w.native := by
  rw [entry, Gate.ready_native, Value.toWords_native, World.native_modeTold, World.native_note]

/-- An argument that is no string is entered with in its own word. -/
theorem entry_word {f : Function} {ws : List Value} {w : World ρ} {i : Nat} {v : Value} {y : UInt64}
    (hv : ws[i]? = some v) (hs : ∀ s, v ≠ .string s) (hy : (entry f ws w).1[i]? = some y) :
    y = v.word := by
  have hword := Value.toWords_getElem?_of_not_string hv hs
    ((w.note (.calling f.convention f.signature)).modeTold f.convention)
  rw [show (entry f ws w).1 = (Value.toWords ws _).1 from rfl, hword, Option.some.injEq] at hy
  exact hy.symm

/-- While there is room, a string stands where its word points when the code is entered. -/
theorem entry_text {f : Function} {ws : List Value} {w : World ρ} {i : Nat} {s : CString}
    {y : UInt64} (hv : ws[i]? = some (.string s)) (hy : (entry f ws w).1[i]? = some y)
    (hspace : (entry f ws w).2.memory.frontier ≤ 2 ^ 64) :
    (entry f ws w).2.memory.cstring ⟨y⟩ = s := by
  rw [entry_memory] at hspace ⊢
  exact Value.cstring_toWords hspace hv hy

/-- The world of code that was entered without sight of the ledger, with the ledger in place. -/
def rejoined (before : Ledger) (w : World ρ) : World ρ :=
  { w with ledger := before.append w.ledger }.note .called

theorem callMoved_of_fitted (code : Code ρ) (hook : HookId) {f : Function} {args ws : List Value}
    (h : f.Fitted args ws) (w : World ρ) :
    callMoved code hook f args w =
      let left := code f.address (entry f ws w).1 { (entry f ws w).2 with ledger := .empty }
      (.ofWord f.signature.ret left.1, rejoined (entry f ws w).2.ledger left.2) := by
  rw [callMoved, Function.callRaw_gate code h]
  rfl

/-- Moved code gives a value of the kind that its result word carries; a refused call gives none. -/
theorem kind_callMoved (code : Code ρ) (hook : HookId) (f : Function) (args : List Value)
    (w : World ρ) : (callMoved code hook f args w).1 = .none ∨
      (callMoved code hook f args w).1.kind = f.signature.ret.carried := by
  cases h : f.prepare args with
  | ok ws =>
    rw [callMoved_of_fitted code hook (Function.prepare_eq_ok_iff.1 h)]
    exact .inr (Value.kind_ofWord ..)
  | error e =>
    rw [callMoved, Function.callRaw_of_refused _ (Function.prepare_eq_error_iff.1 h)]
    exact .inl rfl

/-- What a dispatch hands out beside its value comes from the target. -/
theorem left_dispatch {σ β : Type} (stage : Stage χ σ) (hook : HookId) (args : List Value)
    (target : List Value → σ → (Value × β) × σ) (s : σ) {b : β}
    (h : (stage.dispatch hook args target s).1.left = some b) :
    ∃ args' s', (target args' s').1.2 = b := by
  unfold Stage.dispatch at h
  obtain ⟨⟨overridden, call, s₁⟩, hpre⟩ : ∃ t, stage.run hook .pre ⟨.pre, args, .none⟩ s = t :=
    ⟨_, rfl⟩
  simp only [hpre] at h
  cases overridden with
  | some v => cases h
  | none => exact ⟨call.args, s₁, Option.some.inj h⟩

/-- What is left of a redirected call when the moved code has left a word and a world: the post
    callbacks run, and the value is made a word again. -/
def resume (stage : Stage χ (World ρ)) (hook : HookId) (f : Function) (args : List Value)
    (before : Ledger) (left : UInt64 × World ρ) : UInt64 × World ρ :=
  let raw := Value.ofWord f.signature.ret left.1
  let w := rejoined before left.2
  let seen := raw.received w.memory f.signature.ret
  let (replaced, call, w) := stage.run hook .post ⟨.post, args, seen⟩ w
  encodeResult hook f.signature.ret (returned ⟨replaced.getD call.result, some (seen, raw)⟩) w

/-- While no pre callback overrides and the arguments fit, the moved code is entered exactly once,
    and everything else of the call is the same whatever code it is. -/
theorem answer_eq_resume (stage : Stage χ (World ρ)) (code : Code ρ) (hook : HookId)
    {f : Function} {words : List UInt64} {w w₁ : World ρ} {call : HookCall} {ws : List Value}
    (hpre : stage.run hook .pre
      ⟨.pre, shownArguments w.memory f.signature (rawArguments f.signature words), .none⟩ w =
        (none, call, w₁))
    (hfit : f.Fitted
      (passed call.args (shownArguments w.memory f.signature (rawArguments f.signature words))
        (rawArguments f.signature words)) ws) :
    answer stage code hook f words w =
      resume stage hook f call.args (entry f ws w₁).2.ledger
        (code f.address (entry f ws w₁).1 { (entry f ws w₁).2 with ledger := .empty }) := by
  unfold answer Stage.dispatch
  simp only [hpre, runMoved, callMoved_of_fitted code hook hfit]
  rfl

/-- A value of the carried kind crosses back in its own word. -/
theorem encodeResult_carried (hook : HookId) {k : Kind} {v : Value} (h : v.kind = k.carried)
    (w : World ρ) : encodeResult hook k v w = (v.settled.word, w) := by
  by_cases hk : k = .void
  · subst hk
    cases v <;> first | rfl | cases h
  · have hc := Value.coerce_carried hk h 0
    have hs := Value.not_string_of_carried h
    unfold encodeResult resultValue
    split
    rename_i u w' hu
    split at hu
    · exact absurd rfl hk
    · exact absurd rfl (hs _)
    · rw [hc] at hu
      cases hu
      rfl

/-- A value that fits the result kind crosses back in the word of its fitted form. -/
theorem encodeResult_of_coerce (hook : HookId) {k : Kind} {v u : Value} (hk : k ≠ .string)
    (h : v.coerce k 0 = .ok u) (w : World ρ) : encodeResult hook k v w = (u.word, w) := by
  unfold encodeResult resultValue
  split
  rename_i u' w' hu
  split at hu
  · cases h
  · exact absurd rfl hk
  · rw [h] at hu
    cases hu
    rfl

end Crossing

end Hook

end NativeGate
