import NativeGate.Call.Recorder
import NativeGate.Call.Shared
import NativeGate.Hook.Detour
import NativeGate.Proofs.Call.Dispatch

/-!
What failed calls leave in the counters. Whichever way a function is called, a dispatch that is
refused is counted once, under the name of the reason. But a call can also fail before it comes to a
dispatch: the shared gate of the thread is in use, or no unhooked code is known of the function.
These failures are counted nowhere (`refused_dispatch_counted_once`).
-/

namespace NativeGate

/-- The failures of a call from `s` that gives `r`, by their reasons. A failure that comes before
    the dispatch has left everything as it was; a refused dispatch counts as one failure, in all and
    under the name of the error, and nothing else is counted. -/
structure Fails {σ : Type} (ledger : σ → Ledger) (early refused : Error → Prop) (s : σ)
    (r : Except Error Value × σ) : Prop where
  reasons : ∀ e, r.1 = .error e ↔ early e ∨ refused e
  uncounted : ∀ e, early e → r.2 = s
  counted : ∀ e, refused e → Counters.FailedOnce e.name (ledger s).counters (ledger r.2).counters

/-- A call all of whose failures are refused dispatches. -/
theorem Fails.of_refusals {σ : Type} {ledger : σ → Ledger} {refused : Error → Prop} {s : σ}
    {r : Except Error Value × σ} (reasons : ∀ e, r.1 = .error e ↔ refused e)
    (noted : ∀ e, refused e → ledger r.2 = (ledger s).note (.rejected e)) :
    Fails ledger (fun _ => False) refused s r where
  reasons e := by rw [reasons, false_or]
  uncounted _ h := h.elim
  counted e h := by
    rw [noted e h]
    exact Counters.failedOnce_tally _ e

/-- A call that has failed before its dispatch. -/
theorem Fails.of_early {σ : Type} {ledger : σ → Ledger} {early refused : Error → Prop} {s : σ}
    {e : Error} (reason : ∀ e', early e' ↔ e' = e) (never : ∀ e', ¬ refused e') :
    Fails ledger early refused s (.error e, s) where
  reasons e' := by rw [reason, or_iff_left (never e'), Except.error.injEq, eq_comm]
  uncounted _ _ := rfl
  counted e' h := absurd h (never e')

/-- The reasons may be told in other words. -/
theorem Fails.congr {σ : Type} {ledger : σ → Ledger} {early early' refused refused' : Error → Prop}
    {s : σ} {r : Except Error Value × σ} (h : Fails ledger early refused s r)
    (hearly : ∀ e, early' e ↔ early e) (hrefused : ∀ e, refused' e ↔ refused e) :
    Fails ledger early' refused' s r where
  reasons e := by rw [h.reasons, hearly, hrefused]
  uncounted e he := h.uncounted e ((hearly e).1 he)
  counted e he := h.counted e ((hrefused e).1 he)

/-! ### Calls through a machine and through the shared gate -/

namespace Function
variable {μ ρ υ : Type} (f : Function) (args : List Value)

/-- A call through a machine fails where its dispatch is refused. -/
theorem fails_call (m : CallMachine μ ρ) (s : μ × World ρ) :
    Fails (·.2.ledger) (fun _ => False) (f.Refused args) s (f.call m args s) := by
  refine .of_refusals (fun e => ?_) fun e he => ?_
  · cases h : f.prepare args with
    | error e' =>
      have hr : f.Refused args e' := prepare_eq_error_iff.1 h
      rw [call_of_refused m hr, Except.error.injEq]
      exact ⟨fun he => he ▸ hr, hr.unique⟩
    | ok ws =>
      have hf : f.Fitted args ws := prepare_eq_ok_iff.1 h
      rw [call_of_fitted m hf]
      exact ⟨nofun, fun he => absurd he (hf.not_refused e)⟩
  · rw [call_of_refused m he]
    rfl

/-- A call through the shared gate fails at once while the gate is in use, and otherwise like any
    call. -/
theorem fails_callShared (code : Code (Thread υ)) (w : World (Thread υ)) :
    Fails (·.ledger) (fun e => w.native.borrowed = true ∧ e = .contextBusy)
      (fun e => w.native.borrowed = false ∧ f.Refused args e) w (f.callShared code args w) := by
  cases hb : w.native.borrowed with
  | true =>
    have hcall : f.callShared code args w = (.error .contextBusy, w) := if_pos hb
    rw [hcall]
    exact .of_early (by simp) (by simp)
  | false =>
    let taken : World (Thread υ) := { w with native := { w.native with borrowed := true } }
    let r := f.call (Gate.machine code) args (w.native.gate, taken)
    have hcall : f.callShared code args w =
        (r.1, { r.2.2 with native := { r.2.2.native with gate := r.2.1, borrowed := false } }) :=
      if_neg (by simp [hb])
    have h := f.fails_call args (Gate.machine code) (w.native.gate, taken)
    have hfails :
        Fails (·.ledger) (fun _ => False) (f.Refused args) w (f.callShared code args w) := by
      rw [hcall]
      refine .of_refusals (fun e => by rw [h.reasons, false_or]) fun e he => ?_
      have hr : r = _ := call_of_refused (Gate.machine code) he (w.native.gate, taken)
      rw [hr]
      rfl
    exact hfails.congr (by simp) (by simp)

end Function

/-! ### Calls of unhooked code -/

namespace Hook
variable {χ ε μ ρ : Type} (E : Engine ε) (r : Registry χ ε) (f : Function) (args : List Value)

/-- The functions of which no unhooked code is known, with the error that this is: the function at
    the null address, and functions that are not hooked. -/
inductive Registry.Unknown : Error → Prop
  | null (hf : f.address = .null) : Unknown (.nullPointer .target)
  | notHooked (hf : f.address ≠ .null) (hfind : r.find E f = none) :
      Unknown (.notHooked f.address)

/-- The refused dispatches to the unhooked code of a function. -/
inductive Registry.Refused : Error → Prop
  | intro {record : Record} {e : Error} (hf : f.address ≠ .null) (hfind : r.find E f = some record)
      (he : (f.moved record.unhooked).Refused args e) : Refused e

/-- A call of unhooked code fails where there is none, and else like any call of it. -/
theorem fails_callUnhooked (m : CallMachine μ ρ) (s : μ × World ρ) :
    Fails (·.2.ledger) (r.Unknown E f) (r.Refused E f args) s (callUnhooked E r m f args s) := by
  rw [callUnhooked, Registry.unhooked?]
  by_cases hf : f.address = .null
  · rw [if_pos (Address.isNull_iff.2 hf)]
    refine .of_early (fun e => ⟨?_, ?_⟩) fun e h => ?_
    · rintro (_ | ⟨hf', _⟩)
      · rfl
      · exact absurd hf hf'
    · rintro rfl
      exact .null hf
    · obtain ⟨hf', _, _⟩ := h
      exact hf' hf
  rw [if_neg fun h => hf (Address.isNull_iff.1 h)]
  cases hfind : r.find E f with
  | none =>
    refine .of_early (fun e => ⟨?_, ?_⟩) fun e h => ?_
    · rintro (hf' | _)
      · exact absurd hf' hf
      · rfl
    · rintro rfl
      exact .notHooked hf hfind
    · obtain ⟨_, hfind', _⟩ := h
      rw [hfind] at hfind'
      cases hfind'
  | some record =>
    refine Fails.congr ((f.moved record.unhooked).fails_call args m s) (fun e => ?_) fun e => ?_
    · refine iff_false_intro ?_
      rintro (hf' | ⟨_, hfind'⟩)
      · exact hf hf'
      · rw [hfind] at hfind'
        cases hfind'
    · constructor
      · rintro ⟨_, hfind', he⟩
        rw [hfind, Option.some.injEq] at hfind'
        rwa [hfind']
      · exact .intro hf hfind

end Hook

/-! ### All ways to call -/

/-- Which failed calls are counted. A call through a machine fails where its dispatch is refused; a
    call through the thread's shared gate, or of the unhooked code of a function, fails for the same
    reasons once it comes to its dispatch. Each of these failures adds one to the failures and one
    to the errors of its name, and nothing else is counted. Before the dispatch a call fails for
    three reasons: the shared gate is in use, the function is at the null address, or it is not
    hooked. Such a call has changed nothing, the counters included. -/
theorem refused_dispatch_counted_once {μ ρ υ χ ε : Type} (f : Function) (args : List Value) :
    (∀ (m : CallMachine μ ρ) (s : μ × World ρ),
      Fails (·.2.ledger) (fun _ => False) (f.Refused args) s (f.call m args s)) ∧
    (∀ (code : Code (Thread υ)) (w : World (Thread υ)),
      Fails (·.ledger) (fun e => w.native.borrowed = true ∧ e = .contextBusy)
        (fun e => w.native.borrowed = false ∧ f.Refused args e) w (f.callShared code args w)) ∧
    ∀ (E : Hook.Engine ε) (r : Hook.Registry χ ε) (m : CallMachine μ ρ) (s : μ × World ρ),
      Fails (·.2.ledger) (r.Unknown E f) (r.Refused E f args) s
        (Hook.callUnhooked E r m f args s) :=
  ⟨f.fails_call args, f.fails_callShared args, fun E r => Hook.fails_callUnhooked E r f args⟩

/-- Calls that fail before their dispatch and leave the counters at zero: of a function through a
    shared gate that is in use, of the unhooked code of a function that is not hooked, and of the
    unhooked code of nothing. -/
theorem failed_before_dispatch_uncounted :
    let f : Function := ⟨⟨0x4000⟩, .cdecl, ⟨[], .void, by decide⟩⟩
    let busy : World (Thread Unit) := .start { Thread.start () with borrowed := true }
    let shared := f.callShared (fun _ _ w => (0, w)) [] busy
    let m : CallMachine Recorder Unit := Recorder.machine fun w => (.none, w)
    let E := Hook.Detours.engine ⟨fun _ => none, 0x10000⟩
    let r : Hook.Registry Unit Hook.Detours := .start .none
    let unhooked (f : Function) := Hook.callUnhooked E r m f [] (Recorder.fresh, .start ())
    (shared.1 = .error .contextBusy ∧ shared.2.ledger.counters = .zero) ∧
    ((unhooked f).1 = .error (.notHooked f.address) ∧
      (unhooked f).2.2.ledger.counters = .zero) ∧
    ((unhooked (f.moved .null)).1 = .error (.nullPointer .target) ∧
      (unhooked (f.moved .null)).2.2.ledger.counters = .zero) ∧
    ∀ name, ¬ Counters.FailedOnce name .zero .zero := by
  refine ⟨⟨rfl, rfl⟩, ⟨rfl, rfl⟩, ⟨rfl, rfl⟩, fun name h => ?_⟩
  have hfailed : (0 : Nat) = (0 + 1) % 2 ^ 64 := h.failed
  exact absurd hfailed (by decide)

end NativeGate
