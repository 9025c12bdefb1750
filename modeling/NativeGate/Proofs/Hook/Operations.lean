import Mathlib.Logic.Function.Basic
import NativeGate.Hook.Detour

/-!
The operations of a registry. An operation is a step on the engine and, where that has found or made
something, a step on the table of callbacks under the identity that came out of the first
(`perform_eq_steps`). Nothing goes otherwise because an engine is observed (`perform_observed`), and
an observed engine shows that identities are used up one for each installation that is asked for
(`firstStep_asked`).
-/

namespace NativeGate.Hook

/-! ### Engines that keep the contract -/

namespace Engine
variable {ε : Type}

/-- The contract of a hook engine, on the states for which `Sound` holds: `find` shows what was
    installed and not yet uninstalled, and an installed record carries the identity asked for. An
    engine is asked to install only where there is no hook. -/
structure Contract (E : Engine ε) (Sound : ε → Prop) : Prop where
  install_sound : ∀ s f id, Sound s → E.find s f.address = none → Sound (E.install f id s).2
  install_ok : ∀ s f id record, Sound s → E.find s f.address = none →
    (E.install f id s).1 = .ok record → record.id = id ∧
      E.find (E.install f id s).2 = Function.update (E.find s) f.address (some record)
  install_error : ∀ s f id e, Sound s → E.find s f.address = none →
    (E.install f id s).1 = .error e → E.find (E.install f id s).2 = E.find s
  uninstall_sound : ∀ s a, Sound s → Sound (E.uninstall a s).2
  uninstall : ∀ s a, Sound s → (E.uninstall a s).1 = E.find s a ∧
    E.find (E.uninstall a s).2 = Function.update (E.find s) a none

/-- The engine `E` with a list of the addresses it was asked to install hooks at. -/
def observed (E : Engine ε) : Engine (ε × List Address) where
  find s a := E.find s.1 a
  install f id s :=
    let t := E.install f id s.1
    (t.1, (t.2, s.2 ++ [f.address]))
  uninstall a s :=
    let t := E.uninstall a s.1
    (t.1, (t.2, s.2))

end Engine

/-! ### Operations and what they leave to do -/

/-- An operation of the registry. -/
inductive Op (χ : Type) where
  | add (f : Function) (phase : Phase) (callback : χ)
  | remove (f : Function) (phase : Phase) (callback : χ)
  | uninstall (f : Function)
  | find (f : Function)
  | count (f : Function) (phase : Phase)

/-- What an operation answers. -/
inductive Answer where
  | added (result : Except Error Unit)
  | removed
  | uninstalled (hooked : Bool)
  | found (record : Option Record)
  | counted (n : Nat)

/-- What an operation has left to do after its first step. -/
inductive Rest (χ : Type) where
  | enroll (id : HookId) (phase : Phase) (callback : χ)
  | withdraw (id : HookId) (phase : Phase) (callback : χ)
  | forget (id : HookId)
  | count (id : HookId) (phase : Phase)

/-- The identity that the first step came out with. -/
def Rest.id {χ : Type} : Rest χ → HookId
  | enroll id _ _ | withdraw id _ _ | forget id | count id _ => id

namespace Registry
variable {χ ε : Type}

/-- The registry without the list that an observed engine keeps. -/
def unobserved (r : Registry χ (ε × List Address)) : Registry χ ε := { r with engine := r.engine.1 }

/-! ### The step on the engine -/

/-- The step of an operation on the engine: the answer where that is all, or else what is left. -/
def firstStep (E : Engine ε) (r : Registry χ ε) : Op χ → (Answer ⊕ Rest χ) × Registry χ ε
  | .add f phase c =>
    if f.address.isNull then (.inl (.added (.error (.nullPointer .target))), r)
    else
      match secure E f r with
      | (.error e, r) => (.inl (.added (.error e)), r)
      | (.ok secured, r) => (.inr (.enroll secured.record.id phase c), r)
  | .remove f phase c =>
    match r.find E f with
    | none => (.inl .removed, r)
    | some record => (.inr (.withdraw record.id phase c), r)
  | .uninstall f =>
    match detach E f r with
    | (none, r) => (.inl (.uninstalled false), r)
    | (some record, r) => (.inr (.forget record.id), r)
  | .find f => (.inl (.found (r.find E f)), r)
  | .count f phase =>
    match r.find E f with
    | none => (.inl (.counted 0), r)
    | some record => (.inr (.count record.id phase), r)

theorem firstStep_observed (E : Engine ε) (r : Registry χ (ε × List Address)) (op : Op χ) :
    r.unobserved.firstStep E op =
      ((r.firstStep E.observed op).1, (r.firstStep E.observed op).2.unobserved) := by
  cases op with
  | add f phase c =>
    unfold firstStep secure find Engine.observed unobserved
    dsimp only
    split
    · rfl
    · cases hfind : E.find r.engine.1 f.address with
      | some record => rfl
      | none => cases (E.install f ⟨r.nextId⟩ r.engine.1).1 <;> rfl
  | remove f phase c =>
    unfold firstStep find Engine.observed unobserved
    dsimp only
    cases E.find r.engine.1 f.address <;> rfl
  | uninstall f =>
    unfold firstStep detach Engine.observed unobserved
    dsimp only
    cases (E.uninstall f.address r.engine.1).1 <;> rfl
  | find f => rfl
  | count f phase =>
    unfold firstStep find Engine.observed unobserved
    dsimp only
    cases E.find r.engine.1 f.address <;> rfl

/-- An identity is used up exactly where an installation is asked for, which an addition alone does,
    once and at its own target. -/
theorem firstStep_asked (E : Engine ε) (r : Registry χ (ε × List Address)) (op : Op χ) :
    let r' := (r.firstStep E.observed op).2
    r'.nextId = r.nextId ∧ r'.engine.2 = r.engine.2 ∨
      ∃ f phase c, op = .add f phase c ∧ r'.nextId = r.nextId + 1 ∧
        r'.engine.2 = r.engine.2 ++ [f.address] := by
  cases op with
  | add f phase c =>
    simp only [firstStep, secure]
    split
    · exact .inl ⟨rfl, rfl⟩
    · cases r.find E.observed f with
      | some record => exact .inl ⟨rfl, rfl⟩
      | none =>
        refine .inr ⟨f, phase, c, rfl, ?_⟩
        cases (E.observed.install f ⟨r.nextId⟩ r.engine).1 <;> exact ⟨rfl, rfl⟩
  | remove f phase c =>
    refine .inl ?_
    simp only [firstStep]
    cases r.find E.observed f <;> exact ⟨rfl, rfl⟩
  | uninstall f =>
    refine .inl ?_
    simp only [firstStep, detach]
    cases (E.observed.uninstall f.address r.engine).1 <;> exact ⟨rfl, rfl⟩
  | find f => exact .inl ⟨rfl, rfl⟩
  | count f phase =>
    refine .inl ?_
    simp only [firstStep]
    cases r.find E.observed f <;> exact ⟨rfl, rfl⟩

theorem firstStep_nextId_le (E : Engine ε) (r : Registry χ ε) (op : Op χ) :
    (r.firstStep E op).2.nextId ≤ r.nextId + 1 := by
  let watched : Registry χ (ε × List Address) := ⟨(r.engine, []), r.table, r.nextId⟩
  have hobserved : (r.firstStep E op).2.nextId = (watched.firstStep E.observed op).2.nextId :=
    congrArg (fun t => t.2.nextId) (firstStep_observed E watched op)
  rw [hobserved]
  obtain ⟨hnext, _⟩ | ⟨_, _, _, _, hnext, _⟩ := firstStep_asked E watched op
  · exact Nat.le_succ_of_le (Nat.le_of_eq hnext)
  · exact Nat.le_of_eq hnext

variable [DecidableEq χ]

/-! ### The step on the table -/

/-- The step of an operation on the table. -/
def secondStep (r : Registry χ ε) : Rest χ → Answer × Registry χ ε
  | .enroll id phase c => (.added (.ok ()), r.enroll id phase c)
  | .withdraw id phase c => (.removed, (r.withdraw id phase c).2)
  | .forget id => (.uninstalled true, r.forget id)
  | .count id phase => (.counted (r.table.length id phase), r)

theorem secondStep_engine (r : Registry χ ε) (rest : Rest χ) :
    (r.secondStep rest).2.engine = r.engine := by cases rest <;> rfl

theorem secondStep_nextId (r : Registry χ ε) (rest : Rest χ) :
    (r.secondStep rest).2.nextId = r.nextId := by cases rest <;> rfl

theorem secondStep_observed (r : Registry χ (ε × List Address)) (rest : Rest χ) :
    r.unobserved.secondStep rest = ((r.secondStep rest).1, (r.secondStep rest).2.unobserved) := by
  cases rest <;> rfl

theorem secondStep_asked (r : Registry χ (ε × List Address)) (rest : Rest χ) :
    (r.secondStep rest).2.engine.2 = r.engine.2 := congrArg Prod.snd (secondStep_engine r rest)

/-! ### Both steps -/

/-- One operation on a registry. -/
def perform (E : Engine ε) (r : Registry χ ε) : Op χ → Answer × Registry χ ε
  | .add f phase c =>
    let t := r.addCallback E f phase c
    (.added (t.1.map fun _ => ()), t.2)
  | .remove f phase c => (.removed, (r.removeCallback E f phase c).2)
  | .uninstall f =>
    let t := r.uninstall E f
    (.uninstalled t.1, t.2.2)
  | .find f => (.found (r.find E f), r)
  | .count f phase => (.counted (r.count E f phase), r)

/-- Operations in order, with all their answers. -/
def performAll (E : Engine ε) : List (Op χ) → Registry χ ε → List Answer × Registry χ ε
  | [], r => ([], r)
  | op :: ops, r =>
    let t := r.perform E op
    let rest := performAll E ops t.2
    (t.1 :: rest.1, rest.2)

/-- An operation by itself is its two steps. -/
theorem perform_eq_steps (E : Engine ε) (r : Registry χ ε) (op : Op χ) :
    r.perform E op =
      match r.firstStep E op with
      | (.inl answer, r) => (answer, r)
      | (.inr rest, r) => r.secondStep rest := by
  cases op with
  | add f phase c =>
    simp only [perform, addCallback, firstStep]
    split
    · rfl
    · rcases secure E f r with ⟨e | ⟨record, fresh⟩, r'⟩ <;> rfl
  | remove f phase c =>
    simp only [perform, removeCallback, firstStep]
    cases r.find E f <;> rfl
  | uninstall f =>
    simp only [perform, uninstall, firstStep]
    rcases detach E f r with ⟨_ | record, r'⟩ <;> rfl
  | find f => rfl
  | count f phase =>
    simp only [perform, count, firstStep]
    cases r.find E f <;> rfl

/-- Nothing is answered otherwise because an engine is observed. -/
theorem perform_observed (E : Engine ε) (r : Registry χ (ε × List Address)) (op : Op χ) :
    r.unobserved.perform E op =
      ((r.perform E.observed op).1, (r.perform E.observed op).2.unobserved) := by
  rw [perform_eq_steps, perform_eq_steps, firstStep_observed]
  rcases r.firstStep E.observed op with ⟨answer | rest, r'⟩
  · rfl
  · exact secondStep_observed r' rest

theorem performAll_observed (E : Engine ε) (ops : List (Op χ))
    (r : Registry χ (ε × List Address)) :
    r.unobserved.performAll E ops =
      ((r.performAll E.observed ops).1, (r.performAll E.observed ops).2.unobserved) := by
  induction ops generalizing r with
  | nil => rfl
  | cons op ops ih =>
    simp only [performAll, perform_observed]
    rw [ih]

theorem perform_nextId_le (E : Engine ε) (r : Registry χ ε) (op : Op χ) :
    (r.perform E op).2.nextId ≤ r.nextId + 1 := by
  have hfirst := firstStep_nextId_le E r op
  rw [perform_eq_steps]
  rcases hstep : r.firstStep E op with ⟨answer | rest, r'⟩
  · rw [hstep] at hfirst
    exact hfirst
  · rw [hstep] at hfirst
    exact Nat.le_trans (Nat.le_of_eq (secondStep_nextId r' rest)) hfirst

/-- A run uses up no more identities than it has operations. -/
theorem performAll_nextId_le (E : Engine ε) (ops : List (Op χ)) (r : Registry χ ε) :
    (r.performAll E ops).2.nextId ≤ r.nextId + ops.length := by
  induction ops generalizing r with
  | nil => exact Nat.le_refl _
  | cons op ops ih =>
    have hop := perform_nextId_le E r op
    have hops := ih (r.perform E op).2
    rw [List.length_cons]
    exact Nat.le_trans hops (by omega)

end Registry

end NativeGate.Hook
