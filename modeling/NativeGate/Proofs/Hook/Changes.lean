import NativeGate.Proofs.Hook.Interleaving
import NativeGate.Proofs.Hook.Shelf

/-!
Changes of a registry step by step. The first step of a change answers, finds a hook, installs one
or takes one out (`Registry.First`), and the second changes the lists of the hook that the first has
found, as it would change them on a shelf (`Shelf.lists_perform`). While changes run side by side,
hooks are told apart by their identities, and the identity that a halfway change holds belongs to no
hook but the one that it has found (`Traffic.Orderly`).
-/

namespace NativeGate.Hook

namespace Change
variable {χ : Type}

/-- What a change has left to do when its first step has come out with an identity. -/
def rest (id : HookId) : Change χ → Rest χ
  | add _ phase c => .enroll id phase c
  | remove _ phase c => .withdraw id phase c
  | uninstall _ => .forget id

theorem rest_id (id : HookId) (change : Change χ) : (change.rest id).id = id := by
  cases change <;> rfl

end Change

/-- If the lists of an address are those under an identity, they still are when both have been
    changed. -/
theorem Shelf.lists_perform {χ ε : Type} [DecidableEq χ] {view : Error → Error}
    {outcome : Address → Except Error Unit} {a : Address} {change : Change χ} (h : change.Edits a)
    (hok : outcome a = .ok ()) {m : Shelf χ} {r : Registry χ ε} {id : HookId}
    (hlists : m.lists a = r.table.snapshot id) :
    (m.perform view outcome change).2.lists a =
      (r.secondStep (change.rest id)).2.table.snapshot id := by
  funext phase'
  cases change with
  | add f phase c =>
    obtain ⟨rfl, hnull⟩ := h
    refine Eq.trans ?_ (Table.snapshot_push ..).symm
    rw [perform_add view outcome hnull hok, lists_put, Function.update_apply, hlists]
    by_cases hphase : phase' = phase
    · simp [hphase]
    · simp [hphase, Ne.symm hphase]
  | remove f phase c =>
    cases h
    refine Eq.trans ?_ (Table.snapshot_remove ..).symm
    by_cases hm : m f.address = none
    · -- there is nothing to take out of a list without a hook on the shelf
      have hnil : r.table.snapshot id = fun _ => [] := by
        rw [← hlists, lists, hm]
        rfl
      rw [perform_remove_of_none view outcome hm, hlists, hnil]
      simp
    · rw [perform_remove_of_some view outcome hm, lists_put, Function.update_apply, hlists]
      by_cases hphase : phase' = phase
      · simp [hphase]
      · simp [hphase, Ne.symm hphase]
  | uninstall f => cases h

namespace Registry
variable {χ ε : Type} {E : Engine ε} {Sound : ε → Prop} {view : Error → Error}
  {outcome : Address → Except Error Unit} {r r' : Registry χ ε}

/-- A hook after a change at one address is what the change put there, or is at another address. -/
theorem find_of_update {a a' : Address} {found : Option Record} {record : Record}
    (h : E.find r'.engine = Function.update (E.find r.engine) a found)
    (hfind : E.find r'.engine a' = some record) :
    a' = a ∧ found = some record ∨ a' ≠ a ∧ E.find r.engine a' = some record := by
  rw [h] at hfind
  by_cases ha : a' = a
  · rw [ha, Function.update_self] at hfind
    exact .inl ⟨ha, hfind⟩
  · rw [Function.update_of_ne ha] at hfind
    exact .inr ⟨ha, hfind⟩

variable [DecidableEq χ]

/-- What the first step of a change can do: answer and leave the hooks, as a shelf does that has
    nothing where no hook is; find a hook; install one under the next identity; or take one out. -/
inductive First (E : Engine ε) (view : Error → Error) (outcome : Address → Except Error Unit)
    (r : Registry χ ε) : Change χ → Answer ⊕ Rest χ → Registry χ ε → Prop
  | answered {change : Change χ} {answer : Answer} {r' : Registry χ ε}
      (hfinds : E.find r'.engine = E.find r.engine)
      (hshelf : ∀ m : Shelf χ,
        (E.find r.engine change.address = none → m change.address = none) →
          m.perform view outcome change = (answer.seen view, m)) :
      First E view outcome r change (.inl answer) r'
  | found {change : Change χ} {record : Record}
      (hfind : E.find r.engine change.address = some record)
      (hedit : change.Edits change.address) :
      First E view outcome r change (.inr (change.rest record.id)) r
  | installed {f : Function} {phase : Phase} {c : χ} {record : Record} {r' : Registry χ ε}
      (hfind : E.find r.engine f.address = none) (hnull : f.address ≠ .null)
      (hid : record.id.number = r.nextId) (hok : outcome f.address = .ok ())
      (hfinds : E.find r'.engine = Function.update (E.find r.engine) f.address (some record)) :
      First E view outcome r (.add f phase c) (.inr ((Change.add f phase c).rest record.id)) r'
  | detached {f : Function} {record : Record} {r' : Registry χ ε}
      (hfind : E.find r.engine f.address = some record)
      (hfinds : E.find r'.engine = Function.update (E.find r.engine) f.address none) :
      First E view outcome r (.uninstall f) (.inr ((Change.uninstall f).rest record.id)) r'

theorem first_firstStep (hE : E.Contract Sound) (hsteady : E.Steady Sound view outcome)
    (hs : Sound r.engine) (change : Change χ) :
    First E view outcome r change (r.firstStep E change.op).1 (r.firstStep E change.op).2 := by
  cases change with
  | add f phase c =>
    simp only [Change.op, firstStep]
    split
    · next hnull => exact .answered rfl fun m _ => by rw [Shelf.perform, if_pos hnull]; rfl
    · next hnull =>
      have hf : f.address ≠ .null := fun h => hnull (Address.isNull_iff.2 h)
      unfold secure
      cases hfind : r.find E f with
      | some record => exact .found hfind ⟨rfl, hf⟩
      | none =>
        have houtcome := hsteady _ f ⟨r.nextId⟩ hs hfind
        cases hinstall : (E.install f ⟨r.nextId⟩ r.engine).1 with
        | ok record =>
          obtain ⟨hid, hfinds⟩ := hE.install_ok _ _ _ _ hs hfind hinstall
          rw [hinstall] at houtcome
          simp only [hinstall, Except.map]
          exact .installed hfind hf (congrArg HookId.number hid) houtcome.symm hfinds
        | error e =>
          rw [hinstall] at houtcome
          simp only [hinstall, Except.map]
          refine .answered (hE.install_error _ _ _ _ hs hfind hinstall) fun m hm => ?_
          rw [Shelf.perform, if_neg hnull, show m f.address = none from hm hfind,
            show outcome f.address = .error (view e) from houtcome.symm]
          rfl
  | remove f phase c =>
    simp only [Change.op, firstStep]
    cases hfind : r.find E f with
    | none => exact .answered rfl fun m hm => Shelf.perform_remove_of_none _ _ (hm hfind) ..
    | some record => exact .found hfind rfl
  | uninstall f =>
    obtain ⟨hremoved, hfinds⟩ := hE.uninstall r.engine f.address hs
    simp only [Change.op, firstStep, detach, hremoved]
    cases hfind : E.find r.engine f.address with
    | some record => exact .detached hfind hfinds
    | none =>
      rw [Function.update_eq_self_iff.2 hfind.symm] at hfinds
      refine .answered hfinds fun m hm => ?_
      have hnone : m f.address = none := hm hfind
      rw [Shelf.perform, hnone, Function.update_eq_self_iff.2 hnone.symm]
      rfl

/-- A hook after the first step of a change was there before it, or is the new one. -/
theorem First.find_of_find {change : Change χ} {p : Answer ⊕ Rest χ}
    (h : First E view outcome r change p r') {a : Address} {record : Record}
    (hfind : E.find r'.engine a = some record) :
    E.find r.engine a = some record ∨
      a = change.address ∧ record.id.number = r.nextId ∧ outcome a = .ok () := by
  cases h with
  | answered hfinds _ => exact .inl (hfinds ▸ hfind)
  | found _ _ => exact .inl hfind
  | installed _ _ hid hok hfinds =>
    rcases find_of_update hfinds hfind with ⟨rfl, hnew⟩ | ⟨_, hold⟩
    · cases hnew
      exact .inr ⟨rfl, hid, hok⟩
    · exact .inl hold
  | detached _ hfinds =>
    rcases find_of_update hfinds hfind with ⟨_, hnone⟩ | ⟨_, hold⟩
    · cases hnone
    · exact .inl hold

end Registry

/-! ### Operations side by side -/

namespace Traffic
variable {χ ε : Type}

theorem getElem?_set_of_some {tasks : List (Task χ)} {i : Nat} {task : Task χ}
    (h : tasks[i]? = some task) (moved : Task χ) (j : Nat) :
    (tasks.set i moved)[j]? = if i = j then some moved else tasks[j]? := by
  rw [List.getElem?_set, if_pos (List.getElem?_eq_some_iff.1 h).1]

section
variable {E : Engine ε} {Sound : ε → Prop} {view : Error → Error}
  {outcome : Address → Except Error Unit} {changes : List (Change χ)} {s : Traffic χ ε}
  {r r' : Registry χ ε}

/-- No two hooks have the same identity. -/
def Distinct (E : Engine ε) (r : Registry χ ε) : Prop :=
  ∀ a a' record record', E.find r.engine a = some record → E.find r.engine a' = some record' →
    record.id = record'.id → a = a'

/-- How far a change has come. The identity that it holds after its first step belongs to no hook
    but one whose lists it changes. -/
inductive Stands (E : Engine ε) (r : Registry χ ε) (change : Change χ) : Task χ → Prop
  | waiting : Stands E r change (.waiting change.op)
  | halfway (id : HookId)
      (hedits : ∀ a record, E.find r.engine a = some record → record.id = id → change.Edits a) :
      Stands E r change (.halfway (change.rest id))
  | done (answer : Answer) : Stands E r change (.done answer)

/-- A change stands where it did while no hook gets the identity that it holds. -/
theorem Stands.of_find {change : Change χ} {task : Task χ} (h : Stands E r change task)
    (hfinds : ∀ rest, task = .halfway rest → ∀ a record, E.find r'.engine a = some record →
      record.id = rest.id → E.find r.engine a = some record) : Stands E r' change task := by
  cases h with
  | waiting => exact .waiting
  | halfway id hedits =>
    refine .halfway id fun a record hfind hid => ?_
    exact hedits a record (hfinds _ rfl a record hfind (hid.trans (Change.rest_id ..).symm)) hid
  | done answer => exact .done answer

variable [DecidableEq χ]

theorem stands_begun {change : Change χ} {p : Answer ⊕ Rest χ}
    (h : Registry.First E view outcome r change p r') (hold : Distinct E r)
    (hnew : Distinct E r') : Stands E r' change (.begun p) := by
  cases h with
  | answered _ _ => exact .done _
  | found hfind hedit =>
    refine .halfway _ fun a record hfind' hid => ?_
    rw [hold a _ _ _ hfind' hfind hid]
    exact hedit
  | @installed f _ _ record _ _ hnull _ _ hfinds =>
    have hfind : E.find r'.engine f.address = some record := by rw [hfinds, Function.update_self]
    refine .halfway _ fun a record' hfind' hid => ?_
    rw [hnew a _ _ _ hfind' hfind hid]
    exact ⟨rfl, hnull⟩
  | detached hfind hfinds =>
    refine .halfway _ fun a record' hfind' hid => ?_
    rcases Registry.find_of_update hfinds hfind' with ⟨_, hnone⟩ | ⟨ha, hfind'⟩
    · cases hnone
    · exact absurd (hold a _ _ _ hfind' hfind hid) ha

/-- Hooks are told apart by their identities, all of them could be installed, and the operations are
    the changes. -/
structure Orderly (E : Engine ε) (Sound : ε → Prop) (outcome : Address → Except Error Unit)
    (changes : List (Change χ)) (s : Traffic χ ε) : Prop where
  given : s.Given E Sound
  distinct : Distinct E s.registry
  accepted : ∀ a record, E.find s.registry.engine a = some record → outcome a = .ok ()
  stands : ∀ (i : Nat) task, s.tasks[i]? = some task →
    ∃ change, changes[i]? = some change ∧ Stands E s.registry change task

/-- What a step of changes can do. -/
theorem Orderly.move_cases (h : s.Orderly E Sound outcome changes) (hE : E.Contract Sound)
    (hsteady : E.Steady Sound view outcome) (i : Nat) :
    s.move E i = s ∨
    (∃ change p r', changes[i]? = some change ∧ s.tasks[i]? = some (.waiting change.op) ∧
      Registry.First E view outcome s.registry change p r' ∧
      Registry.Begun E Sound s.registry p r' ∧ s.move E i = ⟨r', s.tasks.set i (.begun p)⟩) ∨
    ∃ change id, changes[i]? = some change ∧ s.tasks[i]? = some (.halfway (change.rest id)) ∧
      (∀ a record, E.find s.registry.engine a = some record → record.id = id →
        change.Edits a) ∧
      s.move E i = ⟨(s.registry.secondStep (change.rest id)).2,
        s.tasks.set i (.done change.completed)⟩ := by
  obtain heq | ⟨op, htask, heq⟩ | ⟨rest, htask, heq⟩ := Traffic.move_cases E s i
  · exact .inl heq
  · obtain ⟨change, hchange, hstands⟩ := h.stands i _ htask
    cases hstands
    exact .inr (.inl ⟨change, _, _, hchange, htask,
      Registry.first_firstStep hE hsteady h.given.sound change,
      Registry.begun_firstStep hE h.given.sound change.op, heq⟩)
  · obtain ⟨change, hchange, hstands⟩ := h.stands i _ htask
    cases hstands with
    | halfway id hedits =>
      have hanswer : (s.registry.secondStep (change.rest id)).1 = change.completed := by
        cases change <;> rfl
      exact .inr (.inr ⟨change, id, hchange, htask, hedits, hanswer ▸ heq⟩)

theorem Orderly.move (h : s.Orderly E Sound outcome changes) (hE : E.Contract Sound)
    (hsteady : E.Steady Sound view outcome) (i : Nat) :
    (s.move E i).Orderly E Sound outcome changes := by
  have hgiven := h.given.move hE i
  obtain heq | ⟨change, p, r', hchange, htask, hfirst, _, heq⟩ |
    ⟨change, id, hchange, htask, _, heq⟩ := h.move_cases hE hsteady i
  · rw [heq]
    exact h
  · have hnew : ∀ {a record}, E.find s.registry.engine a = some record →
        record.id.number ≠ s.registry.nextId := fun {a record} hfind =>
      Nat.ne_of_lt (h.given.live _ ⟨a, record, hfind, rfl⟩)
    have hdistinct : Distinct E r' := by
      intro a a' record record' hfind hfind' hid
      rcases hfirst.find_of_find hfind with hold | ⟨ha, hnext, _⟩ <;>
        rcases hfirst.find_of_find hfind' with hold' | ⟨ha', hnext', _⟩
      · exact h.distinct a a' record record' hold hold' hid
      · exact absurd (hid ▸ hnext') (hnew hold)
      · exact absurd (hid ▸ hnext) (hnew hold')
      · rw [ha, ha']
    rw [heq] at hgiven ⊢
    refine ⟨hgiven, hdistinct, fun a record hfind => ?_, fun j task hj => ?_⟩
    · rcases hfirst.find_of_find hfind with hold | ⟨_, _, hok⟩
      · exact h.accepted a record hold
      · exact hok
    · rw [getElem?_set_of_some htask] at hj
      split at hj
      · next hij =>
        subst hij
        cases hj
        exact ⟨change, hchange, stands_begun hfirst h.distinct hdistinct⟩
      · obtain ⟨other, hother, hstands⟩ := h.stands j task hj
        refine ⟨other, hother, hstands.of_find fun rest hrest a record hfind hid => ?_⟩
        subst hrest
        refine (hfirst.find_of_find hfind).resolve_right fun ⟨_, hnext, _⟩ => ?_
        rw [hid] at hnext
        exact Nat.ne_of_lt (h.given.halfway rest (List.mem_of_getElem? hj)) hnext
  · have hengine := Registry.secondStep_engine s.registry (change.rest id)
    rw [heq] at hgiven ⊢
    refine ⟨hgiven, ?_, ?_, fun j task hj => ?_⟩
    · rw [Distinct, hengine]
      exact h.distinct
    · rw [hengine]
      exact h.accepted
    · rw [getElem?_set_of_some htask] at hj
      split at hj
      · next hij =>
        subst hij
        cases hj
        exact ⟨change, hchange, .done _⟩
      · obtain ⟨other, hother, hstands⟩ := h.stands j task hj
        refine ⟨other, hother, hstands.of_find fun rest hrest a record hfind hid => ?_⟩
        rw [hengine] at hfind
        exact hfind

end
end Traffic

end NativeGate.Hook
