import Mathlib.Data.List.Induction
import NativeGate.Proofs.Hook.Registry

/-!
Registry operations side by side. Between the step of an operation on the engine and its step on the
table of callbacks, steps of other operations may come; `Traffic` runs any number of operations by
any schedule of such steps. When no operation is halfway, a callback under the identity of no live
hook is there because it was enrolled too late, after its hook was removed, and then nothing takes
it out any more (`lists_outlive_hooks_by_late_additions`). The identities given out in a run are as
many as the installations that the engine was asked for (`Traffic.Numbered`).
-/

namespace NativeGate.Hook

theorem Table.mem_snapshot {χ : Type} {t : Table χ} {id : HookId} {phase : Phase} {c : χ} :
    c ∈ t.snapshot id phase ↔ ⟨id, phase, c⟩ ∈ t.registrations := by
  simp only [snapshot, List.mem_map, List.mem_filter, decide_eq_true_eq]
  constructor
  · rintro ⟨x, ⟨hx, rfl, rfl⟩, rfl⟩
    exact hx
  · exact fun h => ⟨_, ⟨h, rfl, rfl⟩, rfl⟩

namespace Registry
variable {χ ε : Type}

/-! ### What a step can do -/

/-- A hook with the identity is installed. -/
def Live (E : Engine ε) (r : Registry χ ε) (id : HookId) : Prop :=
  ∃ a record, E.find r.engine a = some record ∧ record.id = id

/-- What the first step of an operation can do: the table stays, a hook that goes leaves its list to
    be dropped, and an identity that is new is the next one. What is left to do is under the
    identity of a hook that was there or is new. -/
structure Begun (E : Engine ε) (Sound : ε → Prop) (r : Registry χ ε) (p : Answer ⊕ Rest χ)
    (r' : Registry χ ε) : Prop where
  sound : Sound r'.engine
  table : r'.table = r.table
  nextId : r.nextId ≤ r'.nextId
  keeps : ∀ id, r.Live E id → r'.Live E id ∨ p = .inr (.forget id)
  gains : ∀ id, r'.Live E id → r.Live E id ∨ id.number = r.nextId ∧ r.nextId < r'.nextId
  names : ∀ rest, p = .inr rest →
    r.Live E rest.id ∨ rest.id.number = r.nextId ∧ r.nextId < r'.nextId

section Begun
variable {E : Engine ε} {Sound : ε → Prop} {r s : Registry χ ε}

theorem live_of_find {f : Function} {record : Record} (h : r.find E f = some record) :
    r.Live E record.id := ⟨f.address, record, h, rfl⟩

theorem live_congr (h : E.find s.engine = E.find r.engine) (id : HookId) :
    s.Live E id ↔ r.Live E id := by
  rw [Live, Live, h]

/-- What is live after a change at one address was live before it, or is what the change put
    there. -/
theorem live_of_update {id : HookId} (hlive : s.Live E id) {a : Address} {found : Option Record}
    (h : E.find s.engine = Function.update (E.find r.engine) a found) :
    r.Live E id ∨ ∃ record, found = some record ∧ record.id = id := by
  obtain ⟨b, record, hfind, hid⟩ := hlive
  rw [h] at hfind
  by_cases hb : b = a
  · subst hb
    rw [Function.update_self] at hfind
    exact .inr ⟨record, hfind, hid⟩
  · rw [Function.update_of_ne hb] at hfind
    exact .inl ⟨b, record, hfind, hid⟩

/-- What was live before a change at one address is live after it, or is what the change took
    away. -/
theorem live_update_of {id : HookId} (hlive : r.Live E id) {a : Address} {found : Option Record}
    (h : E.find s.engine = Function.update (E.find r.engine) a found) :
    s.Live E id ∨ ∃ record, E.find r.engine a = some record ∧ record.id = id := by
  refine live_of_update hlive (a := a) ?_
  rw [h, Function.update_idem, Function.update_eq_self]

/-- A first step that only looks. -/
theorem begun_of_looking (hs : Sound r.engine) {p : Answer ⊕ Rest χ}
    (hp : ∀ rest, p = .inr rest → r.Live E rest.id) : Begun E Sound r p r :=
  ⟨hs, rfl, Nat.le_refl _, fun _ h => .inl h, fun _ h => .inl h, fun rest h => .inl (hp rest h)⟩

/-- A first step that installs a hook. -/
theorem begun_of_installing (hE : E.Contract Sound) (hs : Sound r.engine) {f : Function}
    (hfind : r.find E f = none) {record : Record}
    (hinstall : (E.install f ⟨r.nextId⟩ r.engine).1 = .ok record) (phase : Phase) (c : χ) :
    Begun E Sound r (.inr (.enroll record.id phase c))
      ⟨(E.install f ⟨r.nextId⟩ r.engine).2, r.table, r.nextId + 1⟩ := by
  obtain ⟨hid, hfind'⟩ := hE.install_ok _ _ _ _ hs hfind hinstall
  refine ⟨hE.install_sound _ _ _ hs hfind, rfl, Nat.le_succ _, fun id h => .inl ?_,
    fun id h => ?_, fun rest h => .inr ?_⟩
  · refine Or.resolve_right (live_update_of h hfind') fun ⟨found, hfound, _⟩ => ?_
    rw [show E.find r.engine f.address = none from hfind] at hfound
    cases hfound
  · rcases live_of_update h hfind' with hlive | ⟨found, hfound, rfl⟩
    · exact .inl hlive
    · cases hfound
      rw [hid]
      exact .inr ⟨rfl, Nat.lt_succ_self _⟩
  · cases h
    rw [Rest.id, hid]
    exact ⟨rfl, Nat.lt_succ_self _⟩

/-- A first step whose installation fails uses an identity up. -/
theorem begun_of_failing (hE : E.Contract Sound) (hs : Sound r.engine) {f : Function}
    (hfind : r.find E f = none) {e : Error}
    (hinstall : (E.install f ⟨r.nextId⟩ r.engine).1 = .error e) :
    Begun E Sound r (.inl (.added (.error e)))
      ⟨(E.install f ⟨r.nextId⟩ r.engine).2, r.table, r.nextId + 1⟩ := by
  have hsame := hE.install_error _ _ _ _ hs hfind hinstall
  exact ⟨hE.install_sound _ _ _ hs hfind, rfl, Nat.le_succ _,
    fun id h => .inl ((live_congr hsame id).2 h), fun id h => .inl ((live_congr hsame id).1 h),
    fun rest h => by cases h⟩

/-- A first step that takes a hook out. -/
theorem begun_of_detaching (hE : E.Contract Sound) (hs : Sound r.engine) {f : Function}
    {record : Record} (hfind : r.find E f = some record) :
    Begun E Sound r (.inr (.forget record.id))
      { r with engine := (E.uninstall f.address r.engine).2 } := by
  obtain ⟨_, hfind'⟩ := hE.uninstall r.engine f.address hs
  refine ⟨hE.uninstall_sound _ _ hs, rfl, Nat.le_refl _, fun id h => ?_, fun id h => .inl ?_,
    fun rest h => .inl ?_⟩
  · refine Or.imp_right (fun ⟨found, hfound, hid⟩ => ?_) (live_update_of h hfind')
    rw [show E.find r.engine f.address = some record from hfind] at hfound
    cases hfound
    rw [hid]
  · refine Or.resolve_right (live_of_update h hfind') fun ⟨found, hfound, _⟩ => ?_
    cases hfound
  · cases h
    exact live_of_find hfind

theorem begun_firstStep (hE : E.Contract Sound) (hs : Sound r.engine) (op : Op χ) :
    Begun E Sound r (r.firstStep E op).1 (r.firstStep E op).2 := by
  cases op with
  | add f phase c =>
    simp only [firstStep]
    split
    · exact begun_of_looking hs fun rest h => by cases h
    · unfold secure
      cases hfind : r.find E f with
      | some record =>
        refine begun_of_looking hs fun rest h => ?_
        cases h
        exact live_of_find hfind
      | none =>
        cases hinstall : (E.install f ⟨r.nextId⟩ r.engine).1 with
        | ok record =>
          simp only [hinstall, Except.map]
          exact begun_of_installing hE hs hfind hinstall phase c
        | error e =>
          simp only [hinstall, Except.map]
          exact begun_of_failing hE hs hfind hinstall
  | remove f phase c =>
    simp only [firstStep]
    cases hfind : r.find E f with
    | none => exact begun_of_looking hs fun rest h => by cases h
    | some record =>
      refine begun_of_looking hs fun rest h => ?_
      cases h
      exact live_of_find hfind
  | uninstall f =>
    obtain ⟨hremoved, hfind'⟩ := hE.uninstall r.engine f.address hs
    simp only [firstStep, detach, hremoved]
    cases hfind : E.find r.engine f.address with
    | some record => exact begun_of_detaching hE hs hfind
    | none =>
      have hsame : E.find (E.uninstall f.address r.engine).2 = E.find r.engine := by
        rw [hfind', Function.update_eq_self_iff.2 hfind.symm]
      exact ⟨hE.uninstall_sound _ _ hs, rfl, Nat.le_refl _,
        fun id h => .inl ((live_congr hsame id).2 h),
        fun id h => .inl ((live_congr hsame id).1 h), fun rest h => by cases h⟩
  | find f => exact begun_of_looking hs fun rest h => by cases h
  | count f phase =>
    simp only [firstStep]
    cases hfind : r.find E f with
    | none => exact begun_of_looking hs fun rest h => by cases h
    | some record =>
      refine begun_of_looking hs fun rest h => ?_
      cases h
      exact live_of_find hfind

end Begun

variable [DecidableEq χ]

/-! ### What a step on the table can do -/

/-- Registrations come from enrolling alone, and none is left under an identity that was just
    forgotten. -/
theorem mem_secondStep {r : Registry χ ε} {rest : Rest χ} {x : Registration χ}
    (h : x ∈ (r.secondStep rest).2.table.registrations) :
    (x ∈ r.table.registrations ∧ rest ≠ .forget x.hook) ∨
      rest = .enroll x.hook x.phase x.callback := by
  cases rest with
  | enroll id phase c =>
    rcases List.mem_append.1 h with hold | hnew
    · exact .inl ⟨hold, fun he => by cases he⟩
    · rw [List.mem_singleton.1 hnew]
      exact .inr rfl
  | withdraw id phase c => exact .inl ⟨List.mem_of_mem_erase h, fun he => by cases he⟩
  | forget id =>
    obtain ⟨hold, hne⟩ := List.mem_filter.1 h
    refine .inl ⟨hold, fun he => ?_⟩
    cases he
    simp at hne
  | count id phase => exact .inl ⟨h, fun he => by cases he⟩

/-- Lists under other identities stay as they are. -/
theorem snapshot_secondStep (r : Registry χ ε) {rest : Rest χ} {id : HookId} (h : rest.id ≠ id)
    (phase : Phase) :
    (r.secondStep rest).2.table.snapshot id phase = r.table.snapshot id phase := by
  cases rest with
  | enroll id' phase' c =>
    exact (Table.snapshot_push ..).trans (if_neg fun hc => h hc.1)
  | withdraw id' phase' c =>
    exact (Table.snapshot_remove ..).trans (if_neg fun hc => h hc.1)
  | forget id' => exact (Table.snapshot_clear ..).trans (if_neg h)
  | count id' phase' => rfl

end Registry

/-! ### Operations side by side -/

/-- How far an operation has come. -/
inductive Task (χ : Type) where
  | waiting (op : Op χ)
  | halfway (rest : Rest χ)
  | done (answer : Answer)

/-- An operation after its first step. -/
def Task.begun {χ : Type} : Answer ⊕ Rest χ → Task χ
  | .inl answer => .done answer
  | .inr rest => .halfway rest

def Task.isWaiting {χ : Type} : Task χ → Bool
  | .waiting _ => true
  | .halfway _ | .done _ => false

theorem Task.isWaiting_begun {χ : Type} (p : Answer ⊕ Rest χ) : (begun p).isWaiting = false := by
  cases p <;> rfl

theorem Task.begun_eq_halfway {χ : Type} {p : Answer ⊕ Rest χ} {rest : Rest χ} :
    begun p = .halfway rest ↔ p = .inr rest := by
  cases p <;> simp [begun]

/-- A registry, and the operations on it. -/
structure Traffic (χ ε : Type) where
  registry : Registry χ ε
  tasks : List (Task χ)

namespace Traffic
variable {χ ε : Type}

/-- Operations that have not begun, on a new registry. -/
def start (engine : ε) (ops : List (Op χ)) : Traffic χ ε := ⟨.start engine, ops.map .waiting⟩

/-- More operations that have not begun. -/
def join (s : Traffic χ ε) (ops : List (Op χ)) : Traffic χ ε :=
  { s with tasks := s.tasks ++ ops.map .waiting }

/-- How many operations have not begun. -/
def waiting (s : Traffic χ ε) : Nat := s.tasks.countP Task.isWaiting

/-- The traffic without the list that an observed engine keeps. -/
def unobserved (s : Traffic χ (ε × List Address)) : Traffic χ ε :=
  ⟨s.registry.unobserved, s.tasks⟩

/-- No operation is halfway. -/
def AtRest (s : Traffic χ ε) : Prop := ∀ rest, Task.halfway rest ∉ s.tasks

theorem halfway_mem_join {s : Traffic χ ε} {ops : List (Op χ)} {rest : Rest χ} :
    .halfway rest ∈ (s.join ops).tasks ↔ .halfway rest ∈ s.tasks := by
  simp [join]

/-- A step of one operation leaves the others as they are. -/
theorem mem_set_of_ne {tasks : List (Task χ)} {i : Nat} {task moved other : Task χ}
    (h : other ∈ tasks) (hi : tasks[i]? = some task) (hne : other ≠ task) :
    other ∈ tasks.set i moved := by
  obtain ⟨j, hj⟩ := List.mem_iff_getElem?.1 h
  have hij : i ≠ j := by
    rintro rfl
    rw [hi, Option.some.injEq] at hj
    exact hne hj.symm
  exact List.mem_iff_getElem?.2 ⟨j, by rw [List.getElem?_set_ne hij, hj]⟩

theorem halfway_of_begun {tasks : List (Task χ)} {i : Nat} {p : Answer ⊕ Rest χ} {rest : Rest χ}
    (h : .halfway rest ∈ tasks.set i (.begun p)) : .halfway rest ∈ tasks ∨ p = .inr rest :=
  (List.mem_or_eq_of_mem_set h).imp_right fun hnew => Task.begun_eq_halfway.1 hnew.symm

/-- After a step on its own task, an operation does not wait any more. -/
theorem countP_set {tasks : List (Task χ)} {i : Nat} {task moved : Task χ}
    (hi : tasks[i]? = some task) (hmoved : moved.isWaiting = false) :
    (tasks.set i moved).countP Task.isWaiting + task.isWaiting.toNat =
      tasks.countP Task.isWaiting := by
  obtain ⟨hlt, rfl⟩ := List.getElem?_eq_some_iff.1 hi
  cases hwaiting : tasks[i].isWaiting with
  | false =>
    rw [List.countP_set hlt, hwaiting, hmoved]
    rfl
  | true =>
    have hpos : 0 < tasks.countP Task.isWaiting :=
      List.countP_pos_iff.2 ⟨_, List.getElem_mem hlt, hwaiting⟩
    rw [List.countP_set hlt, hwaiting, hmoved]
    exact Nat.sub_add_cancel hpos

theorem halfway_of_done {tasks : List (Task χ)} {i : Nat} {answer : Answer} {rest : Rest χ}
    (h : .halfway rest ∈ tasks.set i (.done answer)) : .halfway rest ∈ tasks :=
  (List.mem_or_eq_of_mem_set h).resolve_right fun hnew => by cases hnew

/-! ### What holds of a state -/

section States
variable {E : Engine ε} {Sound : ε → Prop} {s : Traffic χ ε}

/-- The engine keeps its contract, and every identity in use has been given out. -/
structure Given (E : Engine ε) (Sound : ε → Prop) (s : Traffic χ ε) : Prop where
  sound : Sound s.registry.engine
  live : ∀ id, s.registry.Live E id → id.number < s.registry.nextId
  halfway : ∀ rest, .halfway rest ∈ s.tasks → rest.id.number < s.registry.nextId
  listed : ∀ x ∈ s.registry.table.registrations, x.hook.number < s.registry.nextId

theorem given_start {engine : ε} (hs : Sound engine) (hempty : ∀ a, E.find engine a = none)
    (ops : List (Op χ)) : (start engine ops).Given E Sound where
  sound := hs
  live id h := by
    obtain ⟨a, record, hfind, _⟩ := h
    rw [show E.find (start engine ops).registry.engine a = none from hempty a] at hfind
    cases hfind
  halfway rest h := by simp [start] at h
  listed x h := by cases h

theorem Given.join (h : s.Given E Sound) (ops : List (Op χ)) : (s.join ops).Given E Sound :=
  ⟨h.sound, h.live, fun rest hrest => h.halfway rest (halfway_mem_join.1 hrest), h.listed⟩

/-- Every installation that was asked for took one identity, and no operation asks for two. -/
structure Counted (s : Traffic χ (ε × List Address)) : Prop where
  next : s.registry.nextId = s.registry.engine.2.length + 1
  asked : s.registry.engine.2.length + s.waiting ≤ s.tasks.length

theorem counted_start (engine : ε) (ops : List (Op χ)) :
    (start (engine, []) ops).Counted where
  next := rfl
  asked := Nat.le_trans (Nat.le_of_eq (Nat.zero_add _)) List.countP_le_length

theorem Counted.join {s : Traffic χ (ε × List Address)} (h : s.Counted) (ops : List (Op χ)) :
    (s.join ops).Counted := by
  have hnew : (ops.map Task.waiting).countP Task.isWaiting ≤ (ops.map Task.waiting).length :=
    List.countP_le_length
  have hasked := h.asked
  refine ⟨h.next, ?_⟩
  simp only [waiting, Traffic.join, List.countP_append, List.length_append] at hasked ⊢
  omega

/-- An identity of a live hook, of a list of callbacks, or of what an operation has left to do. -/
inductive InUse (E : Engine ε) (s : Traffic χ ε) : HookId → Prop
  | live {id : HookId} (h : s.registry.Live E id) : InUse E s id
  | listed {id : HookId} {phase : Phase} (h : s.registry.table.snapshot id phase ≠ []) :
      InUse E s id
  | halfway {rest : Rest χ} (h : .halfway rest ∈ s.tasks) : InUse E s rest.id

theorem Given.lt_of_inUse (h : s.Given E Sound) {id : HookId} (hid : s.InUse E id) :
    id.number < s.registry.nextId := by
  cases hid with
  | live hlive => exact h.live id hlive
  | listed hne =>
    obtain ⟨c, hc⟩ := List.exists_mem_of_ne_nil _ hne
    exact h.listed _ (Table.mem_snapshot.1 hc)
  | halfway hrest => exact h.halfway _ hrest

/-- The traffic as it is over an observed engine. Identities were given out one for each
    installation that was asked for, so none in use goes beyond their number, and there were no more
    of them than there are operations. -/
structure Numbered (E : Engine ε) (s : Traffic χ ε) (watched : Traffic χ (ε × List Address)) :
    Prop where
  same : watched.unobserved = s
  next : s.registry.nextId = watched.registry.engine.2.length + 1
  inUse : ∀ id, s.InUse E id → id.number ≤ watched.registry.engine.2.length
  few : watched.registry.engine.2.length ≤ s.tasks.length

theorem Counted.numbered {watched : Traffic χ (ε × List Address)} (h : watched.Counted)
    (hsame : watched.unobserved = s) (hg : s.Given E Sound) : s.Numbered E watched := by
  subst hsame
  have hnext : watched.unobserved.registry.nextId = watched.registry.engine.2.length + 1 := h.next
  refine ⟨rfl, hnext, fun id hid => ?_, Nat.le_trans (Nat.le_add_right ..) h.asked⟩
  have hlt := hg.lt_of_inUse hid
  rw [hnext] at hlt
  exact Nat.lt_succ_iff.1 hlt

/-- Every registration is of a live hook, or of a hook whose list is still to be dropped, or was
    made too late. -/
def Accounted (E : Engine ε) (s : Traffic χ ε) (late : Registration χ → Prop) : Prop :=
  ∀ x ∈ s.registry.table.registrations,
    s.registry.Live E x.hook ∨ .halfway (.forget x.hook) ∈ s.tasks ∨ late x

theorem Accounted.mono {late late' : Registration χ → Prop} (h : s.Accounted E late)
    (himp : ∀ x, late x → late' x) : s.Accounted E late' :=
  fun x hx => (h x hx).imp_right (.imp_right (himp _))

/-- The identity was given out, no hook has it any more, and no operation is on the way to its
    list. -/
structure Retired (E : Engine ε) (s : Traffic χ ε) (id : HookId) : Prop where
  dead : ¬ s.registry.Live E id
  idle : ∀ rest, .halfway rest ∈ s.tasks → rest.id ≠ id
  given : id.number < s.registry.nextId

end States

/-! ### Steps and runs -/

variable [DecidableEq χ] {E : Engine ε} {Sound : ε → Prop} {s : Traffic χ ε}

/-- One operation makes its next step; one that is done has none. -/
def move (E : Engine ε) (s : Traffic χ ε) (i : Nat) : Traffic χ ε :=
  match s.tasks[i]? with
  | some (.waiting op) =>
    let t := s.registry.firstStep E op
    ⟨t.2, s.tasks.set i (.begun t.1)⟩
  | some (.halfway rest) =>
    let t := s.registry.secondStep rest
    ⟨t.2, s.tasks.set i (.done t.1)⟩
  | some (.done _) | none => s

/-- Steps in the order of a schedule, which names the operations that make them. -/
def run (E : Engine ε) (s : Traffic χ ε) (schedule : List Nat) : Traffic χ ε :=
  schedule.foldl (move E) s

/-- At some step of the schedule the registration is made when no hook has its identity. -/
def AddsLate (E : Engine ε) (s : Traffic χ ε) (schedule : List Nat) (x : Registration χ) : Prop :=
  ∃ before i after, schedule = before ++ i :: after ∧
    (s.run E before).tasks[i]? = some (.halfway (.enroll x.hook x.phase x.callback)) ∧
    ¬ (s.run E before).registry.Live E x.hook

theorem run_concat (E : Engine ε) (s : Traffic χ ε) (schedule : List Nat) (i : Nat) :
    s.run E (schedule ++ [i]) = (s.run E schedule).move E i := List.foldl_append

theorem AddsLate.concat {schedule : List Nat} {x : Registration χ} (h : s.AddsLate E schedule x)
    (i : Nat) : s.AddsLate E (schedule ++ [i]) x := by
  obtain ⟨before, j, after, rfl, htask, hdead⟩ := h
  exact ⟨before, j, after ++ [i], by simp, htask, hdead⟩

/-- What a step can do: nothing, the first step of an operation, or its second. -/
theorem move_cases (E : Engine ε) (s : Traffic χ ε) (i : Nat) :
    s.move E i = s ∨
    (∃ op, s.tasks[i]? = some (.waiting op) ∧
      s.move E i = ⟨(s.registry.firstStep E op).2,
        s.tasks.set i (.begun (s.registry.firstStep E op).1)⟩) ∨
    ∃ rest, s.tasks[i]? = some (.halfway rest) ∧
      s.move E i = ⟨(s.registry.secondStep rest).2,
        s.tasks.set i (.done (s.registry.secondStep rest).1)⟩ := by
  unfold move
  split
  · next op htask => exact .inr (.inl ⟨op, htask, rfl⟩)
  · next rest htask => exact .inr (.inr ⟨rest, htask, rfl⟩)
  · exact .inl rfl
  · exact .inl rfl

/-! ### Identities are given out in order -/

theorem Given.move (h : s.Given E Sound) (hE : E.Contract Sound) (i : Nat) :
    (s.move E i).Given E Sound := by
  obtain heq | ⟨op, _, heq⟩ | ⟨rest, htask, heq⟩ := move_cases E s i
  · rw [heq]
    exact h
  · have hb := Registry.begun_firstStep hE h.sound op
    rw [heq]
    refine ⟨hb.sound, fun id hid => ?_, fun rest hrest => ?_, fun x hx => ?_⟩
    · rcases hb.gains id hid with hold | ⟨hnew, hlt⟩
      · exact Nat.lt_of_lt_of_le (h.live id hold) hb.nextId
      · exact hnew ▸ hlt
    · rcases halfway_of_begun hrest with hold | hnew
      · exact Nat.lt_of_lt_of_le (h.halfway rest hold) hb.nextId
      · rcases hb.names rest hnew with hold | ⟨hid, hlt⟩
        · exact Nat.lt_of_lt_of_le (h.live _ hold) hb.nextId
        · exact hid ▸ hlt
    · exact Nat.lt_of_lt_of_le (h.listed x (hb.table ▸ hx)) hb.nextId
  · have hengine := Registry.secondStep_engine s.registry rest
    have hnext := Registry.secondStep_nextId s.registry rest
    rw [heq]
    refine ⟨hengine ▸ h.sound, fun id hid => ?_, fun other hother => ?_, fun x hx => ?_⟩
    · rw [hnext]
      exact h.live id ((Registry.live_congr (congrArg E.find hengine) id).1 hid)
    · rw [hnext]
      exact h.halfway other (halfway_of_done hother)
    · rw [hnext]
      rcases Registry.mem_secondStep hx with ⟨hold, _⟩ | rfl
      · exact h.listed x hold
      · exact h.halfway _ (List.mem_of_getElem? htask)

theorem Given.run (h : s.Given E Sound) (hE : E.Contract Sound) (schedule : List Nat) :
    (s.run E schedule).Given E Sound :=
  List.foldlRecOn schedule _ h fun _ h i _ => h.move hE i

/-! ### Identities are as many as installations -/

theorem move_observed (E : Engine ε) (s : Traffic χ (ε × List Address)) (i : Nat) :
    s.unobserved.move E i = (s.move E.observed i).unobserved := by
  unfold move
  rw [show s.unobserved.tasks = s.tasks from rfl]
  cases s.tasks[i]? with
  | none => rfl
  | some task =>
    cases task with
    | waiting op =>
      exact congrArg (fun t => (⟨t.2, s.tasks.set i (.begun t.1)⟩ : Traffic χ ε))
        (Registry.firstStep_observed E s.registry op)
    | halfway rest =>
      exact congrArg (fun t => (⟨t.2, s.tasks.set i (.done t.1)⟩ : Traffic χ ε))
        (Registry.secondStep_observed s.registry rest)
    | done answer => rfl

/-- No step goes otherwise because an engine is observed. -/
theorem run_observed (E : Engine ε) (s : Traffic χ (ε × List Address)) (schedule : List Nat) :
    s.unobserved.run E schedule = (s.run E.observed schedule).unobserved := by
  induction schedule using List.reverseRecOn with
  | nil => rfl
  | append_singleton schedule i ih => rw [run_concat, run_concat, ih, move_observed]

theorem Counted.move {s : Traffic χ (ε × List Address)} (h : s.Counted) (E : Engine ε) (i : Nat) :
    (s.move E.observed i).Counted := by
  have hasked := h.asked
  obtain heq | ⟨op, htask, heq⟩ | ⟨rest, htask, heq⟩ := move_cases E.observed s i
  · rw [heq]
    exact h
  · have hwaiting :
        (s.tasks.set i (.begun (s.registry.firstStep E.observed op).1)).countP Task.isWaiting + 1 =
          s.tasks.countP Task.isWaiting := countP_set htask (Task.isWaiting_begun _)
    rw [heq]
    obtain ⟨hnext, hsame⟩ | ⟨f, phase, c, _, hnext, hmore⟩ :=
      Registry.firstStep_asked E s.registry op
    · refine ⟨by rw [hnext, hsame, h.next], ?_⟩
      simp only [waiting, hsame, List.length_set] at hasked ⊢
      omega
    · have hlength := congrArg List.length hmore
      rw [List.length_append, List.length_singleton] at hlength
      refine ⟨by rw [hnext, hlength, h.next], ?_⟩
      simp only [waiting, hlength, List.length_set] at hasked ⊢
      omega
  · have hwaiting :
        (s.tasks.set i (.done (s.registry.secondStep rest).1)).countP Task.isWaiting =
          s.tasks.countP Task.isWaiting := countP_set htask rfl
    have hsame := Registry.secondStep_asked s.registry rest
    rw [heq]
    refine ⟨by rw [Registry.secondStep_nextId, hsame, h.next], ?_⟩
    simp only [waiting, hsame, List.length_set] at hasked ⊢
    rwa [hwaiting]

theorem Counted.run {s : Traffic χ (ε × List Address)} (h : s.Counted) (E : Engine ε)
    (schedule : List Nat) : (s.run E.observed schedule).Counted :=
  List.foldlRecOn schedule _ h fun _ h i _ => h.move E i

theorem Counted.numbered_run {watched : Traffic χ (ε × List Address)} (h : watched.Counted)
    (hsame : watched.unobserved = s) (hg : s.Given E Sound) (hE : E.Contract Sound)
    (schedule : List Nat) : (s.run E schedule).Numbered E (watched.run E.observed schedule) := by
  refine (h.run E schedule).numbered ?_ (hg.run hE schedule)
  rw [← run_observed, hsame]

/-! ### Every registration has its reason -/

theorem Accounted.move {late : Registration χ → Prop} (h : s.Accounted E late)
    (hg : s.Given E Sound) (hE : E.Contract Sound) {i : Nat}
    (hlate : ∀ x, s.tasks[i]? = some (.halfway (.enroll x.hook x.phase x.callback)) →
      ¬ s.registry.Live E x.hook → late x) :
    (s.move E i).Accounted E late := by
  obtain heq | ⟨op, htask, heq⟩ | ⟨rest, htask, heq⟩ := move_cases E s i
  · rw [heq]
    exact h
  · have hb := Registry.begun_firstStep hE hg.sound op
    rw [heq]
    intro x hx
    rcases h x (hb.table ▸ hx) with hlive | hforget | hx
    · rcases hb.keeps _ hlive with hkept | hgone
      · exact .inl hkept
      -- the operation that took the hook out is now the one that is to drop its list
      · refine .inr (.inl ?_)
        rw [hgone]
        exact List.mem_set (List.getElem?_eq_some_iff.1 htask).1 _
    · exact .inr (.inl (mem_set_of_ne hforget htask fun hc => by cases hc))
    · exact .inr (.inr hx)
  · have hlive : ∀ id, (s.registry.secondStep rest).2.Live E id ↔ s.registry.Live E id :=
      Registry.live_congr (congrArg E.find (Registry.secondStep_engine s.registry rest))
    rw [heq]
    intro x hx
    rw [hlive]
    rcases Registry.mem_secondStep hx with ⟨hold, hkept⟩ | rfl
    · refine (h x hold).imp_right fun hx => hx.imp_left fun hforget => ?_
      -- had the step itself been the dropping, `x` would not be left
      refine mem_set_of_ne hforget htask fun hc => ?_
      cases hc
      exact hkept rfl
    · by_cases hx : s.registry.Live E x.hook
      · exact .inl hx
      · exact .inr (.inr (hlate x htask hx))

theorem accounted_run (hE : E.Contract Sound) (hg : s.Given E Sound)
    (hempty : s.registry.table.registrations = []) (schedule : List Nat) :
    (s.run E schedule).Accounted E (s.AddsLate E schedule) := by
  induction schedule using List.reverseRecOn with
  | nil =>
    intro x hx
    rw [show (s.run E []).registry.table.registrations = [] from hempty] at hx
    cases hx
  | append_singleton schedule i ih =>
    rw [run_concat]
    exact (ih.mono fun x h => h.concat i).move (hg.run hE schedule) hE
      fun x htask hdead => ⟨schedule, i, [], rfl, htask, hdead⟩

/-! ### An identity without a hook stays without one -/

/-- A step of any operation leaves the identity retired and its lists as they are. -/
theorem Retired.move {id : HookId} (h : s.Retired E id) (hg : s.Given E Sound)
    (hE : E.Contract Sound) (i : Nat) :
    (s.move E i).Retired E id ∧ ∀ phase, (s.move E i).registry.table.snapshot id phase =
      s.registry.table.snapshot id phase := by
  obtain heq | ⟨op, _, heq⟩ | ⟨rest, htask, heq⟩ := move_cases E s i
  · rw [heq]
    exact ⟨h, fun _ => rfl⟩
  · have hb := Registry.begun_firstStep hE hg.sound op
    rw [heq]
    refine ⟨⟨fun hlive => ?_, fun rest hrest => ?_, Nat.lt_of_lt_of_le h.given hb.nextId⟩,
      fun phase => ?_⟩
    · rcases hb.gains id hlive with hold | ⟨hnew, _⟩
      · exact h.dead hold
      · exact Nat.ne_of_lt h.given hnew
    · rcases halfway_of_begun hrest with hold | hnew
      · exact h.idle rest hold
      · rintro rfl
        rcases hb.names rest hnew with hold | ⟨hid, _⟩
        · exact h.dead hold
        · exact Nat.ne_of_lt h.given hid
    · rw [hb.table]
  · have hengine := Registry.secondStep_engine s.registry rest
    rw [heq]
    refine ⟨⟨fun hlive => ?_, fun other hother => h.idle other (halfway_of_done hother), ?_⟩,
      fun phase => ?_⟩
    · exact h.dead ((Registry.live_congr (congrArg E.find hengine) id).1 hlive)
    · rw [Registry.secondStep_nextId]
      exact h.given
    · exact Registry.snapshot_secondStep _ (h.idle rest (List.mem_of_getElem? htask)) phase

theorem Retired.run {id : HookId} (h : s.Retired E id) (hg : s.Given E Sound)
    (hE : E.Contract Sound) (schedule : List Nat) :
    (s.run E schedule).Retired E id ∧ ∀ phase,
      (s.run E schedule).registry.table.snapshot id phase =
        s.registry.table.snapshot id phase := by
  induction schedule using List.reverseRecOn with
  | nil => exact ⟨h, fun _ => rfl⟩
  | append_singleton schedule i ih =>
    obtain ⟨hretired, hsame⟩ := ih
    obtain ⟨hretired', hsame'⟩ := hretired.move (hg.run hE schedule) hE i
    rw [run_concat]
    exact ⟨hretired', fun phase => (hsame' phase).trans (hsame phase)⟩

end Traffic

/-- Operations side by side, by any schedule of their steps. When none is halfway, a callback stands
    under the identity of a live hook, or else it was put there when no hook had the identity any
    more; then, whatever operations come, no hook gets the identity and the list stays as it is. All
    along, no identity goes beyond the number of installations that the engine was asked for. -/
theorem lists_outlive_hooks_by_late_additions {χ ε : Type} [DecidableEq χ] {E : Engine ε}
    {Sound : ε → Prop} (hE : E.Contract Sound) {engine : ε} (hs : Sound engine)
    (hempty : ∀ a, E.find engine a = none) (ops : List (Op χ)) (schedule : List Nat) :
    let s := (Traffic.start engine ops).run E schedule
    let watched := (Traffic.start (engine, []) ops).run E.observed schedule
    s.Numbered E watched ∧
    (∀ later more,
      ((s.join later).run E more).Numbered E ((watched.join later).run E.observed more)) ∧
    (s.AtRest → ∀ id phase, ∀ c ∈ s.registry.table.snapshot id phase,
      s.registry.Live E id ∨
        (Traffic.start engine ops).AddsLate E schedule ⟨id, phase, c⟩ ∧
          ∀ later more, let s' := (s.join later).run E more
            ¬ s'.registry.Live E id ∧
              s'.registry.table.snapshot id phase = s.registry.table.snapshot id phase) := by
  intro s watched
  have hstart := Traffic.given_start hs hempty ops
  have hg : s.Given E Sound := hstart.run hE schedule
  have hcounted : watched.Counted := (Traffic.counted_start engine ops).run E schedule
  have hsame : watched.unobserved = s := (Traffic.run_observed E _ schedule).symm
  refine ⟨hcounted.numbered hsame hg, fun later more => ?_, fun hrest id phase c hc => ?_⟩
  · exact (hcounted.join later).numbered_run (congrArg (Traffic.join · later) hsame)
      (hg.join later) hE more
  have hx := Table.mem_snapshot.1 hc
  by_cases hlive : s.registry.Live E id
  · exact .inl hlive
  have hlate : (Traffic.start engine ops).AddsLate E schedule ⟨id, phase, c⟩ := by
    rcases Traffic.accounted_run hE hstart rfl schedule _ hx with hlive' | hforget | hlate
    · exact absurd hlive' hlive
    · exact absurd hforget (hrest _)
    · exact hlate
  refine .inr ⟨hlate, fun later more => ?_⟩
  have hretired : (s.join later).Retired E id :=
    ⟨hlive, fun rest h => absurd (Traffic.halfway_mem_join.1 h) (hrest rest), hg.listed _ hx⟩
  obtain ⟨hdead, hsame⟩ := hretired.run (hg.join later) hE more
  exact ⟨hdead.dead, hsame phase⟩

/-- The steps of an addition with those of an uninstallation between them; one installation was
    asked for, and one identity given out. -/
theorem lists_outlive_hooks_once :
    let E := Detours.engine ⟨fun _ => none, 0x1000⟩
    let f : Function := ⟨⟨0x4000⟩, .cdecl, ⟨[], .void, by decide⟩⟩
    let start : Traffic Nat Detours := .start .none [.add f .pre 5, .uninstall f]
    let s := start.run E [0, 1, 1, 0]
    E.Contract (fun _ => True) ∧ (∀ a, E.find .none a = none) ∧ s.AtRest ∧
    s.registry.table.snapshot ⟨1⟩ .pre = [5] ∧ s.registry.nextId = 2 ∧
    (∀ id, s.InUse E id → id.number ≤ 1) ∧
    start.AddsLate E [0, 1, 1, 0] ⟨⟨1⟩, .pre, 5⟩ ∧
      ∀ later more, let s' := (s.join later).run E more
        ¬ s'.registry.Live E ⟨1⟩ ∧
          s'.registry.table.snapshot ⟨1⟩ .pre = s.registry.table.snapshot ⟨1⟩ .pre := by
  intro E f start s
  have hE : E.Contract fun _ => True := Detours.contract _
  have hempty : ∀ a, E.find .none a = none := fun _ => rfl
  have hrest : s.AtRest := by
    have htasks : s.tasks = [.done (.added (.ok ())), .done (.uninstalled true)] := rfl
    intro rest h
    simp [htasks] at h
  have hlist : s.registry.table.snapshot ⟨1⟩ .pre = [5] := rfl
  have hdead : ¬ s.registry.Live E ⟨1⟩ := fun ⟨a, record, hfind, _⟩ => by
    rw [show E.find s.registry.engine a = none from rfl] at hfind
    cases hfind
  obtain ⟨hnumbered, _, hlate⟩ := lists_outlive_hooks_by_late_additions hE trivial hempty
    [.add f .pre 5, .uninstall f] [0, 1, 1, 0]
  have hmain := hlate hrest ⟨1⟩ .pre 5 (hlist ▸ List.mem_singleton_self 5)
  exact ⟨hE, hempty, hrest, hlist, hnumbered.next, hnumbered.inUse, hmain.resolve_left hdead⟩

/-- A list can outlive its hook: an addition finds the hook, the hook and its lists are taken away,
    and then the callback is put under an identity that nothing has. -/
theorem list_outlives_hook :
    let E := Detours.engine ⟨fun _ => none, 0x1000⟩
    ¬ ∀ (ops : List (Op Nat)) (schedule : List Nat),
      let s := (Traffic.start .none ops).run E schedule
      s.AtRest → ∀ id phase, s.registry.table.snapshot id phase ≠ [] → s.registry.Live E id := by
  intro E hall
  let f : Function := ⟨⟨0x4000⟩, .cdecl, ⟨[], .void, by decide⟩⟩
  let start : Traffic Nat Detours := .start .none [.add f .pre 5, .uninstall f]
  let s := start.run E [0, 1, 1, 0]
  have hrest : s.AtRest := by
    have htasks : s.tasks = [.done (.added (.ok ())), .done (.uninstalled true)] := rfl
    intro rest h
    simp [htasks] at h
  have hlist : s.registry.table.snapshot ⟨1⟩ .pre = [5] := rfl
  have hnone : ∀ a, E.find s.registry.engine a = none := fun _ => rfl
  obtain ⟨a, record, hfind, _⟩ := hall _ _ hrest ⟨1⟩ .pre (hlist ▸ List.cons_ne_nil _ _)
  rw [hnone a] at hfind
  cases hfind

end NativeGate.Hook
