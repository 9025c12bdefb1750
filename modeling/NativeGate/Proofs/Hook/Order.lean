import NativeGate.Proofs.Hook.Changes

/-!
The order that changes side by side come to. A change has its place from the step on that nothing of
other changes can come between it and its lists any more: its last step while its hook is there, or
else the step that takes the hook out, and before that one (`Traffic.Logged`). The places come to a
shelf that shows the hooks and their lists, but for hooks whose first callback is on the way
(`Traffic.Shows`).
-/

namespace NativeGate.Hook.Traffic
variable {χ ε : Type}

/-! ### Places -/

/-- A change in its place of the order, with its answer. -/
structure Placed (χ : Type) where
  number : Nat
  change : Change χ
  answer : Answer

/-- The change has no place in the order yet: it has not begun, or the hook is there that it has
    found. -/
def Open (E : Engine ε) (r : Registry χ ε) : Task χ → Prop
  | .waiting _ => True
  | .halfway rest => r.Live E rest.id
  | .done _ => False

/-- The answer is the one that the change gives or is going to give. -/
def Answers (view : Error → Error) (change : Change χ) (answer : Answer) : Task χ → Prop
  | .waiting _ => False
  | .halfway _ => answer = change.completed
  | .done given => answer = given.seen view

section
variable {E : Engine ε} {view : Error → Error} {changes : List (Change χ)} {s : Traffic χ ε}
  {r' : Registry χ ε} {log more : List (Placed χ)}

/-- The log places each change once, when it is open no more. -/
structure Logged (E : Engine ε) (view : Error → Error) (changes : List (Change χ))
    (s : Traffic χ ε) (log : List (Placed χ)) : Prop where
  placed : ∀ p ∈ log, changes[p.number]? = some p.change ∧ ∃ task,
    s.tasks[p.number]? = some task ∧ ¬ Open E s.registry task ∧ Answers view p.change p.answer task
  closed : ∀ (i : Nat) task, s.tasks[i]? = some task → ¬ Open E s.registry task →
    i ∈ log.map Placed.number
  nodup : (log.map Placed.number).Nodup

theorem not_open_done (r : Registry χ ε) (answer : Answer) : ¬ Open E r (.done answer) :=
  fun hopen => hopen

theorem Logged.not_mem (h : Logged E view changes s log) {i : Nat} {task : Task χ}
    (htask : s.tasks[i]? = some task) (hopen : Open E s.registry task) :
    i ∉ log.map Placed.number := by
  intro hi
  obtain ⟨p, hp, rfl⟩ := List.mem_map.1 hi
  obtain ⟨_, task', htask', hclosed, _⟩ := h.placed p hp
  rw [htask, Option.some.injEq] at htask'
  exact hclosed (htask' ▸ hopen)

/-- A step of one change, which may close others. -/
theorem Logged.set (h : Logged E view changes s log) {i : Nat} {task moved : Task χ}
    (htask : s.tasks[i]? = some task)
    (hdead : ∀ rest, .halfway rest ∈ s.tasks → r'.Live E rest.id → s.registry.Live E rest.id)
    (hmoved : ¬ Open E s.registry task → ¬ Open E r' moved ∧ ∀ change answer,
      changes[i]? = some change → Answers view change answer task →
        Answers view change answer moved)
    (hmore : ∀ p ∈ more, changes[p.number]? = some p.change ∧
      (∃ task, s.tasks[p.number]? = some task ∧ Open E s.registry task) ∧
      ∃ task, (s.tasks.set i moved)[p.number]? = some task ∧ ¬ Open E r' task ∧
        Answers view p.change p.answer task)
    (hclosed : ∀ (j : Nat) task, (s.tasks.set i moved)[j]? = some task → ¬ Open E r' task →
      j ∈ log.map Placed.number ∨ j ∈ more.map Placed.number)
    (hnodup : (more.map Placed.number).Nodup) :
    Logged E view changes ⟨r', s.tasks.set i moved⟩ (log ++ more) := by
  refine ⟨fun p hp => ?_, fun j task hj hopen => ?_, ?_⟩
  · rcases List.mem_append.1 hp with hp | hp
    · obtain ⟨hchange, old, hold, hopen, hanswers⟩ := h.placed p hp
      refine ⟨hchange, ?_⟩
      rw [getElem?_set_of_some htask]
      by_cases hi : i = p.number
      · rw [← hi, htask, Option.some.injEq] at hold
        subst hold
        obtain ⟨hopen', hanswers'⟩ := hmoved hopen
        exact ⟨moved, if_pos hi, hopen', hanswers' _ _ (hi ▸ hchange) hanswers⟩
      · refine ⟨old, (if_neg hi).trans hold, fun hlive => hopen ?_, hanswers⟩
        cases old with
        | waiting op => exact hlive
        | halfway rest => exact hdead rest (List.mem_of_getElem? hold) hlive
        | done answer => exact hlive
    · obtain ⟨hchange, _, hnew⟩ := hmore p hp
      exact ⟨hchange, hnew⟩
  · rw [List.map_append, List.mem_append]
    exact hclosed j task hj hopen
  · rw [List.map_append]
    refine h.nodup.append hnodup fun j hlog hj => ?_
    obtain ⟨p, hp, rfl⟩ := List.mem_map.1 hj
    obtain ⟨_, ⟨old, hold, hopen⟩, _⟩ := hmore p hp
    exact h.not_mem hold hopen hlog

/-- A step that closes no change but its own has no other to close. -/
theorem Logged.closed_set (h : Logged E view changes s log) {i : Nat} {task moved : Task χ}
    (htask : s.tasks[i]? = some task)
    (hlive : ∀ rest, .halfway rest ∈ s.tasks → s.registry.Live E rest.id → r'.Live E rest.id)
    {j : Nat} (hj : i ≠ j) {other : Task χ} (hother : (s.tasks.set i moved)[j]? = some other)
    (hopen : ¬ Open E r' other) : j ∈ log.map Placed.number := by
  rw [getElem?_set_of_some htask, if_neg hj] at hother
  refine h.closed j other hother fun hold => hopen ?_
  cases other with
  | waiting op => exact hold
  | halfway rest => exact hlive rest (List.mem_of_getElem? hother) hold
  | done answer => exact hold

/-- A step that closes no change. -/
theorem Logged.keep (h : Logged E view changes s log) {i : Nat} {task moved : Task χ}
    (htask : s.tasks[i]? = some task)
    (hlive : ∀ rest, .halfway rest ∈ s.tasks → (r'.Live E rest.id ↔ s.registry.Live E rest.id))
    (hmoved : Open E r' moved ∨ ¬ Open E s.registry task)
    (hanswers : ¬ Open E s.registry task → ¬ Open E r' moved ∧ ∀ change answer,
      changes[i]? = some change → Answers view change answer task →
        Answers view change answer moved) :
    Logged E view changes ⟨r', s.tasks.set i moved⟩ log := by
  rw [← List.append_nil log]
  refine h.set htask (fun rest hrest => (hlive rest hrest).1) hanswers (fun p hp => by cases hp)
    (fun j other hother hopen => .inl ?_) List.nodup_nil
  · by_cases hj : i = j
    · rw [getElem?_set_of_some htask, if_pos hj, Option.some.injEq] at hother
      subst hother
      exact h.closed j task (hj ▸ htask) (hmoved.resolve_left hopen)
    · exact h.closed_set htask (fun rest hrest => (hlive rest hrest).2) hj hother hopen

/-- A step that closes its own change and no other. -/
theorem Logged.place (h : Logged E view changes s log) {i : Nat} {task moved : Task χ}
    (htask : s.tasks[i]? = some task) (htaskOpen : Open E s.registry task) {change : Change χ}
    (hchange : changes[i]? = some change)
    (hlive : ∀ rest, .halfway rest ∈ s.tasks → (r'.Live E rest.id ↔ s.registry.Live E rest.id))
    (hmoved : ¬ Open E r' moved) {answer : Answer} (hanswers : Answers view change answer moved) :
    Logged E view changes ⟨r', s.tasks.set i moved⟩ (log ++ [⟨i, change, answer⟩]) := by
  refine h.set htask (fun rest hrest => (hlive rest hrest).1) (fun hopen => absurd htaskOpen hopen)
    (fun p hp => ?_) (fun j other hother hopen => ?_) (List.nodup_singleton i)
  · cases List.mem_singleton.1 hp
    refine ⟨hchange, ⟨task, htask, htaskOpen⟩, moved, ?_, hmoved, hanswers⟩
    rw [getElem?_set_of_some htask, if_pos rfl]
  · by_cases hj : i = j
    · exact .inr (List.mem_singleton.2 hj.symm)
    · exact .inl (h.closed_set htask (fun rest hrest => (hlive rest hrest).2) hj hother hopen)

/-- The operation is halfway under the identity. -/
def holds (id : HookId) : Task χ → Bool
  | .halfway rest => rest.id = id
  | .waiting _ | .done _ => false

/-- The changes that are halfway under an identity, in the places that they get when its hook
    goes. -/
def overtaken (changes : List (Change χ)) (tasks : List (Task χ)) (id : HookId) :
    List (Placed χ) :=
  (changes.zipIdx.filter fun x => (tasks[x.2]?).any (holds id)).map
    fun x => ⟨x.2, x.1, x.1.completed⟩

theorem mem_overtaken {tasks : List (Task χ)} {id : HookId} {p : Placed χ} :
    p ∈ overtaken changes tasks id ↔ changes[p.number]? = some p.change ∧
      p.answer = p.change.completed ∧
        ∃ rest, tasks[p.number]? = some (.halfway rest) ∧ rest.id = id := by
  have hholds : ∀ i : Nat, (tasks[i]?).any (holds id) = true ↔
      ∃ rest, tasks[i]? = some (.halfway rest) ∧ rest.id = id := by
    intro i
    rw [Option.any_eq_true]
    constructor
    · rintro ⟨task, htask, hid⟩
      cases task with
      | waiting op => cases hid
      | halfway rest => exact ⟨rest, htask, of_decide_eq_true hid⟩
      | done answer => cases hid
    · rintro ⟨rest, htask, hid⟩
      exact ⟨_, htask, decide_eq_true hid⟩
  rw [overtaken, List.mem_map]
  constructor
  · rintro ⟨⟨change, i⟩, hx, rfl⟩
    obtain ⟨hchange, hrest⟩ := List.mem_filter.1 hx
    exact ⟨List.mem_zipIdx_iff_getElem?.1 hchange, rfl, (hholds i).1 hrest⟩
  · rintro ⟨hchange, hanswer, hrest⟩
    refine ⟨(p.change, p.number), List.mem_filter.2 ⟨?_, (hholds _).2 hrest⟩, ?_⟩
    · exact List.mem_zipIdx_iff_getElem?.2 hchange
    · rw [← hanswer]

theorem nodup_overtaken (changes : List (Change χ)) (tasks : List (Task χ)) (id : HookId) :
    ((overtaken changes tasks id).map Placed.number).Nodup := by
  have hindices : (changes.zipIdx.map Prod.snd).Nodup := by
    rw [List.zipIdx_map_snd]
    exact List.nodup_range'
  rw [overtaken, List.map_map]
  exact hindices.sublist (List.filter_sublist.map Prod.snd)

/-- The step that takes a hook out closes all changes that were halfway under its identity. -/
theorem Logged.detach (h : Logged E view changes s log) {i : Nat} {op : Op χ}
    (htask : s.tasks[i]? = some (.waiting op)) {change : Change χ}
    (hchange : changes[i]? = some change)
    (hchanges : ∀ (j : Nat) task, s.tasks[j]? = some task → ∃ change, changes[j]? = some change)
    {id : HookId} (hid : s.registry.Live E id)
    (hlive : ∀ id', r'.Live E id' ↔ s.registry.Live E id' ∧ id' ≠ id) :
    Logged E view changes ⟨r', s.tasks.set i (.halfway (change.rest id))⟩
      (log ++ (overtaken changes s.tasks id ++ [⟨i, change, change.completed⟩])) := by
  have hgone : ¬ r'.Live E id := fun hlive' => ((hlive id).1 hlive').2 rfl
  have hi : i ∉ (overtaken changes s.tasks id).map Placed.number := by
    intro hi
    obtain ⟨p, hp, rfl⟩ := List.mem_map.1 hi
    obtain ⟨_, _, rest, hrest, _⟩ := mem_overtaken.1 hp
    rw [htask] at hrest
    cases hrest
  refine h.set htask (fun rest _ hrest => ((hlive _).1 hrest).1)
    (fun hopen => absurd trivial hopen) (fun p hp => ?_) (fun j task hj hopen => ?_) ?_
  · rcases List.mem_append.1 hp with hp | hp
    · have hne : i ≠ p.number := fun h => hi (h ▸ List.mem_map_of_mem hp)
      obtain ⟨hchange, hanswer, rest, hrest, rfl⟩ := mem_overtaken.1 hp
      refine ⟨hchange, ⟨_, hrest, hid⟩, .halfway rest, ?_, hgone, hanswer⟩
      rw [getElem?_set_of_some htask, if_neg hne, hrest]
    · cases List.mem_singleton.1 hp
      refine ⟨hchange, ⟨_, htask, trivial⟩, .halfway (change.rest id), ?_, ?_, rfl⟩
      · rw [getElem?_set_of_some htask, if_pos rfl]
      · rw [Open, Change.rest_id]
        exact hgone
  · rw [List.map_append, List.mem_append]
    by_cases hne : i = j
    · exact .inr (.inr (List.mem_singleton.2 hne.symm))
    · rw [getElem?_set_of_some htask, if_neg hne] at hj
      cases task with
      | waiting op => exact absurd trivial hopen
      | done answer => exact .inl (h.closed j _ hj (not_open_done _ _))
      | halfway rest =>
        by_cases hrest : rest.id = id
        · obtain ⟨other, hother⟩ := hchanges j _ hj
          have hmem : (⟨j, other, other.completed⟩ : Placed χ) ∈ overtaken changes s.tasks id :=
            mem_overtaken.2 ⟨hother, rfl, rest, hj, hrest⟩
          exact .inr (.inl (List.mem_map_of_mem hmem))
        · exact .inl (h.closed j _ hj fun hold => hopen ((hlive _).2 ⟨hold, hrest⟩))
  · rw [List.map_append]
    exact (nodup_overtaken ..).append (List.nodup_singleton i) (by simpa using hi)

end

/-! ### The shelf that the order has come to -/

section
variable {E : Engine ε} {s : Traffic χ ε} {r' : Registry χ ε} {m : Shelf χ}

/-- A shelf shows the hooks and their lists, but for hooks that were installed for an addition that
    has not come to the lists yet. -/
structure Shows (E : Engine ε) (s : Traffic χ ε) (m : Shelf χ) : Prop where
  unhooked : ∀ a, E.find s.registry.engine a = none → m a = none
  lists : ∀ a record, E.find s.registry.engine a = some record →
    m.lists a = s.registry.table.snapshot record.id
  opening : ∀ a record, E.find s.registry.engine a = some record → m a = none →
    ∃ phase c, .halfway (.enroll record.id phase c) ∈ s.tasks

/-- A step that leaves the hooks and their lists. -/
theorem Shows.keep (h : Shows E s m) {i : Nat} {task moved : Task χ}
    (htask : s.tasks[i]? = some task) (hfinds : E.find r'.engine = E.find s.registry.engine)
    (hlists : ∀ id, s.registry.Live E id → r'.table.snapshot id = s.registry.table.snapshot id)
    (hne : ∀ id phase c, s.registry.Live E id → .halfway (.enroll id phase c) ≠ task) :
    Shows E ⟨r', s.tasks.set i moved⟩ m := by
  refine ⟨fun a hfind => h.unhooked a (hfinds ▸ hfind), fun a record hfind => ?_,
    fun a record hfind hm => ?_⟩
  · rw [hfinds] at hfind
    exact (h.lists a record hfind).trans (hlists _ ⟨a, record, hfind, rfl⟩).symm
  · rw [hfinds] at hfind
    obtain ⟨phase, c, hmem⟩ := h.opening a record hfind hm
    exact ⟨phase, c, mem_set_of_ne hmem htask (hne _ _ _ ⟨a, record, hfind, rfl⟩)⟩

/-- A step that installs a hook shows when the callback is in its list. -/
theorem Shows.install (h : Shows E s m) {i : Nat} {op : Op χ}
    (htask : s.tasks[i]? = some (.waiting op)) {a : Address} {record : Record}
    (hfind : E.find s.registry.engine a = none)
    (hnew : ∀ x ∈ s.registry.table.registrations, x.hook ≠ record.id)
    (hfinds : E.find r'.engine = Function.update (E.find s.registry.engine) a (some record))
    (htable : r'.table = s.registry.table) (phase : Phase) (c : χ) :
    Shows E ⟨r', s.tasks.set i (.halfway (.enroll record.id phase c))⟩ m := by
  have hm := h.unhooked a hfind
  have hpending : .halfway (.enroll record.id phase c) ∈
      s.tasks.set i (.halfway (.enroll record.id phase c)) :=
    List.mem_set (List.getElem?_eq_some_iff.1 htask).1 _
  refine ⟨fun a' hfind' => ?_, fun a' record' hfind' => ?_, fun a' record' hfind' hm' => ?_⟩
  · by_cases ha : a' = a
    · exact ha ▸ hm
    · rw [hfinds, Function.update_of_ne ha] at hfind'
      exact h.unhooked a' hfind'
  · rw [htable]
    rcases Registry.find_of_update hfinds hfind' with ⟨rfl, hsame⟩ | ⟨_, hold⟩
    · cases hsame
      rw [Shelf.lists, hm]
      exact funext fun phase => (Table.snapshot_eq_nil hnew phase).symm
    · exact h.lists a' record' hold
  · rcases Registry.find_of_update hfinds hfind' with ⟨rfl, hsame⟩ | ⟨_, hold⟩
    · cases hsame
      exact ⟨phase, c, hpending⟩
    · obtain ⟨phase, c, hmem⟩ := h.opening a' record' hold hm'
      exact ⟨phase, c, mem_set_of_ne hmem htask fun hc => by cases hc⟩

/-- A step that takes a hook out shows at its address alone. -/
theorem Shows.detach (h : Shows E s m) {i : Nat} {op : Op χ} {moved : Task χ}
    (htask : s.tasks[i]? = some (.waiting op)) {a : Address}
    (hfinds : E.find r'.engine = Function.update (E.find s.registry.engine) a none)
    (htable : r'.table = s.registry.table) {m' : Shelf χ} (hm' : m' a = none)
    (hothers : ∀ a', a' ≠ a → m' a' = m a') : Shows E ⟨r', s.tasks.set i moved⟩ m' := by
  have hold : ∀ {a' record}, E.find r'.engine a' = some record →
      a' ≠ a ∧ E.find s.registry.engine a' = some record := fun hfind =>
    (Registry.find_of_update hfinds hfind).resolve_left fun ⟨_, hnone⟩ => by cases hnone
  refine ⟨fun a' hfind => ?_, fun a' record hfind => ?_, fun a' record hfind hnone => ?_⟩
  · by_cases ha : a' = a
    · rw [ha, hm']
    · rw [hothers a' ha]
      rw [hfinds, Function.update_of_ne ha] at hfind
      exact h.unhooked a' hfind
  · obtain ⟨ha, hfind⟩ := hold hfind
    rw [Shelf.lists, hothers a' ha, htable]
    exact h.lists a' record hfind
  · obtain ⟨ha, hfind⟩ := hold hfind
    rw [hothers a' ha] at hnone
    obtain ⟨phase, c, hmem⟩ := h.opening a' record hfind hnone
    exact ⟨phase, c, mem_set_of_ne hmem htask fun hc => by cases hc⟩

variable [DecidableEq χ] {view : Error → Error} {outcome : Address → Except Error Unit}

/-- A step on the lists of a hook shows at once. -/
theorem Shows.edit (h : Shows E s m) (hdistinct : Distinct E s.registry) {i : Nat}
    {change : Change χ} {a : Address} {record : Record}
    (htask : s.tasks[i]? = some (.halfway (change.rest record.id)))
    (hfind : E.find s.registry.engine a = some record) (hedit : change.Edits a)
    (hok : outcome a = .ok ()) (moved : Task χ) :
    Shows E ⟨(s.registry.secondStep (change.rest record.id)).2, s.tasks.set i moved⟩
      (m.perform view outcome change).2 := by
  have hengine := Registry.secondStep_engine s.registry (change.rest record.id)
  have hne : ∀ {a'}, a' ≠ a → a' ≠ change.address := fun ha => hedit.address_eq ▸ ha
  have hid : ∀ {a' record'}, E.find s.registry.engine a' = some record' → a' ≠ a →
      record.id ≠ record'.id := fun hfind' ha hid =>
    ha (hdistinct _ _ _ _ hfind hfind' hid).symm
  refine ⟨fun a' hfind' => ?_, fun a' record' hfind' => ?_, fun a' record' hfind' hnone => ?_⟩ <;>
    rw [hengine] at hfind'
  · have ha : a' ≠ a := by
      rintro rfl
      rw [hfind] at hfind'
      cases hfind'
    rw [m.perform_of_ne (hne ha)]
    exact h.unhooked a' hfind'
  · by_cases ha : a' = a
    · subst ha
      rw [hfind, Option.some.injEq] at hfind'
      subst hfind'
      exact Shelf.lists_perform hedit hok (h.lists a' record hfind)
    · have hsame : (s.registry.secondStep (change.rest record.id)).2.table.snapshot record'.id =
          s.registry.table.snapshot record'.id := funext fun phase =>
        Registry.snapshot_secondStep _ (by rw [Change.rest_id]; exact hid hfind' ha) phase
      rw [Shelf.lists, m.perform_of_ne (hne ha), hsame]
      exact h.lists a' record' hfind'
  · by_cases ha : a' = a
    · subst ha
      obtain ⟨hm, hchange⟩ := (Shelf.perform_edit view hedit hok m).2 hnone
      obtain ⟨phase, c, hmem⟩ := h.opening a' record' hfind' hm
      refine ⟨phase, c, mem_set_of_ne hmem htask fun heq => ?_⟩
      cases change with
      | add f phase c => exact hchange f phase c rfl
      | remove f phase c => cases heq
      | uninstall f => cases heq
    · rw [m.perform_of_ne (hne ha)] at hnone
      obtain ⟨phase, c, hmem⟩ := h.opening a' record' hfind' hnone
      refine ⟨phase, c, mem_set_of_ne hmem htask fun heq => hid hfind' ha ?_⟩
      rw [← Change.rest_id record.id change, ← Task.halfway.inj heq]
      rfl

end

end NativeGate.Hook.Traffic
