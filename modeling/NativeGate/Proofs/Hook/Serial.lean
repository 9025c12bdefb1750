import NativeGate.Proofs.Hook.Order

/-!
Changes of a registry side by side are serialisable. Every step puts the changes that it closes at
the end of an order (`Traffic.Serial.move`), so a run has one order of which each part of the run
has the first part (`Traffic.serial_run`); done in this order one after the other, the changes give
the same answers and leave the same hooks with the same callbacks (`interleavings_are_serial`).
-/

namespace NativeGate.Hook

namespace Traffic
variable {χ ε : Type}

/-! ### Steps in order -/

section
variable {E : Engine ε} {Sound : ε → Prop} {view : Error → Error}
  {outcome : Address → Except Error Unit} {changes : List (Change χ)} {s : Traffic χ ε}
  {log : List (Placed χ)} {m : Shelf χ}

/-- A first step closes no halfway change unless it takes a hook out. -/
theorem Given.live_iff (h : s.Given E Sound) {p : Answer ⊕ Rest χ} {r' : Registry χ ε}
    (hbegun : Registry.Begun E Sound s.registry p r') (hp : ∀ id, p ≠ .inr (.forget id))
    (rest : Rest χ) (hrest : .halfway rest ∈ s.tasks) :
    r'.Live E rest.id ↔ s.registry.Live E rest.id := by
  refine ⟨fun hlive => ?_, fun hlive => (hbegun.keeps _ hlive).resolve_right (hp _)⟩
  exact (hbegun.gains _ hlive).resolve_right fun ⟨hnew, _⟩ =>
    Nat.ne_of_lt (h.halfway rest hrest) hnew

/-- What is live once the hook at an address is out. -/
theorem live_detached {r r' : Registry χ ε} (hdistinct : Distinct E r) {a : Address}
    {record : Record} (hfind : E.find r.engine a = some record)
    (hfinds : E.find r'.engine = Function.update (E.find r.engine) a none) (id : HookId) :
    r'.Live E id ↔ r.Live E id ∧ id ≠ record.id := by
  constructor
  · rintro ⟨a', record', hfind', rfl⟩
    rcases Registry.find_of_update hfinds hfind' with ⟨_, hnone⟩ | ⟨ha, hold⟩
    · cases hnone
    · exact ⟨⟨a', record', hold, rfl⟩, fun hid => ha (hdistinct _ _ _ _ hold hfind hid)⟩
  · rintro ⟨⟨a', record', hfind', rfl⟩, hne⟩
    refine ⟨a', record', ?_, rfl⟩
    rw [hfinds, Function.update_of_ne, hfind']
    rintro rfl
    rw [hfind, Option.some.injEq] at hfind'
    exact hne (hfind' ▸ rfl)

/-- A change that the removal of a hook overtakes is one of the lists of that hook. -/
theorem Orderly.edits_of_overtaken (h : s.Orderly E Sound outcome changes) {a : Address}
    {record : Record} (hfind : E.find s.registry.engine a = some record) {p : Placed χ}
    (hp : p ∈ overtaken changes s.tasks record.id) :
    p.change.Edits a ∧ s.tasks[p.number]? = some (.halfway (p.change.rest record.id)) := by
  obtain ⟨hchange, _, rest, hrest, hid⟩ := mem_overtaken.1 hp
  obtain ⟨change, hchange', hstands⟩ := h.stands _ _ hrest
  rw [hchange, Option.some.injEq] at hchange'
  subst hchange'
  cases hstands with
  | halfway id hedits =>
    rw [Change.rest_id] at hid
    subst hid
    exact ⟨hedits _ _ hfind rfl, hrest⟩

variable [DecidableEq χ]

/-- The changes of the log, one after the other, give its answers and come to the shelf. -/
structure Serial (E : Engine ε) (Sound : ε → Prop) (view : Error → Error)
    (outcome : Address → Except Error Unit) (changes : List (Change χ)) (s : Traffic χ ε)
    (log : List (Placed χ)) (m : Shelf χ) : Prop where
  orderly : s.Orderly E Sound outcome changes
  logged : Logged E view changes s log
  performed : Shelf.performAll view outcome (log.map Placed.change) .empty =
    (log.map Placed.answer, m)
  shows : Shows E s m

theorem Serial.performed_append (h : Serial E Sound view outcome changes s log m)
    {more : List (Placed χ)} {m' : Shelf χ}
    (hmore : Shelf.performAll view outcome (more.map Placed.change) m =
      (more.map Placed.answer, m')) :
    Shelf.performAll view outcome ((log ++ more).map Placed.change) .empty =
      ((log ++ more).map Placed.answer, m') := by
  rw [List.map_append, Shelf.performAll_append, h.performed, List.map_append]
  simp only [hmore]

/-- The halfway changes of a hook and then its removal answer that all of them found it, and come
    to a shelf without the address. -/
theorem Serial.performed_detach (h : Serial E Sound view outcome changes s log m) {f : Function}
    {record : Record} (hfind : E.find s.registry.engine f.address = some record) (i : Nat) :
    let more := overtaken changes s.tasks record.id ++ [⟨i, .uninstall f, .uninstalled true⟩]
    ∃ m', Shelf.performAll view outcome (more.map Placed.change) m =
        (more.map Placed.answer, m') ∧ m' f.address = none ∧
      ∀ a, a ≠ f.address → m' a = m a := by
  intro more
  let before := overtaken changes s.tasks record.id
  have hedits : ∀ change ∈ before.map Placed.change, change.Edits f.address := by
    intro change hchange
    obtain ⟨p, hp, rfl⟩ := List.mem_map.1 hchange
    exact (h.orderly.edits_of_overtaken hfind hp).1
  have hanswered : (before.map Placed.change).map Change.completed =
      before.map Placed.answer := by
    rw [List.map_map]
    exact List.map_congr_left fun p hp => (mem_overtaken.1 hp).2.1.symm
  obtain ⟨hanswers, hothers, hnone⟩ :=
    Shelf.performAll_edits view hedits (h.orderly.accepted _ _ hfind) m
  let left := (Shelf.performAll view outcome (before.map Placed.change) m).2
  -- an addition that has opened the hook is among the changes that come before its removal
  have hhooked : left f.address ≠ none := by
    intro hleft
    obtain ⟨hm, hnew⟩ := hnone hleft
    obtain ⟨phase, c, hmem⟩ := h.shows.opening _ _ hfind hm
    obtain ⟨j, hj⟩ := List.mem_iff_getElem?.1 hmem
    obtain ⟨change, hchange, _⟩ := h.orderly.stands j _ hj
    have hbefore : (⟨j, change, change.completed⟩ : Placed χ) ∈ before :=
      mem_overtaken.2 ⟨hchange, rfl, _, hj, rfl⟩
    have hrest := (h.orderly.edits_of_overtaken hfind hbefore).2
    rw [hj, Option.some.injEq] at hrest
    cases change with
    | add f' phase' c' => exact hnew f' phase' c' (List.mem_map_of_mem hbefore)
    | remove f' phase' c' => cases hrest
    | uninstall f' => cases hrest
  refine ⟨Function.update left f.address none, ?_, Function.update_self .., fun a ha => ?_⟩
  · rw [List.map_append, Shelf.performAll_append, List.map_append, ← hanswered, ← hanswers]
    simp only [List.map_cons, List.map_nil, Shelf.performAll, Shelf.perform]
    rw [show ((Shelf.performAll view outcome (before.map Placed.change) m).2 f.address).isSome =
      true from Option.isSome_iff_ne_none.2 hhooked]
  · rw [Function.update_of_ne ha]
    exact hothers a ha

/-- A step that closes no change leaves the order as it is. -/
theorem Serial.keep (h : Serial E Sound view outcome changes s log m) {s' : Traffic χ ε}
    (horderly : s'.Orderly E Sound outcome changes) (hlogged : Logged E view changes s' log)
    (hshows : Shows E s' m) :
    ∃ more m', Serial E Sound view outcome changes s' (log ++ more) m' := by
  refine ⟨[], m, ?_⟩
  rw [List.append_nil]
  exact ⟨horderly, hlogged, h.performed, hshows⟩

/-- A step that closes its own change puts it at the end of the order. -/
theorem Serial.place (h : Serial E Sound view outcome changes s log m) (i : Nat)
    {s' : Traffic χ ε} (horderly : s'.Orderly E Sound outcome changes) {change : Change χ}
    {answer : Answer} {m' : Shelf χ}
    (hlogged : Logged E view changes s' (log ++ [⟨i, change, answer⟩])) (hshows : Shows E s' m')
    (hperform : m.perform view outcome change = (answer, m')) :
    ∃ more m', Serial E Sound view outcome changes s' (log ++ more) m' := by
  refine ⟨[⟨i, change, answer⟩], m', horderly, hlogged, h.performed_append ?_, hshows⟩
  simp only [List.map_cons, List.map_nil, Shelf.performAll, hperform]

theorem Serial.first (h : Serial E Sound view outcome changes s log m) {i : Nat}
    {change : Change χ} {p : Answer ⊕ Rest χ} {r' : Registry χ ε}
    (hchange : changes[i]? = some change) (htask : s.tasks[i]? = some (.waiting change.op))
    (hfirst : Registry.First E view outcome s.registry change p r')
    (hbegun : Registry.Begun E Sound s.registry p r')
    (horderly : Orderly E Sound outcome changes ⟨r', s.tasks.set i (.begun p)⟩) :
    ∃ more m', Serial E Sound view outcome changes ⟨r', s.tasks.set i (.begun p)⟩
      (log ++ more) m' := by
  cases hfirst with
  | answered hfinds hshelf =>
    refine h.place i horderly ?_ ?_ (hshelf m (h.shows.unhooked _))
    · exact h.logged.place htask trivial hchange
        (h.orderly.given.live_iff hbegun fun _ hc => by cases hc) (not_open_done _ _) rfl
    · refine h.shows.keep htask hfinds (fun id _ => ?_) fun _ _ _ _ hc => by cases hc
      rw [hbegun.table]
  | @found _ record hfind _ =>
    refine h.keep horderly ?_ ?_
    · refine h.logged.keep htask (fun _ _ => Iff.rfl) (.inl ?_) fun hopen => absurd trivial hopen
      exact ⟨_, record, hfind, (Change.rest_id ..).symm⟩
    · exact h.shows.keep htask rfl (fun _ _ => rfl) fun _ _ _ _ hc => by cases hc
  | @installed f phase c record _ hfind _ hid _ hfinds =>
    refine h.keep horderly ?_ ?_
    · refine h.logged.keep htask (h.orderly.given.live_iff hbegun fun _ hc => by cases hc)
        (.inl ?_) fun hopen => absurd trivial hopen
      exact ⟨f.address, record, by rw [hfinds, Function.update_self], rfl⟩
    · refine h.shows.install htask hfind (fun x hx hx' => ?_) hfinds hbegun.table phase c
      exact Nat.ne_of_lt (h.orderly.given.listed x hx) (hx' ▸ hid)
  | @detached f record _ hfind hfinds =>
    obtain ⟨m', hperformed, hnone, hothers⟩ := h.performed_detach hfind i
    refine ⟨_, m', horderly, ?_, h.performed_append hperformed,
      h.shows.detach htask hfinds hbegun.table hnone hothers⟩
    exact h.logged.detach htask hchange
      (fun j task hj => (h.orderly.stands j task hj).imp fun _ h => h.1)
      ⟨_, record, hfind, rfl⟩ (live_detached h.orderly.distinct hfind hfinds)

theorem Serial.second (h : Serial E Sound view outcome changes s log m) {i : Nat}
    {change : Change χ} {id : HookId} (hchange : changes[i]? = some change)
    (htask : s.tasks[i]? = some (.halfway (change.rest id)))
    (hedits : ∀ a record, E.find s.registry.engine a = some record → record.id = id →
      change.Edits a)
    (horderly : Orderly E Sound outcome changes ⟨(s.registry.secondStep (change.rest id)).2,
      s.tasks.set i (.done change.completed)⟩) :
    ∃ more m', Serial E Sound view outcome changes
      ⟨(s.registry.secondStep (change.rest id)).2, s.tasks.set i (.done change.completed)⟩
      (log ++ more) m' := by
  have hengine := Registry.secondStep_engine s.registry (change.rest id)
  have hlive : ∀ rest, .halfway rest ∈ s.tasks →
      ((s.registry.secondStep (change.rest id)).2.Live E rest.id ↔ s.registry.Live E rest.id) :=
    fun rest _ => Registry.live_congr (congrArg E.find hengine) rest.id
  by_cases hopen : s.registry.Live E id
  · obtain ⟨a, record, hfind, rfl⟩ := hopen
    have hedit := hedits a record hfind rfl
    have hok := h.orderly.accepted a record hfind
    have hperform : m.perform view outcome change =
        (change.completed, (m.perform view outcome change).2) :=
      Prod.ext (Shelf.perform_edit view hedit hok m).1 rfl
    refine h.place i horderly ?_ (h.shows.edit h.orderly.distinct htask hfind hedit hok _) hperform
    refine h.logged.place htask ?_ hchange hlive (not_open_done _ _)
      (change.completed_seen view).symm
    exact ⟨a, record, hfind, (Change.rest_id ..).symm⟩
  · -- the hook has gone meanwhile, and the change has had its place since then
    have hclosed : ¬ Open E s.registry (.halfway (change.rest id)) := by
      rw [Open, Change.rest_id]
      exact hopen
    refine h.keep horderly ?_ ?_
    · refine h.logged.keep htask hlive (.inr hclosed) fun _ => ⟨not_open_done _ _, ?_⟩
      intro change' answer hchange' hanswer
      rw [hchange, Option.some.injEq] at hchange'
      subst hchange'
      exact hanswer.trans (change.completed_seen view).symm
    · refine h.shows.keep htask (congrArg E.find hengine) (fun id' hid' => ?_)
        fun id' phase c hid' heq => ?_
      · refine funext fun phase => Registry.snapshot_secondStep _ ?_ phase
        rw [Change.rest_id]
        rintro rfl
        exact hopen hid'
      · refine hopen ?_
        rw [← Change.rest_id id change, ← Task.halfway.inj heq]
        exact hid'

/-- Every step puts the changes that it closes at the end of the order. -/
theorem Serial.move (h : Serial E Sound view outcome changes s log m) (hE : E.Contract Sound)
    (hsteady : E.Steady Sound view outcome) (i : Nat) :
    ∃ more m', Serial E Sound view outcome changes (s.move E i) (log ++ more) m' := by
  have horderly := h.orderly.move hE hsteady i
  obtain heq | ⟨change, p, r', hchange, htask, hfirst, hbegun, heq⟩ |
    ⟨change, id, hchange, htask, hedits, heq⟩ := h.orderly.move_cases hE hsteady i
  · rw [heq]
    exact h.keep h.orderly h.logged h.shows
  · rw [heq] at horderly ⊢
    exact h.first hchange htask hfirst hbegun horderly
  · rw [heq] at horderly ⊢
    exact h.second hchange htask hedits horderly

/-! ### Runs in order -/

theorem length_move (E : Engine ε) (s : Traffic χ ε) (i : Nat) :
    (s.move E i).tasks.length = s.tasks.length := by
  obtain heq | ⟨op, _, heq⟩ | ⟨rest, _, heq⟩ := Traffic.move_cases E s i <;> rw [heq]
  · exact List.length_set
  · exact List.length_set

theorem length_run (E : Engine ε) (s : Traffic χ ε) (schedule : List Nat) :
    (s.run E schedule).tasks.length = s.tasks.length := by
  induction schedule using List.reverseRecOn with
  | nil => rfl
  | append_singleton schedule i ih => rw [run_concat, length_move, ih]

theorem serial_start (view : Error → Error) (outcome : Address → Except Error Unit) {engine : ε}
    (hs : Sound engine) (hempty : ∀ a, E.find engine a = none) (changes : List (Change χ)) :
    Serial E Sound view outcome changes (start engine (changes.map Change.op)) [] .empty := by
  have hnone : ∀ a record, E.find engine a ≠ some record := fun a record hfind => by
    rw [hempty a] at hfind
    cases hfind
  have htasks : ∀ (i : Nat) task,
      (start engine (changes.map Change.op)).tasks[i]? = some task →
        ∃ change, changes[i]? = some change ∧ task = .waiting change.op := by
    intro i task htask
    rw [start, List.getElem?_map, List.getElem?_map, Option.map_map] at htask
    obtain ⟨change, hchange, rfl⟩ := Option.map_eq_some_iff.1 htask
    exact ⟨change, hchange, rfl⟩
  refine ⟨⟨given_start hs hempty _, fun a _ record _ hfind => absurd hfind (hnone a record),
    fun a record hfind => absurd hfind (hnone a record), fun i task htask => ?_⟩,
    ⟨fun _ hp => absurd hp List.not_mem_nil, fun i task htask hopen => ?_, List.nodup_nil⟩, rfl,
    ⟨fun _ _ => rfl, fun a record hfind => absurd hfind (hnone a record),
      fun a record hfind => absurd hfind (hnone a record)⟩⟩
  · obtain ⟨change, hchange, rfl⟩ := htasks i task htask
    exact ⟨change, hchange, .waiting⟩
  · obtain ⟨change, _, rfl⟩ := htasks i task htask
    exact absurd trivial hopen

/-- A run has an order, and every part of the run the first part of that order. -/
theorem serial_run (h : Serial E Sound view outcome changes s log m) (hE : E.Contract Sound)
    (hsteady : E.Steady Sound view outcome) (schedule : List Nat) :
    ∃ log' m', Serial E Sound view outcome changes (s.run E schedule) log' m' ∧
      ∀ before after, schedule = before ++ after → ∃ log₁ m₁ more,
        Serial E Sound view outcome changes (s.run E before) log₁ m₁ ∧ log' = log₁ ++ more := by
  induction schedule using List.reverseRecOn with
  | nil =>
    refine ⟨log, m, h, fun before after hsplit => ⟨log, m, [], ?_, (List.append_nil log).symm⟩⟩
    rw [(List.append_eq_nil_iff.1 hsplit.symm).1]
    exact h
  | append_singleton schedule i ih =>
    obtain ⟨log', m', hserial, hparts⟩ := ih
    obtain ⟨more, m'', hmove⟩ := hserial.move hE hsteady i
    rw [← run_concat] at hmove
    refine ⟨log' ++ more, m'', hmove, fun before after hsplit => ?_⟩
    rcases List.eq_nil_or_concat after with rfl | ⟨after, j, rfl⟩
    · rw [List.append_nil] at hsplit
      exact ⟨_, _, [], hsplit ▸ hmove, (List.append_nil _).symm⟩
    · rw [List.concat_eq_append, ← List.append_assoc] at hsplit
      obtain ⟨log₁, m₁, more₁, hserial₁, hlog⟩ :=
        hparts before after (List.append_inj_left' hsplit rfl)
      exact ⟨log₁, m₁, more₁ ++ more, hserial₁, by rw [hlog, List.append_assoc]⟩

/-- At some point of the schedule one operation is done and the other has not begun. -/
def Precedes (E : Engine ε) (s : Traffic χ ε) (schedule : List Nat) (i j : Nat) : Prop :=
  ∃ before after, schedule = before ++ after ∧
    (∃ answer, (s.run E before).tasks[i]? = some (.done answer)) ∧
    ∃ op, (s.run E before).tasks[j]? = some (.waiting op)

/-- What is done before something begins is placed before it. -/
theorem Serial.precedes (h : Serial E Sound view outcome changes s log m) {more : List (Placed χ)}
    {i j : Nat} {answer : Answer} {op : Op χ} (hi : s.tasks[i]? = some (.done answer))
    (hj : s.tasks[j]? = some (.waiting op)) (hmem : j ∈ (log ++ more).map Placed.number) :
    [i, j].Sublist ((log ++ more).map Placed.number) := by
  have hfirst := h.logged.closed i _ hi (not_open_done _ _)
  have hlast := h.logged.not_mem hj trivial
  rw [List.map_append, List.mem_append] at hmem
  rw [List.map_append]
  exact (List.singleton_sublist.2 hfirst).append
    (List.singleton_sublist.2 (hmem.resolve_left hlast))

/-- When every operation is done, each has its place and its answer in the order, and the shelf is
    that of the registry. -/
theorem Serial.complete (h : Serial E Sound view outcome changes s log m) {answers : List Answer}
    (hdone : s.tasks = answers.map .done) (hlength : s.tasks.length = changes.length) :
    (log.map Placed.number).Perm (List.range changes.length) ∧
      (∀ p ∈ log, (answers[p.number]?).map (Answer.seen view) = some p.answer) ∧
      m = s.registry.shelf E := by
  have htasks : ∀ i : Nat, s.tasks[i]? = answers[i]?.map .done := fun i => by
    rw [hdone, List.getElem?_map]
  refine ⟨?_, fun p hp => ?_, funext fun a => ?_⟩
  · refine (List.perm_ext_iff_of_nodup h.logged.nodup List.nodup_range).2 fun i => ?_
    rw [List.mem_range]
    constructor
    · intro hi
      obtain ⟨p, hp, rfl⟩ := List.mem_map.1 hi
      exact (List.getElem?_eq_some_iff.1 (h.logged.placed p hp).1).1
    · intro hi
      rw [← hlength] at hi
      have htask := List.getElem?_eq_getElem hi
      obtain ⟨answer, _, hanswer⟩ := Option.map_eq_some_iff.1 ((htasks i).symm.trans htask)
      exact h.logged.closed i _ (hanswer ▸ htask) (not_open_done _ _)
  · obtain ⟨_, task, htask, _, hanswers⟩ := h.logged.placed p hp
    rw [htasks] at htask
    obtain ⟨answer, hanswer, rfl⟩ := Option.map_eq_some_iff.1 htask
    rw [hanswer]
    exact congrArg some hanswers.symm
  · cases hfind : E.find s.registry.engine a with
    | none =>
      rw [h.shows.unhooked a hfind, Registry.shelf, hfind]
      rfl
    | some record =>
      have hlists := h.shows.lists a record hfind
      rw [Registry.shelf, hfind, Option.map_some, ← hlists]
      cases hm : m a with
      | some lists => rw [Shelf.lists, hm]; rfl
      | none =>
        obtain ⟨phase, c, hmem⟩ := h.shows.opening a record hfind hm
        rw [hdone] at hmem
        obtain ⟨_, _, hcase⟩ := List.mem_map.1 hmem
        cases hcase

end

end Traffic

/-- Detours keep to their site: whether a hook can be installed, and the error if it cannot, depend
    on the address alone. -/
theorem Detours.steady (site : Site) : (Detours.engine site).Steady (fun _ => True) (fun e => e)
    fun a => match site.refusal a with
      | some reason => .error (.hookInstall a reason)
      | .none => .ok () := by
  intro d f id _ _
  cases hsite : site.refusal f.address with
  | some reason => simp only [Detours.engine, hsite]; rfl
  | none => simp only [Detours.engine, hsite]; rfl

/-- Operations that change a registry are serialisable, where it depends on the target alone whether
    a hook can be installed. However their steps come between each other, if all come to their end,
    there is an order in which the operations, each as a whole, give the same answers, errors as
    `view` shows them, and leave the same addresses hooked with the same callbacks; and what was
    done before something else began comes before that in the order. However far they have come, no
    identity goes beyond the number of installations that the engine was asked for, and neither way
    uses up more identities than there are operations. -/
theorem interleavings_are_serial {χ ε : Type} [DecidableEq χ] {E : Engine ε} {Sound : ε → Prop}
    (hE : E.Contract Sound) {view : Error → Error} {outcome : Address → Except Error Unit}
    (hsteady : E.Steady Sound view outcome) {engine : ε} (hs : Sound engine)
    (hempty : ∀ a, E.find engine a = none) (changes : List (Change χ)) (schedule : List Nat)
    (answers : List Answer) :
    let initial := Traffic.start engine (changes.map Change.op)
    let s := initial.run E schedule
    let watched := (Traffic.start (engine, []) (changes.map Change.op)).run E.observed schedule
    s.Numbered E watched ∧ watched.registry.engine.2.length ≤ changes.length ∧
    (s.tasks = answers.map .done →
      ∃ order : List Nat, order.Perm (List.range changes.length) ∧
        (∀ i j, initial.Precedes E schedule i j → [i, j].Sublist order) ∧
        let serial := (Registry.start engine).performAll E
          (order.filterMap fun i => changes[i]?.map Change.op)
        (serial.1.map fun answer => some (answer.seen view)) =
            order.map (fun i => answers[i]?.map (Answer.seen view)) ∧
          serial.2.shelf E = s.registry.shelf E ∧ serial.2.nextId ≤ changes.length + 1) := by
  intro initial s watched
  have hlength : s.tasks.length = changes.length := by
    rw [Traffic.length_run E initial schedule]
    simp [initial, Traffic.start]
  have hnumbered : s.Numbered E watched :=
    (Traffic.counted_start engine _).numbered_run rfl (Traffic.given_start hs hempty _) hE schedule
  refine ⟨hnumbered, hlength ▸ hnumbered.few, fun hdone => ?_⟩
  obtain ⟨log, m, hserial, hparts⟩ :=
    Traffic.serial_run (Traffic.serial_start view outcome hs hempty changes) hE hsteady schedule
  obtain ⟨hperm, hanswers, hshelf⟩ := hserial.complete hdone hlength
  refine ⟨log.map Traffic.Placed.number, hperm, fun i j hij => ?_, ?_⟩
  · obtain ⟨before, after, hsplit, ⟨answer, hi⟩, op, hj⟩ := hij
    obtain ⟨log₁, m₁, more, hserial₁, rfl⟩ := hparts before after hsplit
    refine hserial₁.precedes hi hj (hperm.mem_iff.2 (List.mem_range.2 ?_))
    have hbefore := (List.getElem?_eq_some_iff.1 hj).1
    rw [Traffic.length_run E initial before] at hbefore
    simpa [initial, Traffic.start] using hbefore
  · have hops : (log.map Traffic.Placed.number).filterMap (fun i => changes[i]?.map Change.op) =
        (log.map Traffic.Placed.change).map Change.op := by
      rw [List.filterMap_map, List.map_map, ← List.filterMap_eq_map]
      refine List.filterMap_congr fun p hp => ?_
      rw [Function.comp_apply, (hserial.logged.placed p hp).1]
      rfl
    intro serial
    have hperformed := hserial.performed.symm.trans
      (Registry.performAll_shelf hE hsteady hs hempty (log.map Traffic.Placed.change))
    rw [← hops, Prod.mk.injEq] at hperformed
    obtain ⟨hgiven, hleft⟩ := hperformed
    refine ⟨?_, hleft.symm.trans hshelf, ?_⟩
    · calc serial.1.map (fun answer => some (answer.seen view))
          = (serial.1.map (Answer.seen view)).map some := (List.map_map ..).symm
        _ = (log.map Traffic.Placed.answer).map some := congrArg (List.map some) hgiven.symm
        _ = (log.map Traffic.Placed.number).map fun i => answers[i]?.map (Answer.seen view) := by
          rw [List.map_map, List.map_map]
          exact List.map_congr_left fun p hp => (hanswers p hp).symm
    · have hcount : (log.map Traffic.Placed.number).length = changes.length := by
        rw [hperm.length_eq, List.length_range]
      calc serial.2.nextId
          ≤ 1 + ((log.map Traffic.Placed.number).filterMap
              fun i => changes[i]?.map Change.op).length := Registry.performAll_nextId_le ..
        _ ≤ 1 + (log.map Traffic.Placed.number).length :=
          Nat.add_le_add_left (List.length_filterMap_le ..) 1
        _ = changes.length + 1 := by rw [hcount, Nat.add_comm]

/-- An addition that has made its hook is overtaken by the removal of the hook and by another
    addition with a hook of its own; it goes to the hook that is gone. Two identities are given
    out. -/
theorem overtaken_addition_serial :
    let E := Detours.engine ⟨fun _ => none, 0x1000⟩
    let f : Function := ⟨⟨0x4000⟩, .cdecl, ⟨[], .void, by decide⟩⟩
    let changes : List (Change Nat) := [.add f .pre 5, .uninstall f, .add f .pre 7]
    let initial := Traffic.start Detours.none (changes.map Change.op)
    let s := initial.run E [0, 1, 1, 2, 2, 0]
    let answers : List Answer := [.added (.ok ()), .uninstalled true, .added (.ok ())]
    E.Contract (fun _ => True) ∧ (∀ a, E.find .none a = none) ∧ s.tasks = answers.map .done ∧
    (∀ id, s.InUse E id → id.number ≤ 2) ∧
    ∃ order : List Nat, order.Perm [0, 1, 2] ∧ [1, 2].Sublist order ∧
      let serial := (Registry.start Detours.none).performAll E
        (order.filterMap fun i => changes[i]?.map Change.op)
      serial.1.map (fun answer => some (answer.seen fun e => e)) =
          order.map (fun i => answers[i]?.map (Answer.seen fun e => e)) ∧
        (serial.2.shelf E f.address).map (· .pre) = some [7] := by
  intro E f changes initial s answers
  have hE : E.Contract fun _ => True := Detours.contract _
  have hempty : ∀ a, E.find .none a = none := fun _ => rfl
  have hdone : s.tasks = answers.map .done := rfl
  have hprecedes : initial.Precedes E [0, 1, 1, 2, 2, 0] 1 2 :=
    ⟨[0, 1, 1], [2, 2, 0], rfl, ⟨.uninstalled true, rfl⟩, .add f .pre 7, rfl⟩
  obtain ⟨hnumbered, _, hserial⟩ := interleavings_are_serial hE (Detours.steady _) trivial hempty
    changes [0, 1, 1, 2, 2, 0] answers
  obtain ⟨order, hperm, hreal, hanswers, hshelf, _⟩ := hserial hdone
  have hleft : (s.registry.shelf E f.address).map (· .pre) = some [7] := by decide
  exact ⟨hE, hempty, hdone, hnumbered.inUse, order, hperm, hreal 1 2 hprecedes, hanswers,
    by rw [hshelf, hleft]⟩

end NativeGate.Hook
