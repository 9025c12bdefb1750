import Mathlib.Data.List.Nodup
import Mathlib.Logic.Function.Basic
import NativeGate.Proofs.Hook.Operations

/-!
The hook registry as a map. What a registry keeps in three places, in the engine, in the table of
callbacks and in the next identity, is one map from addresses to hooks with their callbacks.
`Book` is that map, and `Book.Step` says what each operation answers and does to it. Over any run a
registry follows a book (`performAll_follows`), for any engine that keeps the contract of hook
engines: it finds what was installed and not removed, and a record carries the identity asked for.
-/

namespace NativeGate.Hook

/-! ### The table of callbacks -/

namespace Table
variable {χ : Type}

theorem snapshot_push (t : Table χ) (id id' : HookId) (phase phase' : Phase) (c : χ) :
    (t.push id phase c).snapshot id' phase' =
      if id = id' ∧ phase = phase' then t.snapshot id' phase' ++ [c]
      else t.snapshot id' phase' := by
  unfold push snapshot
  rw [List.filter_append, List.map_append]
  by_cases h : id = id' ∧ phase = phase'
  · simp [h]
  · simp [h]

theorem snapshot_clear (t : Table χ) (id id' : HookId) (phase : Phase) :
    (t.clear id).snapshot id' phase = if id = id' then [] else t.snapshot id' phase := by
  unfold clear snapshot
  rw [List.filter_filter]
  by_cases h : id = id'
  · subst h
    rw [if_pos rfl, List.map_eq_nil_iff, List.filter_eq_nil_iff]
    intro r _
    simp +contextual
  · rw [if_neg h]
    congr 1
    apply List.filter_congr
    intro r _
    by_cases hr : r.hook = id'
    · simp [hr, Ne.symm h]
    · simp [hr]

/-- A hook has callbacks only where a registration names it. -/
theorem snapshot_eq_nil {t : Table χ} {id : HookId}
    (h : ∀ r ∈ t.registrations, r.hook ≠ id) (phase : Phase) : t.snapshot id phase = [] := by
  rw [snapshot, List.map_eq_nil_iff, List.filter_eq_nil_iff]
  intro r hr
  simp [h r hr]

variable [DecidableEq χ]

/-- Taking out a registration takes the callback out of the one list it belongs to. -/
theorem snapshot_remove (t : Table χ) (id id' : HookId) (phase phase' : Phase) (c : χ) :
    (t.remove id phase c).2.snapshot id' phase' =
      if id = id' ∧ phase = phase' then (t.snapshot id' phase').erase c
      else t.snapshot id' phase' := by
  obtain ⟨rs⟩ := t
  simp only [remove, snapshot]
  induction rs with
  | nil => simp
  | cons r rs ih =>
    by_cases hr : r = ⟨id, phase, c⟩
    · subst hr
      rw [List.erase_cons_head]
      by_cases h : id = id' ∧ phase = phase'
      · simp [h]
      · simp [h]
    · rw [List.erase_cons_tail (by simpa using hr)]
      by_cases hk : r.hook = id' ∧ r.phase = phase'
      · rw [List.filter_cons_of_pos (by simpa using hk),
          List.filter_cons_of_pos (by simpa using hk), List.map_cons, List.map_cons, ih]
        by_cases h : id = id' ∧ phase = phase'
        · rw [if_pos h, if_pos h, List.erase_cons_tail]
          obtain ⟨hook, phase₁, callback⟩ := r
          obtain ⟨rfl, rfl⟩ := h
          obtain ⟨rfl, rfl⟩ := hk
          simpa using hr
        · rw [if_neg h, if_neg h]
      · rw [List.filter_cons_of_neg (by simpa using hk),
          List.filter_cons_of_neg (by simpa using hk), ih]

end Table

/-! ### The map that a registry is -/

/-- A live hook with its callbacks of each phase, in order. -/
structure Entry (χ : Type) where
  record : Record
  callbacks : Phase → List χ

/-- The live hooks by address. Beside them stand the identities of all hooks there have been, and
    the addresses at which an installation was asked for. -/
structure Book (χ : Type) where
  hooks : Address → Option (Entry χ)
  ids : List HookId
  asked : List Address

namespace Book
variable {χ : Type}

def empty : Book χ := ⟨fun _ => none, [], []⟩

/-- The book with another list of callbacks for a phase of a hook. -/
def rewrite (b : Book χ) (a : Address) (entry : Entry χ) (phase : Phase) (cs : List χ) : Book χ :=
  { b with
    hooks := Function.update b.hooks a
      (some { entry with callbacks := Function.update entry.callbacks phase cs }) }

/-- The book with a new hook, whose only callback is `c`. -/
def install (b : Book χ) (a : Address) (record : Record) (phase : Phase) (c : χ) : Book χ :=
  ⟨Function.update b.hooks a (some ⟨record, Function.update (fun _ => []) phase [c]⟩),
    record.id :: b.ids, b.asked ++ [a]⟩

/-- The book without the hook at an address. -/
def drop (b : Book χ) (a : Address) : Book χ := { b with hooks := Function.update b.hooks a none }

theorem hooks_install_self (b : Book χ) (a : Address) (record : Record) (phase : Phase) (c : χ) :
    (b.install a record phase c).hooks a =
      some ⟨record, Function.update (fun _ => []) phase [c]⟩ :=
  Function.update_self ..

theorem hooks_install_of_ne (b : Book χ) {a a' : Address} (h : a' ≠ a) (record : Record)
    (phase : Phase) (c : χ) : (b.install a record phase c).hooks a' = b.hooks a' :=
  Function.update_of_ne h ..

theorem hooks_drop_self (b : Book χ) (a : Address) : (b.drop a).hooks a = none :=
  Function.update_self ..

theorem hooks_drop_of_ne (b : Book χ) {a a' : Address} (h : a' ≠ a) :
    (b.drop a).hooks a' = b.hooks a' :=
  Function.update_of_ne h ..

theorem hooks_rewrite_self (b : Book χ) (a : Address) (entry : Entry χ) (phase : Phase)
    (cs : List χ) : (b.rewrite a entry phase cs).hooks a =
      some { entry with callbacks := Function.update entry.callbacks phase cs } :=
  Function.update_self ..

theorem hooks_rewrite_of_ne (b : Book χ) {a a' : Address} (h : a' ≠ a) (entry : Entry χ)
    (phase : Phase) (cs : List χ) : (b.rewrite a entry phase cs).hooks a' = b.hooks a' :=
  Function.update_of_ne h ..

variable [DecidableEq χ]

/-- What an operation answers and does. A callback goes to the end of its list, and a hook is
    installed only for the first callback of an address, under an identity that no hook has had. -/
inductive Step (b : Book χ) : Op χ → Answer → Book χ → Prop
  | addNull (f : Function) (phase : Phase) (c : χ) (hf : f.address = .null) :
      Step b (.add f phase c) (.added (.error (.nullPointer .target))) b
  | addMore (f : Function) (phase : Phase) (c : χ) (entry : Entry χ) (hf : f.address ≠ .null)
      (hb : b.hooks f.address = some entry) :
      Step b (.add f phase c) (.added (.ok ()))
        (b.rewrite f.address entry phase (entry.callbacks phase ++ [c]))
  | addFirst (f : Function) (phase : Phase) (c : χ) (record : Record) (hf : f.address ≠ .null)
      (hb : b.hooks f.address = none) (hnew : record.id ∉ b.ids) :
      Step b (.add f phase c) (.added (.ok ())) (b.install f.address record phase c)
  | addRefused (f : Function) (phase : Phase) (c : χ) (e : Error) (hf : f.address ≠ .null)
      (hb : b.hooks f.address = none) :
      Step b (.add f phase c) (.added (.error e)) { b with asked := b.asked ++ [f.address] }
  | removeNone (f : Function) (phase : Phase) (c : χ) (hb : b.hooks f.address = none) :
      Step b (.remove f phase c) .removed b
  | remove (f : Function) (phase : Phase) (c : χ) (entry : Entry χ)
      (hb : b.hooks f.address = some entry) :
      Step b (.remove f phase c) .removed
        (b.rewrite f.address entry phase ((entry.callbacks phase).erase c))
  | uninstallNone (f : Function) (hb : b.hooks f.address = none) :
      Step b (.uninstall f) (.uninstalled false) b
  | uninstall (f : Function) (entry : Entry χ) (hb : b.hooks f.address = some entry) :
      Step b (.uninstall f) (.uninstalled true) (b.drop f.address)
  | find (f : Function) : Step b (.find f) (.found ((b.hooks f.address).map (·.record))) b
  | count (f : Function) (phase : Phase) :
      Step b (.count f phase)
        (.counted ((b.hooks f.address).elim 0 fun entry => (entry.callbacks phase).length)) b

/-- The steps of operations in order. -/
inductive Run : Book χ → List (Op χ) → List Answer → Book χ → Prop
  | nil (b : Book χ) : Run b [] [] b
  | cons {b b₁ b₂ : Book χ} {op : Op χ} {ops : List (Op χ)} {answer : Answer}
      {answers : List Answer} (head : Step b op answer b₁) (tail : Run b₁ ops answers b₂) :
      Run b (op :: ops) (answer :: answers) b₂

end Book

/-- A registry keeps the map of a book. The identities of live hooks are told apart, all of them
    were given out, one for each installation that was asked for, and every registration belongs to
    a live hook. -/
structure Follows {χ ε : Type} (E : Engine ε) (Sound : ε → Prop)
    (r : Registry χ (ε × List Address)) (b : Book χ) : Prop where
  sound : Sound r.engine.1
  hooks : ∀ a, b.hooks a =
    (E.find r.engine.1 a).map fun record => ⟨record, r.table.snapshot record.id⟩
  asked : b.asked = r.engine.2
  counted : r.nextId = b.asked.length + 1
  live : ∀ a entry, b.hooks a = some entry → entry.record.id ∈ b.ids
  distinct : ∀ a a' entry entry', b.hooks a = some entry → b.hooks a' = some entry' →
    entry.record.id = entry'.record.id → a = a'
  given : ∀ id ∈ b.ids, id.number < r.nextId
  nodup : b.ids.Nodup
  owned : ∀ x ∈ r.table.registrations, ∃ a entry, b.hooks a = some entry ∧
    entry.record.id = x.hook

section Steps
variable {χ ε : Type} {E : Engine ε} {Sound : ε → Prop}
  {r : Registry χ (ε × List Address)} {b : Book χ}

theorem Follows.hooks_none (h : Follows E Sound r b) {a : Address}
    (hfind : E.find r.engine.1 a = none) : b.hooks a = none := by
  rw [h.hooks, hfind]
  rfl

theorem Follows.hooks_some (h : Follows E Sound r b) {a : Address} {record : Record}
    (hfind : E.find r.engine.1 a = some record) :
    b.hooks a = some ⟨record, r.table.snapshot record.id⟩ := by
  rw [h.hooks, hfind]
  rfl

/-- An address whose hook is not `id` has the hook and the callbacks it had when the table changes
    under `id` alone. -/
theorem Follows.hooks_of_ne (h : Follows E Sound r b) {t : Table χ} {id : HookId}
    (ht : ∀ id' phase, id ≠ id' → t.snapshot id' phase = r.table.snapshot id' phase) {a : Address}
    (ha : ∀ entry, b.hooks a = some entry → entry.record.id ≠ id) :
    b.hooks a = (E.find r.engine.1 a).map fun record => ⟨record, t.snapshot record.id⟩ := by
  rw [h.hooks]
  cases hfind : E.find r.engine.1 a with
  | none => rfl
  | some record =>
    have hne : id ≠ record.id := (ha _ (h.hooks_some hfind)).symm
    have hsame : t.snapshot record.id = r.table.snapshot record.id :=
      funext fun phase => ht record.id phase hne
    rw [Option.map_some, Option.map_some, hsame]

/-- No live hook has an identity that was not given out. -/
theorem Follows.id_ne (h : Follows E Sound r b) {id : HookId} (hid : id ∉ b.ids) {a : Address}
    {entry : Entry χ} (hentry : b.hooks a = some entry) : entry.record.id ≠ id :=
  fun heq => hid (heq ▸ h.live a entry hentry)

/-- There are no callbacks under an identity that was not given out. -/
theorem Follows.snapshot_eq_nil (h : Follows E Sound r b) {id : HookId} (hid : id ∉ b.ids)
    (phase : Phase) : r.table.snapshot id phase = [] := by
  refine Table.snapshot_eq_nil (fun x hx => ?_) phase
  obtain ⟨a, entry, hentry, howner⟩ := h.owned x hx
  exact howner ▸ h.id_ne hid hentry

/-- Changing one list of callbacks in the table changes that list in the book. -/
theorem Follows.rewrite (h : Follows E Sound r b) {a : Address} {record : Record}
    (hfind : E.find r.engine.1 a = some record) (phase : Phase) {cs : List χ} {t : Table χ}
    (hsnapshot : ∀ id' phase', t.snapshot id' phase' =
      if record.id = id' ∧ phase = phase' then cs else r.table.snapshot id' phase')
    (howned : ∀ x ∈ t.registrations, x ∈ r.table.registrations ∨ x.hook = record.id) :
    Follows E Sound { r with table := t }
      (b.rewrite a ⟨record, r.table.snapshot record.id⟩ phase cs) := by
  have hb := h.hooks_some hfind
  have hlive : ∀ a' entry, (b.rewrite a ⟨record, r.table.snapshot record.id⟩ phase cs).hooks a' =
      some entry → ∃ entry', b.hooks a' = some entry' ∧ entry'.record = entry.record := by
    intro a' entry hentry
    by_cases ha : a' = a
    · subst ha
      rw [Book.hooks_rewrite_self, Option.some.injEq] at hentry
      exact ⟨_, hb, hentry ▸ rfl⟩
    · rw [Book.hooks_rewrite_of_ne b ha] at hentry
      exact ⟨entry, hentry, rfl⟩
  refine ⟨h.sound, fun a' => ?_, h.asked, h.counted, ?_, ?_, h.given, h.nodup, fun x hx => ?_⟩
  · by_cases ha : a' = a
    · subst ha
      rw [Book.hooks_rewrite_self, hfind, Option.map_some, Option.some.injEq, Entry.mk.injEq]
      refine ⟨rfl, funext fun phase' => ?_⟩
      rw [hsnapshot]
      by_cases hp : phase' = phase
      · subst hp
        rw [Function.update_self, if_pos ⟨rfl, rfl⟩]
      · rw [Function.update_of_ne hp, if_neg fun hc => hp hc.2.symm]
    · rw [Book.hooks_rewrite_of_ne b ha]
      refine h.hooks_of_ne (fun id' phase' hid => ?_) fun entry hentry hid =>
        ha (h.distinct a' a _ _ hentry hb hid)
      rw [hsnapshot, if_neg fun hc => hid hc.1]
  · intro a' entry hentry
    obtain ⟨entry', hentry', hrecord⟩ := hlive a' entry hentry
    exact hrecord ▸ h.live a' entry' hentry'
  · intro a₁ a₂ entry₁ entry₂ h₁ h₂ hid
    obtain ⟨entry₁', h₁', hrecord₁⟩ := hlive a₁ entry₁ h₁
    obtain ⟨entry₂', h₂', hrecord₂⟩ := hlive a₂ entry₂ h₂
    exact h.distinct a₁ a₂ entry₁' entry₂' h₁' h₂' (by rw [hrecord₁, hrecord₂, hid])
  · have hupdated :=
      b.hooks_rewrite_self a ⟨record, r.table.snapshot record.id⟩ phase cs
    rcases howned x hx with hold | hnew
    · obtain ⟨a', entry, hentry, hid⟩ := h.owned x hold
      by_cases ha : a' = a
      · subst ha
        rw [hb, Option.some.injEq] at hentry
        exact ⟨a', _, hupdated, hentry ▸ hid⟩
      · exact ⟨a', entry, (b.hooks_rewrite_of_ne ha ..).trans hentry, hid⟩
    · exact ⟨a, _, hupdated, hnew.symm⟩

/-- The next identity is one that no hook has had. -/
theorem Follows.next_not_mem (h : Follows E Sound r b) : (⟨r.nextId⟩ : HookId) ∉ b.ids :=
  fun hmem => Nat.lt_irrefl _ (h.given _ hmem)

/-- A failed installation uses an identity up and changes nothing else. -/
theorem Follows.refused (h : Follows E Sound r b) (hE : E.Contract Sound) {f : Function}
    {e : Error} (hfind : E.find r.engine.1 f.address = none)
    (hinstall : (E.install f ⟨r.nextId⟩ r.engine.1).1 = .error e) :
    Follows E Sound
      ⟨((E.install f ⟨r.nextId⟩ r.engine.1).2, r.engine.2 ++ [f.address]), r.table, r.nextId + 1⟩
      { b with asked := b.asked ++ [f.address] } where
  sound := hE.install_sound _ _ _ h.sound hfind
  hooks a := by
    rw [hE.install_error _ _ _ _ h.sound hfind hinstall]
    exact h.hooks a
  asked := congrArg (· ++ [f.address]) h.asked
  counted := by rw [h.counted, List.length_append, List.length_singleton]
  live := h.live
  distinct := h.distinct
  given id hid := Nat.lt_succ_of_lt (h.given id hid)
  nodup := h.nodup
  owned := h.owned

/-- A hook that was installed is new in the map, with one callback in one list. -/
theorem Follows.installed (h : Follows E Sound r b) (hE : E.Contract Sound) {f : Function}
    {record : Record} (hfind : E.find r.engine.1 f.address = none)
    (hinstall : (E.install f ⟨r.nextId⟩ r.engine.1).1 = .ok record) (phase : Phase) (c : χ) :
    Follows E Sound
      ⟨((E.install f ⟨r.nextId⟩ r.engine.1).2, r.engine.2 ++ [f.address]),
        r.table.push record.id phase c, r.nextId + 1⟩
      (b.install f.address record phase c) := by
  obtain ⟨hid, hfind'⟩ := hE.install_ok _ _ _ _ h.sound hfind hinstall
  have hnew : record.id ∉ b.ids := hid ▸ h.next_not_mem
  have hb : b.hooks f.address = none := h.hooks_none hfind
  have hcounted : r.nextId + 1 = (b.asked ++ [f.address]).length + 1 := by
    rw [h.counted, List.length_append, List.length_singleton]
  refine ⟨hE.install_sound _ _ _ h.sound hfind, fun a => ?_, congrArg (· ++ [f.address]) h.asked,
    hcounted, ?_, ?_, ?_, List.nodup_cons.2 ⟨hnew, h.nodup⟩, fun x hx => ?_⟩
  · rw [hfind']
    by_cases ha : a = f.address
    · subst ha
      rw [Book.hooks_install_self, Function.update_self, Option.map_some, Option.some.injEq,
        Entry.mk.injEq]
      refine ⟨rfl, funext fun phase' => ?_⟩
      rw [Table.snapshot_push, h.snapshot_eq_nil hnew]
      by_cases hp : phase' = phase
      · subst hp
        rw [Function.update_self, if_pos ⟨rfl, rfl⟩, List.nil_append]
      · rw [Function.update_of_ne hp, if_neg fun hc => hp hc.2.symm]
    · rw [b.hooks_install_of_ne ha, Function.update_of_ne ha]
      refine h.hooks_of_ne (fun id' phase' hne => ?_) fun entry hentry => h.id_ne hnew hentry
      rw [Table.snapshot_push, if_neg fun hc => hne hc.1]
  · intro a entry hentry
    by_cases ha : a = f.address
    · subst ha
      rw [Book.hooks_install_self, Option.some.injEq] at hentry
      rw [← hentry]
      exact List.mem_cons_self
    · rw [b.hooks_install_of_ne ha] at hentry
      exact List.mem_cons_of_mem _ (h.live a entry hentry)
  · intro a₁ a₂ entry₁ entry₂ h₁ h₂ hsame
    by_cases ha₁ : a₁ = f.address <;> by_cases ha₂ : a₂ = f.address
    · rw [ha₁, ha₂]
    · subst ha₁
      rw [Book.hooks_install_self, Option.some.injEq] at h₁
      rw [b.hooks_install_of_ne ha₂] at h₂
      rw [← h₁] at hsame
      exact absurd hsame.symm (h.id_ne hnew h₂)
    · subst ha₂
      rw [b.hooks_install_of_ne ha₁] at h₁
      rw [Book.hooks_install_self, Option.some.injEq] at h₂
      rw [← h₂] at hsame
      exact absurd hsame (h.id_ne hnew h₁)
    · rw [b.hooks_install_of_ne ha₁] at h₁
      rw [b.hooks_install_of_ne ha₂] at h₂
      exact h.distinct a₁ a₂ entry₁ entry₂ h₁ h₂ hsame
  · intro id hmem
    rcases List.mem_cons.1 hmem with rfl | hold
    · rw [hid]
      exact Nat.lt_succ_self _
    · exact Nat.lt_succ_of_lt (h.given id hold)
  · rcases List.mem_append.1 hx with hold | hnew'
    · obtain ⟨a, entry, hentry, howner⟩ := h.owned x hold
      have ha : a ≠ f.address := by
        rintro rfl
        rw [hb] at hentry
        cases hentry
      exact ⟨a, entry, (b.hooks_install_of_ne ha ..).trans hentry, howner⟩
    · rw [List.mem_singleton.1 hnew']
      exact ⟨f.address, _, b.hooks_install_self .., rfl⟩

/-- A hook that was taken out is gone from the map with both its lists. -/
theorem Follows.uninstalled (h : Follows E Sound r b) (hE : E.Contract Sound) {a : Address}
    {record : Record} (hfind : E.find r.engine.1 a = some record) :
    Follows E Sound
      ⟨((E.uninstall a r.engine.1).2, r.engine.2), r.table.clear record.id, r.nextId⟩
      (b.drop a) := by
  obtain ⟨_, hfind'⟩ := hE.uninstall r.engine.1 a h.sound
  have hb := h.hooks_some hfind
  have hold : ∀ a' entry, (b.drop a).hooks a' = some entry →
      a' ≠ a ∧ b.hooks a' = some entry := by
    intro a' entry hentry
    by_cases ha : a' = a
    · rw [ha, b.hooks_drop_self] at hentry
      cases hentry
    · rw [b.hooks_drop_of_ne ha] at hentry
      exact ⟨ha, hentry⟩
  refine ⟨hE.uninstall_sound _ _ h.sound, fun a' => ?_, h.asked, h.counted,
    fun a' entry hentry => h.live a' entry (hold a' entry hentry).2,
    fun a₁ a₂ entry₁ entry₂ h₁ h₂ =>
      h.distinct a₁ a₂ entry₁ entry₂ (hold a₁ entry₁ h₁).2 (hold a₂ entry₂ h₂).2,
    h.given, h.nodup, fun x hx => ?_⟩
  · rw [hfind']
    by_cases ha : a' = a
    · rw [ha, b.hooks_drop_self, Function.update_self]
      rfl
    · rw [b.hooks_drop_of_ne ha, Function.update_of_ne ha]
      refine h.hooks_of_ne (fun id' phase' hne => ?_) fun entry hentry hid =>
        ha (h.distinct a' a _ _ hentry hb hid)
      rw [Table.snapshot_clear, if_neg hne]
  · obtain ⟨hmem, hhook⟩ := List.mem_filter.1 hx
    obtain ⟨a', entry, hentry, hid⟩ := h.owned x hmem
    have ha : a' ≠ a := by
      rintro rfl
      rw [hb, Option.some.injEq] at hentry
      rw [← hentry] at hid
      exact absurd hid.symm (by simpa using hhook)
    exact ⟨a', entry, (b.hooks_drop_of_ne ha).trans hentry, hid⟩

/-! ### One operation -/

variable [DecidableEq χ]

theorem perform_add (h : Follows E Sound r b) (hE : E.Contract Sound) (f : Function) (phase : Phase)
    (c : χ) : ∃ b', Book.Step b (.add f phase c) (r.perform E.observed (.add f phase c)).1 b' ∧
      Follows E Sound (r.perform E.observed (.add f phase c)).2 b' := by
  by_cases hf : f.address = .null
  · have hrun : r.addCallback E.observed f phase c = (.error (.nullPointer .target), r) := by
      rw [Registry.addCallback, if_pos (Address.isNull_iff.2 hf)]
    simp only [Registry.perform, hrun]
    exact ⟨b, .addNull f phase c hf, h⟩
  · have hnull : ¬ f.address.isNull = true := fun hn => hf (Address.isNull_iff.1 hn)
    cases hfind : E.find r.engine.1 f.address with
    | some record =>
      have hfind' : r.find E.observed f = some record := hfind
      simp only [Registry.perform, Registry.addCallback, if_neg hnull, Registry.secure, hfind']
      refine ⟨_, .addMore f phase c _ hf (h.hooks_some hfind), ?_⟩
      refine h.rewrite hfind phase (fun id' phase' => ?_) fun x hx => ?_
      · rw [Table.snapshot_push]
        by_cases hc : record.id = id' ∧ phase = phase'
        · obtain ⟨rfl, rfl⟩ := hc
          rfl
        · rw [if_neg hc, if_neg hc]
      · rcases List.mem_append.1 hx with hold | hnew
        · exact .inl hold
        · rw [List.mem_singleton.1 hnew]
          exact .inr rfl
    | none =>
      have hfind' : r.find E.observed f = none := hfind
      cases hinstall : (E.install f ⟨r.nextId⟩ r.engine.1).1 with
      | error e =>
        have hinstall' : E.observed.install f ⟨r.nextId⟩ r.engine =
            (.error e, (E.install f ⟨r.nextId⟩ r.engine.1).2, r.engine.2 ++ [f.address]) :=
          Prod.ext hinstall rfl
        simp only [Registry.perform, Registry.addCallback, if_neg hnull, Registry.secure, hfind',
          hinstall']
        exact ⟨_, .addRefused f phase c e hf (h.hooks_none hfind), h.refused hE hfind hinstall⟩
      | ok record =>
        have hid := (hE.install_ok _ _ _ _ h.sound hfind hinstall).1
        have hinstall' : E.observed.install f ⟨r.nextId⟩ r.engine =
            (.ok record, (E.install f ⟨r.nextId⟩ r.engine.1).2, r.engine.2 ++ [f.address]) :=
          Prod.ext hinstall rfl
        simp only [Registry.perform, Registry.addCallback, if_neg hnull, Registry.secure, hfind',
          hinstall']
        exact ⟨_, .addFirst f phase c record hf (h.hooks_none hfind) (hid ▸ h.next_not_mem),
          h.installed hE hfind hinstall phase c⟩

theorem perform_remove (h : Follows E Sound r b) (f : Function) (phase : Phase) (c : χ) :
    ∃ b', Book.Step b (.remove f phase c) (r.perform E.observed (.remove f phase c)).1 b' ∧
      Follows E Sound (r.perform E.observed (.remove f phase c)).2 b' := by
  cases hfind : E.find r.engine.1 f.address with
  | none =>
    have hfind' : r.find E.observed f = none := hfind
    simp only [Registry.perform, Registry.removeCallback, hfind']
    exact ⟨b, .removeNone f phase c (h.hooks_none hfind), h⟩
  | some record =>
    have hfind' : r.find E.observed f = some record := hfind
    simp only [Registry.perform, Registry.removeCallback, hfind', Registry.withdraw]
    refine ⟨_, .remove f phase c _ (h.hooks_some hfind), ?_⟩
    refine h.rewrite hfind phase (fun id' phase' => ?_) fun x hx => .inl (List.mem_of_mem_erase hx)
    rw [Table.snapshot_remove]
    by_cases hc : record.id = id' ∧ phase = phase'
    · obtain ⟨rfl, rfl⟩ := hc
      rfl
    · rw [if_neg hc, if_neg hc]

theorem perform_uninstall (h : Follows E Sound r b) (hE : E.Contract Sound) (f : Function) :
    ∃ b', Book.Step b (.uninstall f) (r.perform E.observed (.uninstall f)).1 b' ∧
      Follows E Sound (r.perform E.observed (.uninstall f)).2 b' := by
  obtain ⟨hremoved, hfind'⟩ := hE.uninstall r.engine.1 f.address h.sound
  cases hfind : E.find r.engine.1 f.address with
  | none =>
    rw [hfind] at hremoved
    simp only [Registry.perform, Registry.uninstall, Registry.detach, Engine.observed, hremoved]
    refine ⟨b, .uninstallNone f (h.hooks_none hfind), ?_⟩
    refine ⟨hE.uninstall_sound _ _ h.sound, fun a => ?_, h.asked, h.counted, h.live, h.distinct,
      h.given, h.nodup, h.owned⟩
    have hsame : Function.update (E.find r.engine.1) f.address none = E.find r.engine.1 :=
      Function.update_eq_self_iff.2 hfind.symm
    rw [hfind', hsame]
    exact h.hooks a
  | some record =>
    rw [hfind] at hremoved
    simp only [Registry.perform, Registry.uninstall, Registry.detach, Engine.observed, hremoved]
    exact ⟨_, .uninstall f _ (h.hooks_some hfind), h.uninstalled hE hfind⟩

/-- Every operation is a step of the book that the registry follows. -/
theorem perform_follows (h : Follows E Sound r b) (hE : E.Contract Sound) (op : Op χ) :
    ∃ b', Book.Step b op (r.perform E.observed op).1 b' ∧
      Follows E Sound (r.perform E.observed op).2 b' := by
  cases op with
  | add f phase c => exact perform_add h hE f phase c
  | remove f phase c => exact perform_remove h f phase c
  | uninstall f => exact perform_uninstall h hE f
  | find f =>
    refine ⟨b, ?_, h⟩
    have hfound : r.find E.observed f = (b.hooks f.address).map (·.record) := by
      rw [h.hooks, Option.map_map]
      exact (Option.map_id' ..).symm
    simp only [Registry.perform, hfound]
    exact .find f
  | count f phase =>
    refine ⟨b, ?_, h⟩
    have hcount : r.count E.observed f phase =
        (b.hooks f.address).elim 0 fun entry => (entry.callbacks phase).length := by
      rw [Registry.count, h.hooks]
      cases hfind : E.find r.engine.1 f.address with
      | none =>
        have hfind' : r.find E.observed f = none := hfind
        rw [hfind']
        rfl
      | some record =>
        have hfind' : r.find E.observed f = some record := hfind
        rw [hfind']
        rfl
    simp only [Registry.perform, hcount]
    exact .count f phase

/-- Every run of operations is a run of the book that the registry follows. -/
theorem performAll_follows (h : Follows E Sound r b) (hE : E.Contract Sound) (ops : List (Op χ)) :
    ∃ b', Book.Run b ops (r.performAll E.observed ops).1 b' ∧
      Follows E Sound (r.performAll E.observed ops).2 b' := by
  induction ops generalizing r b with
  | nil => exact ⟨b, .nil b, h⟩
  | cons op ops ih =>
    obtain ⟨b₁, hstep, h₁⟩ := perform_follows h hE op
    obtain ⟨b₂, hrun, h₂⟩ := ih h₁
    exact ⟨b₂, .cons hstep hrun, h₂⟩

end Steps

/-! ### Detours as an engine -/

theorem Detours.find_uninstall (site : Site) (d : Detours) (a : Address) :
    (Detours.engine site).find ((Detours.engine site).uninstall a d).2 =
      Function.update ((Detours.engine site).find d) a Option.none := by
  funext a'
  have hat : ({ d with installed := d.installed.filter fun x => x.record.target ≠ a } : Detours).at?
      a' = if a' = a then Option.none else d.at? a' := by
    unfold Detours.at?
    rw [List.find?_filter]
    by_cases ha : a' = a
    · subst ha
      rw [if_pos rfl, List.find?_eq_none]
      simp
    · rw [if_neg ha]
      congr 1
      funext x
      by_cases hx : x.record.target = a'
      · simp [hx, ha]
      · simp [hx]
  by_cases ha : a' = a
  · subst ha
    rw [Function.update_self]
    exact congrArg (Option.map (·.record)) (hat.trans (if_pos rfl))
  · rw [Function.update_of_ne ha]
    exact congrArg (Option.map (·.record)) (hat.trans (if_neg ha))

/-- Detours keep the contract of hook engines in every state. -/
theorem Detours.contract (site : Site) : (Detours.engine site).Contract fun _ => True where
  install_sound _ _ _ _ _ := trivial
  install_ok d f id record _ _ h := by
    cases hsite : site.refusal f.address with
    | some reason =>
      simp only [Detours.engine, hsite] at h
      cases h
    | none =>
      simp only [Detours.engine, hsite] at h ⊢
      cases h
      refine ⟨rfl, funext fun a => ?_⟩
      by_cases ha : a = f.address
      · subst ha
        rw [Function.update_self, Detours.at?, List.find?_cons_of_pos (by simp)]
        rfl
      · rw [Function.update_of_ne ha, Detours.at?,
          List.find?_cons_of_neg (by simpa using Ne.symm ha)]
        rfl
  install_error d f id e _ _ h := by
    cases hsite : site.refusal f.address with
    | some reason =>
      simp only [Detours.engine, hsite]
      rfl
    | none =>
      simp only [Detours.engine, hsite] at h
      cases h
  uninstall_sound _ _ _ := trivial
  uninstall d a _ := ⟨rfl, Detours.find_uninstall site d a⟩

/-! ### Every run -/

theorem follows_start {χ ε : Type} {E : Engine ε} {Sound : ε → Prop} {s : ε} (hs : Sound s)
    (hempty : ∀ a, E.find s a = none) :
    Follows E Sound (.start (s, []) : Registry χ (ε × List Address)) .empty where
  sound := hs
  hooks a := by
    rw [show (Registry.start (s, []) : Registry χ _).engine.1 = s from rfl, hempty]
    rfl
  asked := rfl
  counted := rfl
  live _ _ h := by cases h
  distinct _ _ _ _ h := by cases h
  given _ h := by cases h
  nodup := List.nodup_nil
  owned _ h := by cases h

/-- Over an engine that keeps the contract, a registry is a map from addresses to hooks with two
    lists of callbacks: its answers in any run are those of the map, installations are asked for
    exactly where the map says, and at the end the engine and the table show the map. Hooks that
    live have different identities, no identity is given to two hooks of a run or goes beyond the
    number of installations asked for, and the table holds callbacks of live hooks alone. -/
theorem registry_is_map {χ ε : Type} [DecidableEq χ] {E : Engine ε} {Sound : ε → Prop}
    (hE : E.Contract Sound) {s : ε} (hs : Sound s) (hempty : ∀ a, E.find s a = none)
    (ops : List (Op χ)) :
    let run := (Registry.start (s, [])).performAll E.observed ops
    (Registry.start s).performAll E ops = (run.1, run.2.unobserved) ∧
    ∃ book, Book.Run .empty ops run.1 book ∧
      (∀ a, book.hooks a = (E.find run.2.engine.1 a).map fun record =>
        ⟨record, run.2.table.snapshot record.id⟩) ∧
      book.asked = run.2.engine.2 ∧ book.ids.Nodup ∧
      (∀ id ∈ book.ids, id.number ≤ book.asked.length) ∧
      (∀ a record, E.find run.2.engine.1 a = some record → record.id ∈ book.ids) ∧
      (∀ a a' record record', E.find run.2.engine.1 a = some record →
        E.find run.2.engine.1 a' = some record' → record.id = record'.id → a = a') ∧
      ∀ id phase, run.2.table.snapshot id phase ≠ [] →
        ∃ a record, E.find run.2.engine.1 a = some record ∧ record.id = id := by
  intro run
  obtain ⟨book, hrun, h⟩ := performAll_follows (follows_start hs hempty) hE ops
  refine ⟨Registry.performAll_observed E ops (.start (s, [])), book, hrun, h.hooks, h.asked,
    h.nodup, fun id hid => ?_, fun a record hfind => h.live a _ (h.hooks_some hfind),
    fun a a' record record' hfind hfind' => h.distinct a a' _ _ (h.hooks_some hfind)
      (h.hooks_some hfind'), fun id phase hne => ?_⟩
  · have hlt := h.given id hid
    rw [h.counted] at hlt
    exact Nat.lt_succ_iff.1 hlt
  · obtain ⟨x, hx, hid⟩ : ∃ x ∈ run.2.table.registrations, x.hook = id := by
      by_contra hnone
      exact hne (Table.snapshot_eq_nil (fun x hx heq => hnone ⟨x, hx, heq⟩) phase)
    obtain ⟨a, entry, hentry, howner⟩ := h.owned x hx
    cases hfind : E.find run.2.engine.1 a with
    | none =>
      rw [h.hooks_none hfind] at hentry
      cases hentry
    | some record =>
      rw [h.hooks_some hfind, Option.some.injEq] at hentry
      exact ⟨a, record, hfind, by rw [← hid, ← howner, ← hentry]⟩

/-- A function is hooked for a callback, unhooked, and hooked again under another identity without
    the callback. -/
theorem registry_is_map_hooked_again :
    let E := Detours.engine ⟨fun _ => none, 0x1000⟩
    let f : Function := ⟨⟨0x4000⟩, .cdecl, ⟨[], .void, by decide⟩⟩
    E.Contract (fun _ => True) ∧ (∀ a, E.find .none a = none) ∧
    ∃ book : Book Nat, book.asked = [f.address, f.address] ∧ book.ids.Nodup ∧
      Book.Run .empty [.add f .pre 5, .uninstall f, .add f .post 7, .count f .pre]
        [.added (.ok ()), .uninstalled true, .added (.ok ()), .counted 0] book := by
  intro E f
  have hE : E.Contract fun _ => True := Detours.contract _
  have hempty : ∀ a, E.find .none a = none := fun _ => rfl
  obtain ⟨_, book, hrun, _, hasked, hnodup, _⟩ := registry_is_map hE trivial hempty
    [.add f .pre 5, .uninstall f, .add f .post 7, .count f .pre]
  exact ⟨hE, hempty, book, hasked, hnodup, hrun⟩

end NativeGate.Hook
