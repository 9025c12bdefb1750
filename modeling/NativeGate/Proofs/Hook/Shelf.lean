import NativeGate.Proofs.Hook.Registry

/-!
The shelf of a registry: which addresses are hooked, and with which callbacks of each phase. It is
what a registry shows when hooks are not told apart by their identities. Where it depends on the
target alone whether a hook can be installed, the shelf tells the answers of all operations that
change a registry, and so do the shelf before and the operations the shelf after any run
(`performAll_shelf`).
-/

namespace NativeGate.Hook

/-- An operation that changes a registry. -/
inductive Change (χ : Type) where
  | add (f : Function) (phase : Phase) (callback : χ)
  | remove (f : Function) (phase : Phase) (callback : χ)
  | uninstall (f : Function)

namespace Change
variable {χ : Type}

def op : Change χ → Op χ
  | add f phase c => .add f phase c
  | remove f phase c => .remove f phase c
  | uninstall f => .uninstall f

def address : Change χ → Address
  | add f _ _ | remove f _ _ | uninstall f => f.address

/-- The answer of an operation that finds its hook. -/
def completed : Change χ → Answer
  | add _ _ _ => .added (.ok ())
  | remove _ _ _ => .removed
  | uninstall _ => .uninstalled true

/-- The change is one of the lists of an address. -/
def Edits (a : Address) : Change χ → Prop
  | add f _ _ => f.address = a ∧ a ≠ .null
  | remove f _ _ => f.address = a
  | uninstall _ => False

theorem Edits.address_eq {change : Change χ} {a : Address} (h : change.Edits a) :
    change.address = a := by
  cases change with
  | add f phase c => exact h.1
  | remove f phase c => exact h
  | uninstall f => cases h

end Change

/-- An answer in which errors are shown as `view` has them. -/
def Answer.seen (view : Error → Error) : Answer → Answer
  | added result => added (result.mapError view)
  | answer => answer

theorem Change.completed_seen {χ : Type} (view : Error → Error) (change : Change χ) :
    change.completed.seen view = change.completed := by cases change <;> rfl

/-- It depends on the target alone whether a hook can be installed where there is none, and with
    what error it cannot, as far as `view` shows errors. -/
def Engine.Steady {ε : Type} (E : Engine ε) (Sound : ε → Prop) (view : Error → Error)
    (outcome : Address → Except Error Unit) : Prop :=
  ∀ s f id, Sound s → E.find s f.address = none →
    ((E.install f id s).1.map fun _ => ()).mapError view = outcome f.address

/-- The callbacks of each phase for the addresses that are hooked. -/
abbrev Shelf (χ : Type) := Address → Option (Phase → List χ)

namespace Shelf
variable {χ : Type}

def empty : Shelf χ := fun _ => none

/-- The callbacks of an address; where there is no hook there are none. -/
def lists (m : Shelf χ) (a : Address) : Phase → List χ := (m a).getD fun _ => []

/-- The shelf with another list for a phase of an address. -/
def put (m : Shelf χ) (a : Address) (phase : Phase) (cs : List χ) : Shelf χ :=
  Function.update m a (some (Function.update (m.lists a) phase cs))

theorem put_self (m : Shelf χ) (a : Address) (phase : Phase) (cs : List χ) :
    m.put a phase cs a = some (Function.update (m.lists a) phase cs) := Function.update_self ..

theorem put_ne_none (m : Shelf χ) (a : Address) (phase : Phase) (cs : List χ) :
    m.put a phase cs a ≠ none := by
  rw [put_self]
  exact Option.some_ne_none _

theorem put_of_ne (m : Shelf χ) {a a' : Address} (h : a' ≠ a) (phase : Phase) (cs : List χ) :
    m.put a phase cs a' = m a' := Function.update_of_ne h ..

theorem lists_put (m : Shelf χ) (a : Address) (phase : Phase) (cs : List χ) :
    (m.put a phase cs).lists a = Function.update (m.lists a) phase cs := by
  rw [lists, put_self]
  rfl

variable [DecidableEq χ] (view : Error → Error) (outcome : Address → Except Error Unit)

/-- What a change answers and does where installations have the given outcome. -/
def perform (m : Shelf χ) : Change χ → Answer × Shelf χ
  | .add f phase c =>
    if f.address.isNull then (.added (.error (view (.nullPointer .target))), m)
    else
      match if (m f.address).isSome then .ok () else outcome f.address with
      | .error e => (.added (.error e), m)
      | .ok _ => (.added (.ok ()), m.put f.address phase (m.lists f.address phase ++ [c]))
  | .remove f phase c =>
    if (m f.address).isSome then
      (.removed, m.put f.address phase ((m.lists f.address phase).erase c))
    else (.removed, m)
  | .uninstall f => (.uninstalled (m f.address).isSome, Function.update m f.address none)

theorem perform_add {f : Function} (hf : f.address ≠ .null) (hok : outcome f.address = .ok ())
    (m : Shelf χ) (phase : Phase) (c : χ) : m.perform view outcome (.add f phase c) =
      (.added (.ok ()), m.put f.address phase (m.lists f.address phase ++ [c])) := by
  rw [perform, if_neg (fun h => hf (Address.isNull_iff.1 h)), hok, ite_self]

theorem perform_remove_of_none {f : Function} {m : Shelf χ} (h : m f.address = none)
    (phase : Phase) (c : χ) : m.perform view outcome (.remove f phase c) = (.removed, m) := by
  rw [perform, h]
  rfl

theorem perform_remove_of_some {f : Function} {m : Shelf χ} (h : m f.address ≠ none)
    (phase : Phase) (c : χ) : m.perform view outcome (.remove f phase c) =
      (.removed, m.put f.address phase ((m.lists f.address phase).erase c)) := by
  rw [perform, if_pos (Option.isSome_iff_ne_none.2 h)]

/-- Changes in order, with all their answers. -/
def performAll : List (Change χ) → Shelf χ → List Answer × Shelf χ
  | [], m => ([], m)
  | change :: changes, m =>
    let t := m.perform view outcome change
    let rest := performAll changes t.2
    (t.1 :: rest.1, rest.2)

theorem performAll_append (changes more : List (Change χ)) (m : Shelf χ) :
    performAll view outcome (changes ++ more) m =
      let t := performAll view outcome changes m
      let rest := performAll view outcome more t.2
      (t.1 ++ rest.1, rest.2) := by
  induction changes generalizing m with
  | nil => rfl
  | cons change changes ih => simp only [List.cons_append, performAll, ih]

/-! ### Changes of the lists of one address -/

variable {view outcome} {a : Address}

/-- A change leaves the other addresses as they are. -/
theorem perform_of_ne (m : Shelf χ) {change : Change χ} (h : a ≠ change.address) :
    (m.perform view outcome change).2 a = m a := by
  cases change with
  | add f phase c =>
    simp only [perform]
    split
    · rfl
    · split
      · rfl
      · exact m.put_of_ne h ..
  | remove f phase c =>
    simp only [perform]
    split
    · exact m.put_of_ne h ..
    · rfl
  | uninstall f => exact Function.update_of_ne h ..

/-- Where a hook can be installed, a change of lists answers that it found its hook. Nothing is
    hooked after it only if nothing was before and no callback was added. -/
theorem perform_edit (view : Error → Error) {change : Change χ} (h : change.Edits a)
    (hok : outcome a = .ok ()) (m : Shelf χ) :
    (m.perform view outcome change).1 = change.completed ∧
      ((m.perform view outcome change).2 a = none →
        m a = none ∧ ∀ f phase c, change ≠ .add f phase c) := by
  cases change with
  | add f phase c =>
    obtain ⟨rfl, hnull⟩ := h
    rw [perform_add view outcome hnull hok]
    exact ⟨rfl, fun hnone => absurd hnone (m.put_ne_none _ _ _)⟩
  | remove f phase c =>
    cases h
    by_cases hm : m f.address = none
    · rw [perform_remove_of_none view outcome hm]
      exact ⟨rfl, fun hnone => ⟨hnone, fun _ _ _ hc => by cases hc⟩⟩
    · rw [perform_remove_of_some view outcome hm]
      exact ⟨rfl, fun hnone => absurd hnone (m.put_ne_none _ _ _)⟩
  | uninstall f => cases h

/-- Such changes one after the other do the same, and leave the other addresses as they are. -/
theorem performAll_edits (view : Error → Error) {changes : List (Change χ)}
    (h : ∀ change ∈ changes, change.Edits a) (hok : outcome a = .ok ()) (m : Shelf χ) :
    (performAll view outcome changes m).1 = changes.map Change.completed ∧
      (∀ a', a' ≠ a → (performAll view outcome changes m).2 a' = m a') ∧
      ((performAll view outcome changes m).2 a = none →
        m a = none ∧ ∀ f phase c, Change.add f phase c ∉ changes) := by
  induction changes generalizing m with
  | nil => exact ⟨rfl, fun _ _ => rfl, fun hnone => ⟨hnone, fun _ _ _ => List.not_mem_nil⟩⟩
  | cons change changes ih =>
    have hedit := h change List.mem_cons_self
    obtain ⟨hanswer, hnone⟩ := perform_edit view hedit hok m
    obtain ⟨hanswers, hothers, hnones⟩ := ih (fun c hc => h c (List.mem_cons_of_mem _ hc))
      (m.perform view outcome change).2
    refine ⟨?_, fun a' ha' => ?_, fun hlast => ?_⟩
    · rw [performAll, List.map_cons, ← hanswer, ← hanswers]
    · exact (hothers a' ha').trans (m.perform_of_ne (hedit.address_eq ▸ ha'))
    · obtain ⟨hfirst, hnew⟩ := hnones hlast
      obtain ⟨hm, hchange⟩ := hnone hfirst
      refine ⟨hm, fun f phase c hmem => ?_⟩
      rcases List.mem_cons.1 hmem with heq | hmem
      · exact hchange f phase c heq.symm
      · exact hnew f phase c hmem

end Shelf

/-! ### The shelf of a book -/

section
variable {χ : Type} {b b' : Book χ}

/-- A book without the identities of its hooks. -/
def Book.shelf (b : Book χ) : Shelf χ := fun a => (b.hooks a).map Entry.callbacks

theorem Book.shelf_eq {a : Address} {found : Option (Entry χ)} (h : b.hooks a = found) :
    b.shelf a = found.map Entry.callbacks := congrArg (Option.map Entry.callbacks) h

theorem Book.lists_shelf {a : Address} {entry : Entry χ} (h : b.hooks a = some entry) :
    b.shelf.lists a = entry.callbacks := by rw [Shelf.lists, shelf_eq h]; rfl

theorem Book.shelf_update {a : Address} {found : Option (Entry χ)}
    (h : b'.hooks = Function.update b.hooks a found) :
    b'.shelf = Function.update b.shelf a (found.map Entry.callbacks) := by
  have hshelf : b'.shelf = Option.map Entry.callbacks ∘ b'.hooks := rfl
  rw [hshelf, h, Function.comp_update]
  rfl

theorem Book.shelf_rewrite {a : Address} {entry : Entry χ} (h : b.hooks a = some entry)
    (phase : Phase) (cs : List χ) :
    (b.rewrite a entry phase cs).shelf = b.shelf.put a phase cs := by
  rw [shelf_update rfl, Shelf.put, lists_shelf h]
  rfl

theorem Book.shelf_install {a : Address} (h : b.hooks a = none) (record : Record) (phase : Phase)
    (c : χ) : (b.install a record phase c).shelf =
      b.shelf.put a phase (b.shelf.lists a phase ++ [c]) := by
  rw [shelf_update rfl, Shelf.put, Shelf.lists, shelf_eq h]
  rfl

theorem Book.shelf_drop (a : Address) : (b.drop a).shelf = Function.update b.shelf a none := by
  rw [shelf_update rfl]
  rfl

variable [DecidableEq χ] {view : Error → Error} {outcome : Address → Except Error Unit}

/-- A step of the book is one of its shelf, if an installation that was asked for has had the
    outcome that it should. -/
theorem Book.Step.shelf {change : Change χ} {answer : Answer} (h : b.Step change.op answer b')
    (houtcome : ∀ result, answer = .added result → change.address ≠ .null →
      b.hooks change.address = none → result.mapError view = outcome change.address) :
    b.shelf.perform view outcome change = (answer.seen view, b'.shelf) := by
  cases change with
  | add f phase c =>
    cases h with
    | addNull _ _ _ hf =>
      rw [Shelf.perform, if_pos (Address.isNull_iff.2 hf)]
      rfl
    | addMore _ _ _ entry hf hb =>
      rw [Shelf.perform, if_neg (fun h => hf (Address.isNull_iff.1 h)), shelf_eq hb,
        shelf_rewrite hb, lists_shelf hb]
      rfl
    | addFirst _ _ _ record hf hb hnew =>
      have hok : outcome f.address = .ok () := (houtcome _ rfl hf hb).symm
      rw [Shelf.perform, if_neg (fun h => hf (Address.isNull_iff.1 h)), shelf_eq hb, hok,
        shelf_install hb]
      rfl
    | addRefused _ _ _ e hf hb =>
      have hfails : outcome f.address = .error (view e) := (houtcome _ rfl hf hb).symm
      rw [Shelf.perform, if_neg (fun h => hf (Address.isNull_iff.1 h)), shelf_eq hb, hfails]
      rfl
  | remove f phase c =>
    cases h with
    | removeNone _ _ _ hb =>
      rw [Shelf.perform, shelf_eq hb]
      rfl
    | remove _ _ _ entry hb =>
      rw [Shelf.perform, shelf_eq hb, shelf_rewrite hb, lists_shelf hb]
      rfl
  | uninstall f =>
    cases h with
    | uninstallNone _ hb =>
      rw [Shelf.perform, shelf_eq hb, Function.update_eq_self_iff.2 (shelf_eq hb).symm]
      rfl
    | uninstall _ entry hb =>
      rw [Shelf.perform, shelf_eq hb, shelf_drop]
      rfl

end

/-! ### The shelf of a registry -/

namespace Registry
variable {χ ε : Type} {E : Engine ε}

/-- What a registry shows when hooks are not told apart by their identities. -/
def shelf (E : Engine ε) (r : Registry χ ε) : Shelf χ :=
  fun a => (E.find r.engine a).map fun record => r.table.snapshot record.id

variable [DecidableEq χ] {Sound : ε → Prop} {view : Error → Error}
  {outcome : Address → Except Error Unit}

/-- An addition to an address without a hook answers what the installation has come to. -/
theorem added_of_unhooked {r : Registry χ ε} {f : Function} (hf : f.address ≠ .null)
    (hfind : r.find E f = none) (phase : Phase) (c : χ) :
    (r.perform E (.add f phase c)).1 =
      .added ((E.install f ⟨r.nextId⟩ r.engine).1.map fun _ => ()) := by
  have hnull : ¬ f.address.isNull = true := fun h => hf (Address.isNull_iff.1 h)
  simp only [perform, addCallback, if_neg hnull, secure, hfind]
  cases (E.install f ⟨r.nextId⟩ r.engine).1 <;> rfl

/-- A change of a registry is one of its shelf. -/
theorem perform_shelf {r : Registry χ (ε × List Address)} {b : Book χ}
    (h : Follows E Sound r b) (hE : E.Contract Sound) (hsteady : E.Steady Sound view outcome)
    (change : Change χ) : ∃ b', Follows E Sound (r.perform E.observed change.op).2 b' ∧
      b.shelf.perform view outcome change =
        ((r.perform E.observed change.op).1.seen view, b'.shelf) := by
  obtain ⟨b', hstep, hfollows⟩ := perform_follows h hE change.op
  refine ⟨b', hfollows, hstep.shelf fun result hanswer hnull hhook => ?_⟩
  have hfind : E.find r.engine.1 change.address = none := by
    simpa [h.hooks] using hhook
  cases change with
  | add f phase c =>
    have hadded := added_of_unhooked (E := E.observed) hnull hfind phase c
    rw [show (Change.add f phase c).op = .add f phase c from rfl, hadded] at hanswer
    cases hanswer
    exact hsteady _ f _ h.sound hfind
  | remove f phase c =>
    cases hanswer
  | uninstall f =>
    cases hanswer

/-- Changes of a registry are those of its shelf. -/
theorem performAll_follows_shelf {r : Registry χ (ε × List Address)} {b : Book χ}
    (h : Follows E Sound r b) (hE : E.Contract Sound) (hsteady : E.Steady Sound view outcome)
    (changes : List (Change χ)) :
    let serial := r.performAll E.observed (changes.map Change.op)
    ∃ b', Follows E Sound serial.2 b' ∧ b.shelf.performAll view outcome changes =
      (serial.1.map (Answer.seen view), b'.shelf) := by
  induction changes generalizing r b with
  | nil => exact ⟨b, h, rfl⟩
  | cons change changes ih =>
    obtain ⟨b₁, h₁, hhead⟩ := perform_shelf h hE hsteady change
    obtain ⟨b₂, h₂, htail⟩ := ih h₁
    refine ⟨b₂, h₂, ?_⟩
    rw [Shelf.performAll, hhead, htail]
    rfl

/-- The answers of any changes of a new registry, and the shelf after them, are told without the
    engine. -/
theorem performAll_shelf (hE : E.Contract Sound) (hsteady : E.Steady Sound view outcome)
    {engine : ε} (hs : Sound engine) (hempty : ∀ a, E.find engine a = none)
    (changes : List (Change χ)) :
    let serial := (start engine).performAll E (changes.map Change.op)
    Shelf.performAll view outcome changes .empty =
      (serial.1.map (Answer.seen view), serial.2.shelf E) := by
  intro serial
  obtain ⟨b, hfollows, hshelf⟩ :=
    performAll_follows_shelf (follows_start hs hempty) hE hsteady changes
  have hserial : serial = _ :=
    performAll_observed E (changes.map Change.op) (start (engine, []))
  have hbook : b.shelf = serial.2.shelf E := by
    funext a
    rw [hserial, Book.shelf, hfollows.hooks, Option.map_map]
    rfl
  rw [← hbook, hserial]
  exact hshelf

end Registry

end NativeGate.Hook
