import NativeGate.Toml.Document

/-!
Documents under construction. Statements take one table to another (`run`). A header closes whatever
is open, so tables are set up one after the other (`run_append`), and statements whose headers all
begin with one name change no more than the entry of the name (`run_within`), as if the table under
it were a document of its own.
-/

namespace NativeGate.Toml
open Data

/-! ### Entries -/

section
variable {name : String} {n m : Node} {es : Entries}

theorem lookup_put (name : String) (n : Node) (es : Entries) :
    (put name n es).lookup name = some n := by
  induction es with
  | nil => simp [put]
  | cons e es ih =>
    rw [put]
    split
    · simp
    · rename_i hname
      rw [Dict.lookup_cons_eq, if_neg (Ne.symm hname), ih]

theorem put_put (name : String) (n m : Node) (es : Entries) :
    put name n (put name m es) = put name n es := by
  induction es with
  | nil => simp [put]
  | cons e es ih =>
    by_cases hname : e.1 = name
    · simp [put, hname]
    · simp [put, hname, ih]

theorem put_of_lookup (h : es.lookup name = some n) : put name n es = es := by
  induction es with
  | nil => cases h
  | cons e es ih =>
    rw [Dict.lookup_cons_eq] at h
    split at h
    · rename_i hname
      cases h
      rw [put, if_pos hname.symm, hname]
    · rename_i hname
      rw [put, if_neg (Ne.symm hname), ih h]

theorem put_of_lookup_eq_none (h : es.lookup name = none) : put name n es = es ++ [(name, n)] := by
  induction es with
  | nil => rfl
  | cons e es ih =>
    rw [Dict.lookup_cons_eq] at h
    split at h
    · cases h
    · rename_i hname
      rw [put, if_neg (Ne.symm hname), ih h, List.cons_append]

end

/-! ### Tables in tables -/

/-- A statement with another path in front of that of a header. -/
def Statement.under (path : List String) : Statement → Statement
  | .header key => .header (path ++ key)
  | s => s

/-- A statement of a document without repeated headers and dotted keys. -/
inductive Statement.Simple : Statement → Prop
  | entry (name : String) (t : Tree) : Simple (.entry [name] t)
  | header {key : List String} (hne : key ≠ []) : Simple (.header key)

/-- The table that statements make of one with some entries. -/
def run (ss : List Statement) (es : Entries) : Option Entries :=
  (ss.foldlM Draft.step ⟨[], none, es⟩).bind Draft.closeTable

/-- The entries have a table of the name, or could have it without its being stated. -/
def Admits (es : Entries) (name : String) (origin : Origin) (inner : Entries) : Prop :=
  es.lookup name = some (.table origin inner) ∨
    (es.lookup name = none ∧ origin = .implied ∧ inner = [])

theorem splitKey_cons (name : String) {key : List String} (hne : key ≠ []) :
    splitKey (name :: key) = (name :: (splitKey key).1, (splitKey key).2) := by
  cases key with
  | nil => exact absurd rfl hne
  | cons part rest => rfl

section
variable {α : Type} {change : Origin → Entries → Option (Entries × α)}
  (hchange : ∀ o o' es, change o es = change o' es)
include hchange

theorem descend_origin (path : List String) (o o' : Origin) (es : Entries) :
    descend false change path o es = descend false change path o' es := by
  cases path with
  | nil => exact hchange o o' es
  | cons => rfl

/-- A path through a table of the entries changes that table only. -/
theorem descend_within {es : Entries} {name : String} {origin : Origin} {inner : Entries}
    (h : Admits es name origin inner) (path : List String) :
    descend false change (name :: path) .stated es =
      (descend false change path .stated inner).map fun r =>
        (put name (.table origin r.1) es, r.2) := by
  rcases h with h | ⟨h, rfl, rfl⟩
  · rw [descend, h]
    simp only [Bool.false_eq_true, false_and, if_false]
    rw [descend_origin hchange path origin .stated]
  · rw [descend, h]
    simp only [Bool.false_eq_true, if_false]
    rw [descend_origin hchange path .implied .stated]

end

/-- A document of which a table is under construction, as a part of another document. -/
def Draft.within (name : String) (origin : Origin) (es : Entries) (d : Draft) : Draft :=
  ⟨put name (.table origin d.root) es, d.header.map (.under [name]), d.entries⟩

section
variable {name : String} {origin : Origin} {es : Entries}

theorem Draft.closeTable_within {d : Draft} {key : List String}
    (hheader : d.header = some (.header key)) (hne : key ≠ []) :
    (d.within name origin es).closeTable =
      d.closeTable.map fun inner => put name (.table origin inner) es := by
  obtain ⟨root, header, entries⟩ := d
  cases hheader
  have hadmits : Admits (put name (.table origin root) es) name origin root :=
    .inl (lookup_put _ _ _)
  simp only [closeTable, within, Option.map_some, Statement.under, List.singleton_append,
    splitKey_cons name hne]
  rw [descend_within (fun _ _ _ => rfl) hadmits, Option.map_map, Option.map_map]
  refine congrArg (Option.map · _) (funext fun r => ?_)
  exact put_put _ _ _ _

/-- Opening the table of a header in a table of the entries opens it in the document. -/
theorem Draft.openTable_within {key : List String} (hne : key ≠ []) {inner : Entries}
    (h : Admits es name origin inner) :
    openTable (name :: key) es = (openTable key inner).map (within name origin es) := by
  unfold openTable
  simp only [splitKey_cons name hne]
  rw [descend_within (fun _ _ _ => rfl) h, Option.map_map, Option.map_map]
  rfl

theorem Draft.step_within {d : Draft} {key : List String} (hheader : d.header = some (.header key))
    (hne : key ≠ []) {s : Statement} (hs : s.Simple) :
    (d.within name origin es).step (s.under [name]) = (d.step s).map (within name origin es) := by
  cases hs with
  | entry field t =>
    simp only [Statement.under, step, within, Option.map_map]
    rfl
  | header hkey =>
    simp only [Statement.under, step, List.singleton_append]
    rw [closeTable_within hheader hne]
    cases d.closeTable with
    | none => rfl
    | some inner =>
      simp only [Option.map_some, Option.bind_some]
      rw [openTable_within hkey (.inl (lookup_put _ _ _))]
      refine congrArg (Option.map · _) (funext fun d => ?_)
      simp only [within, put_put]

/-- A step leaves a header behind if there was one or the statement is one. -/
theorem Draft.header_of_step {d d' : Draft} {key : List String}
    (hheader : d.header = some (.header key)) (hne : key ≠ []) {s : Statement} (hs : s.Simple)
    (h : d.step s = some d') : ∃ key, d'.header = some (.header key) ∧ key ≠ [] := by
  cases hs with
  | entry field t =>
    obtain ⟨entries, -, rfl⟩ := Option.map_eq_some_iff.1 h
    exact ⟨key, hheader, hne⟩
  | @header key hkey =>
    obtain ⟨inner, -, hopen⟩ := Option.bind_eq_some_iff.1 h
    obtain ⟨r, -, rfl⟩ := Option.map_eq_some_iff.1 hopen
    exact ⟨key, rfl, hkey⟩

theorem Draft.foldlM_within {ss : List Statement} (hss : ∀ s ∈ ss, s.Simple) {d : Draft}
    {key : List String} (hheader : d.header = some (.header key)) (hne : key ≠ []) :
    ((ss.map (.under [name])).foldlM step (d.within name origin es)).bind closeTable =
      ((ss.foldlM step d).bind closeTable).map fun inner => put name (.table origin inner) es := by
  induction ss generalizing d key with
  | nil => exact closeTable_within hheader hne
  | cons s ss ih =>
    have hs := hss s List.mem_cons_self
    rw [List.map_cons, List.foldlM_cons, List.foldlM_cons, step_within hheader hne hs]
    cases hstep : d.step s with
    | none => rfl
    | some d' =>
      obtain ⟨key', hheader', hne'⟩ := header_of_step hheader hne hs hstep
      exact ih (fun s hs => hss s (List.mem_cons_of_mem _ hs)) hheader' hne'

end

/-! ### One table after the other -/

/-- Statements of a document that begins with a header, if it is not empty. -/
structure Headed (ss : List Statement) : Prop where
  simple : ∀ s ∈ ss, s.Simple
  head : ∀ s ∈ ss.head?, ∃ key, s = .header key

theorem headed_nil : Headed [] := ⟨nofun, nofun⟩

theorem Headed.append {ss ss' : List Statement} (h : Headed ss) (h' : Headed ss') :
    Headed (ss ++ ss') := by
  refine ⟨fun s hs => (List.mem_append.1 hs).elim (h.simple s) (h'.simple s), ?_⟩
  cases ss with
  | nil => exact h'.head
  | cons => exact h.head

theorem Headed.under {ss : List Statement} (h : Headed ss) (path : List String) :
    Headed (ss.map (.under path)) := by
  constructor
  · intro s hs
    obtain ⟨s', hs', rfl⟩ := List.mem_map.1 hs
    cases h.simple s' hs' with
    | entry name t => exact .entry name t
    | header hne => exact .header (List.append_ne_nil_of_right_ne_nil path hne)
  · cases ss with
    | nil => exact nofun
    | cons s ss =>
      obtain ⟨key, rfl⟩ := h.head s rfl
      rintro _ ⟨⟩
      exact ⟨path ++ key, rfl⟩

/-- The statements of a document, written under a name in another one, make its table the entry of
    the name. -/
theorem run_within {ss : List Statement} (hss : Headed ss) {es inner : Entries} {name : String}
    {origin : Origin} (h : Admits es name origin inner)
    (hsome : ss = [] → es.lookup name = some (.table origin inner)) :
    run (ss.map (.under [name])) es =
      (run ss inner).map fun inner => put name (.table origin inner) es := by
  cases ss with
  | nil => exact congrArg some (put_of_lookup (hsome rfl)).symm
  | cons s tail =>
    obtain ⟨key, rfl⟩ := hss.head s rfl
    have hkey : key ≠ [] := by
      cases hss.simple _ List.mem_cons_self with
      | header hne => exact hne
    have hopen : Draft.step ⟨[], none, es⟩ (.header (name :: key)) =
        (Draft.step ⟨[], none, inner⟩ (.header key)).map (.within name origin es) :=
      Draft.openTable_within hkey h
    simp only [run, List.map_cons, Statement.under, List.singleton_append, List.foldlM_cons, hopen]
    cases hstep : Draft.step ⟨[], none, inner⟩ (.header key) with
    | none => rfl
    | some d =>
      obtain ⟨r, -, rfl⟩ := Option.map_eq_some_iff.1 hstep
      exact Draft.foldlM_within (fun s hs => hss.simple s (List.mem_cons_of_mem _ hs)) rfl hkey

/-- A header closes whatever is open. -/
theorem run_append (ss : List Statement) {ss' : List Statement} (h : Headed ss') (es : Entries) :
    run (ss ++ ss') es = (run ss es).bind (run ss') := by
  cases ss' with
  | nil =>
    rw [List.append_nil]
    cases run ss es <;> rfl
  | cons s tail =>
    obtain ⟨key, rfl⟩ := h.head s rfl
    simp only [run, List.foldlM_append]
    cases ss.foldlM Draft.step ⟨[], none, es⟩ with
    | none => rfl
    | some d =>
      show Option.bind ((.header key :: tail : List Statement).foldlM Draft.step d) _ =
        d.closeTable.bind fun es => run (.header key :: tail) es
      rw [List.foldlM_cons]
      cases hclose : d.closeTable with
      | none => simp [Draft.step, hclose]
      | some inner =>
        simp only [run, Draft.step, hclose, List.foldlM_cons]
        rfl

end NativeGate.Toml
