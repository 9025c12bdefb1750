import NativeGate.Proofs.Data.Omission
import NativeGate.Proofs.Toml.Draft
import NativeGate.Proofs.Toml.Lines

/-!
Documents read back (`read_print`). The statements that a table is written with are given first with
the path of every header counted from the table itself (`script`), and in the text with the path of
the table in front (`Regular.written`). Carried out in a document they set up the table as an entry
behind those that are there (`Regular.rebuilds`), level by level. Null entries are not written, so
they are missing from what is read.
-/

namespace NativeGate.Toml
open Data

/-! ### Statements of a table -/

/-- The statements of the entries with lines of their own. -/
def leafScript (entries : List (String × Tree)) : List Statement :=
  entries.filterMap fun e => (scalarForm? e.2).map fun _ => .entry [e.1] e.2

/-- The statements of a table itself as an entry of another table: a header, if it needs one, and
    its entries with lines of their own. -/
def heading (name : String) (entries : List (String × Tree)) : List Statement :=
  if (leafScript entries).isEmpty && !(entries.all fun e => e.2.isNull) then []
  else .header [name] :: leafScript entries

mutual

/-- The statements that a table is written with, as an entry of another table. -/
def script (name : String) : Tree → List Statement
  | .table entries => heading name entries ++ (scripts entries).map (.under [name])
  | _ => []

def scripts : List (String × Tree) → List Statement
  | [] => []
  | (name, t) :: rest => script name t ++ scripts rest

end

/-- Entries that are null or have lines of their own. -/
def Leaves (es : List (String × Tree)) : Prop := ∀ e ∈ es, e.2 = .null ∨ Leaf e.2

/-- A table with less than `n` levels of tables in it, that has leaves before the tables, and no name
    twice. -/
inductive Regular : Nat → Tree → Prop
  | table {n : Nat} {leaves branches : List (String × Tree)} (hleaves : Leaves leaves)
      (hbranches : ∀ e ∈ branches, Regular n e.2)
      (hdistinct : ((leaves ++ branches).map (·.1)).Nodup) :
      Regular (n + 1) (.table (leaves ++ branches))

/-! ### Leaves -/

/-- What the entries with lines of their own are in a table under construction. -/
def leafEntries (entries : List (String × Tree)) : Entries :=
  entries.filterMap fun e => (scalarForm? e.2).map fun _ => (e.1, .value e.2)

theorem Leaf.exists_form {t : Tree} (h : Leaf t) : ∃ form, scalarForm? t = some form := by
  cases h <;> exact ⟨_, rfl⟩

theorem leafScript_leaf (name : String) {t : Tree} (h : Leaf t) (rest : List (String × Tree)) :
    leafScript ((name, t) :: rest) = .entry [name] t :: leafScript rest ∧
      leafEntries ((name, t) :: rest) = (name, .value t) :: leafEntries rest := by
  obtain ⟨form, hform⟩ := h.exists_form
  simp [leafScript, leafEntries, hform]

/-- A name that is no leaf's is not among them. -/
theorem lookup_leafEntries {leaves : List (String × Tree)} {name : String}
    (h : name ∉ leaves.map (·.1)) : (leafEntries leaves).lookup name = none := by
  rw [List.lookup_eq_none_iff]
  intro e he
  obtain ⟨leaf, hleaf, hform⟩ := List.mem_filterMap.1 he
  obtain ⟨form, -, rfl⟩ := Option.map_eq_some_iff.1 hform
  rw [bne_iff_ne]
  rintro rfl
  exact h (List.mem_map.2 ⟨leaf, hleaf, rfl⟩)

/-- The names of leaves and of the tables behind them are all different. -/
theorem leafEntries_apart {leaves branches : List (String × Tree)}
    (hdistinct : ((leaves ++ branches).map (·.1)).Nodup) :
    (leaves.map (·.1)).Nodup ∧ (branches.map (·.1)).Nodup ∧
      ∀ e ∈ branches, (leafEntries leaves).lookup e.1 = none := by
  rw [List.map_append, List.nodup_append] at hdistinct
  obtain ⟨hleaves, hbranches, hapart⟩ := hdistinct
  refine ⟨hleaves, hbranches, fun e he => lookup_leafEntries fun hmem => ?_⟩
  exact hapart _ hmem _ (List.mem_map.2 ⟨e, he, rfl⟩) rfl

/-- Names that are new stay so when another name comes in. -/
theorem new_concat {name : String} {rest : List (String × Tree)} (hname : name ∉ rest.map (·.1))
    {es : Entries} (hnew : ∀ e ∈ rest, es.lookup e.1 = none) (n : Node) :
    ∀ e ∈ rest, (es ++ [(name, n)]).lookup e.1 = none := by
  intro e he
  have hne : e.1 ≠ name := fun h => hname (List.mem_map.2 ⟨e, he, h⟩)
  rw [List.lookup_append, hnew e he, Dict.lookup_cons_eq, if_neg hne]
  rfl

theorem leafEntries_eq_nil {es : List (String × Tree)} (h : leafScript es = []) :
    leafEntries es = [] := by
  simpa [leafScript, leafEntries] using h

section
variable {leaves : List (String × Tree)} (hleaves : Leaves leaves)
include hleaves

/-- Entries that are read one after the other stand behind those that were there. -/
theorem foldlM_leafScript (hdistinct : (leaves.map (·.1)).Nodup) (es : Entries)
    (hnew : ∀ e ∈ leaves, es.lookup e.1 = none) (root : Entries) (header : Option Statement) :
    (leafScript leaves).foldlM Draft.step ⟨root, header, es⟩ =
      some ⟨root, header, es ++ leafEntries leaves⟩ := by
  induction leaves generalizing es with
  | nil => exact congrArg (fun es => some (Draft.mk root header es)) (List.append_nil es).symm
  | cons e leaves ih =>
    obtain ⟨name, t⟩ := e
    have hrest : Leaves leaves := fun e he => hleaves e (List.mem_cons_of_mem _ he)
    rw [List.map_cons, List.nodup_cons] at hdistinct
    rcases hleaves _ List.mem_cons_self with hnull | hleaf
    · cases hnull
      exact ih hrest hdistinct.2 es fun e he => hnew e (List.mem_cons_of_mem _ he)
    · have hname : es.lookup name = none := hnew _ List.mem_cons_self
      have hstep : Draft.step ⟨root, header, es⟩ (.entry [name] t) =
          some ⟨root, header, es ++ [(name, .value t)]⟩ := by
        simp [Draft.step, assign, splitKey, descend, hname, put_of_lookup_eq_none hname]
      obtain ⟨hscript, hentries⟩ := leafScript_leaf name hleaf leaves
      rw [hscript, hentries, List.foldlM_cons, hstep]
      have hnew' := new_concat hdistinct.1 (fun e he => hnew e (List.mem_cons_of_mem _ he))
        (.value t)
      refine (ih hrest hdistinct.2 _ hnew').trans ?_
      rw [List.append_assoc, List.singleton_append]

/-- The leaves that are not null are kept. -/
theorem kept_leafEntries : Kept Omits leaves (treeEntries (leafEntries leaves)) := by
  induction leaves with
  | nil => exact .nil
  | cons e leaves ih =>
    obtain ⟨name, t⟩ := e
    have hkept := ih fun e he => hleaves e (List.mem_cons_of_mem _ he)
    rcases hleaves _ List.mem_cons_self with hnull | hleaf
    · cases hnull
      exact .omitted hkept
    · rw [(leafScript_leaf name hleaf leaves).2]
      exact .entry (.same t) hkept

end

/-! ### Tables -/

theorem Regular.exists_table {n : Nat} {t : Tree} (h : Regular n t) : ∃ es, t = .table es := by
  cases h
  exact ⟨_, rfl⟩

section
variable {leaves branches : List (String × Tree)}

theorem scripts_append (hleaves : Leaves leaves) :
    scripts (leaves ++ branches) = scripts branches := by
  induction leaves with
  | nil => rfl
  | cons e leaves ih =>
    obtain ⟨name, t⟩ := e
    have hnothing : script name t = [] := by
      rcases hleaves _ List.mem_cons_self with hnull | hleaf
      · cases hnull
        rfl
      · cases hleaf <;> rfl
    rw [List.cons_append, scripts, hnothing, List.nil_append,
      ih fun e he => hleaves e (List.mem_cons_of_mem _ he)]

theorem leafScript_append {n : Nat} (hbranches : ∀ e ∈ branches, Regular n e.2) :
    leafScript (leaves ++ branches) = leafScript leaves := by
  have hnone : leafScript branches = [] := by
    refine List.filterMap_eq_nil_iff.2 fun e he => ?_
    obtain ⟨es, hes⟩ := (hbranches e he).exists_table
    rw [hes]
    rfl
  rw [leafScript, List.filterMap_append]
  exact (congrArg _ hnone).trans (List.append_nil _)

end

/-- A heading begins with a header, if it is not empty. -/
theorem headed_heading (name : String) (es : List (String × Tree)) : Headed (heading name es) := by
  unfold heading
  split
  · exact headed_nil
  · refine ⟨List.forall_mem_cons.2 ⟨.header (by simp), fun s hs => ?_⟩, ?_⟩
    · obtain ⟨e, -, he⟩ := List.mem_filterMap.1 hs
      obtain ⟨form, -, rfl⟩ := Option.map_eq_some_iff.1 he
      exact .entry e.1 e.2
    · rintro _ ⟨⟩
      exact ⟨_, rfl⟩

mutual

theorem headed_script (name : String) : (t : Tree) → Headed (script name t)
  | .table es => (headed_heading name es).append ((headed_scripts es).under [name])
  | .null | .boolean _ | .integer _ | .float _ | .text _ | .time _ | .list _ => headed_nil

theorem headed_scripts : (es : List (String × Tree)) → Headed (scripts es)
  | [] => headed_nil
  | (name, t) :: rest => (headed_script name t).append (headed_scripts rest)

end

theorem treeEntries_append (es es' : Entries) :
    treeEntries (es ++ es') = treeEntries es ++ treeEntries es' := by
  induction es with
  | nil => rfl
  | cons e es ih => rw [List.cons_append, treeEntries, treeEntries, ih, List.cons_append]

/-- A table that is written writes something. -/
theorem Regular.script_ne_nil {n : Nat} {t : Tree} (h : Regular n t) (name : String) :
    script name t ≠ [] := by
  induction h generalizing name with
  | @table n leaves branches hleaves hbranches hdistinct ih =>
    rw [script, scripts_append hleaves, heading]
    split
    · -- nothing but null and tables, and not null alone: a table is there
      rename_i hbare
      obtain ⟨hleafless, hnulls⟩ := Bool.and_eq_true_iff.1 hbare
      cases branches with
      | nil =>
        rw [List.append_nil] at hleafless hnulls
        have hall : leaves.all (fun e => e.2.isNull) = true := by
          refine List.all_eq_true.2 fun e he => ?_
          rcases hleaves e he with hnull | hleaf
          · rw [hnull]
            rfl
          · obtain ⟨form, hform⟩ := hleaf.exists_form
            have hnone := List.filterMap_eq_nil_iff.1 (List.isEmpty_iff.1 hleafless) e he
            rw [hform] at hnone
            cases hnone
        rw [hall] at hnulls
        cases hnulls
      | cons e branches => simp [scripts, ih e List.mem_cons_self e.1]
    · simp

/-- Statements that set up tables behind the entries that are there. -/
def Rebuilds (branches : List (String × Tree)) : Prop :=
  ∀ es : Entries, (∀ e ∈ branches, es.lookup e.1 = none) →
    ∃ nodes, run (scripts branches) es = some (es ++ nodes) ∧
      Kept Omits branches (treeEntries nodes)

/-- A header opens a table that was not there, and the entries after it are those of the table. -/
theorem run_header {leaves : List (String × Tree)} (hleaves : Leaves leaves)
    (hdistinct : (leaves.map (·.1)).Nodup) {name : String} {es : Entries}
    (hname : es.lookup name = none) :
    run (.header [name] :: leafScript leaves) es =
      some (put name (.table .stated (leafEntries leaves)) es) := by
  have hstep : Draft.step ⟨[], none, es⟩ (.header [name]) =
      some ⟨es, some (.header [name]), []⟩ := by
    simp [Draft.step, Draft.closeTable, Draft.openTable, splitKey, descend, hname]
  have hread := foldlM_leafScript hleaves hdistinct [] (fun _ _ => rfl) es
    (some (.header [name]))
  rw [run, List.foldlM_cons, hstep]
  exact congrArg (Option.bind · Draft.closeTable) hread

theorem run_script {n : Nat} {leaves branches : List (String × Tree)}
    (h : Regular (n + 1) (.table (leaves ++ branches))) (hleaves : Leaves leaves)
    (hbranches : ∀ e ∈ branches, Regular n e.2)
    (hdistinct : ((leaves ++ branches).map (·.1)).Nodup) (hrebuilds : Rebuilds branches)
    {name : String} {es : Entries} (hname : es.lookup name = none) :
    ∃ node, run (script name (.table (leaves ++ branches))) es = some (es ++ [(name, node)]) ∧
      Omits (.table (leaves ++ branches)) node.tree := by
  obtain ⟨hleafNames, -, hapart⟩ := leafEntries_apart hdistinct
  obtain ⟨nodes, hnodes, hkept⟩ := hrebuilds (leafEntries leaves) hapart
  have homits : ∀ origin : Origin, Omits (.table (leaves ++ branches))
      (Node.table origin (leafEntries leaves ++ nodes)).tree := by
    intro origin
    rw [Node.tree, treeEntries_append]
    exact .table ((kept_leafEntries hleaves).append hkept)
  have hne := h.script_ne_nil name
  rw [script, scripts_append hleaves] at hne ⊢
  rw [run_append _ ((headed_scripts branches).under [name])]
  unfold heading at hne ⊢
  rw [leafScript_append hbranches] at hne ⊢
  split at hne
  · -- without a header the tables in it imply the table
    rename_i hbare
    have hleafless := leafEntries_eq_nil (List.isEmpty_iff.1 (Bool.and_eq_true_iff.1 hbare).1)
    have hadmits : Admits es name .implied (leafEntries leaves) := .inr ⟨hname, rfl, hleafless⟩
    refine ⟨.table .implied (leafEntries leaves ++ nodes), ?_, homits .implied⟩
    rw [if_pos hbare]
    show run ((scripts branches).map (.under [name])) es = _
    rw [run_within (headed_scripts branches) hadmits, hnodes, Option.map_some,
      put_of_lookup_eq_none hname]
    intro hnothing
    rw [hnothing] at hne
    exact absurd rfl hne
  · rename_i hheader
    refine ⟨.table .stated (leafEntries leaves ++ nodes), ?_, homits .stated⟩
    rw [if_neg hheader, run_header hleaves hleafNames hname, Option.bind_some,
      run_within (headed_scripts branches) (.inl (lookup_put _ _ _)) fun _ => lookup_put _ _ _,
      hnodes, Option.map_some, put_put, put_of_lookup_eq_none hname]

/-- Tables are set up one after the other. -/
theorem Regular.rebuilds {n : Nat} {branches : List (String × Tree)}
    (hbranches : ∀ e ∈ branches, Regular n e.2) (hdistinct : (branches.map (·.1)).Nodup) :
    Rebuilds branches := by
  induction n generalizing branches with
  | zero =>
    cases branches with
    | nil => exact fun es _ => ⟨[], congrArg some (List.append_nil es).symm, .nil⟩
    | cons e _ => nomatch hbranches e List.mem_cons_self
  | succ n ih =>
    induction branches with
    | nil => exact fun es _ => ⟨[], congrArg some (List.append_nil es).symm, .nil⟩
    | cons e branches ihRest =>
      obtain ⟨name, t⟩ := e
      intro es hnew
      rw [List.map_cons, List.nodup_cons] at hdistinct
      have hfirst : Regular (n + 1) t := hbranches _ List.mem_cons_self
      obtain ⟨node, hnode, homits⟩ : ∃ node,
          run (script name t) es = some (es ++ [(name, node)]) ∧ Omits t node.tree := by
        cases hfirst with
        | table hleaves hinner hnames =>
          exact run_script (.table hleaves hinner hnames) hleaves hinner hnames
            (ih hinner (leafEntries_apart hnames).2.1) (hnew _ List.mem_cons_self)
      have hnew' := new_concat hdistinct.1 (fun e he => hnew e (List.mem_cons_of_mem _ he)) node
      obtain ⟨nodes, hnodes, hkept⟩ :=
        ihRest (fun e he => hbranches e (List.mem_cons_of_mem _ he)) hdistinct.2 _ hnew'
      refine ⟨(name, node) :: nodes, ?_, .entry homits hkept⟩
      rw [scripts, run_append _ (headed_scripts branches), hnode, Option.bind_some, hnodes,
        List.append_assoc, List.singleton_append]

/-! ### Blocks -/

section
variable {es : List (String × Tree)}
  (hes : ∀ e ∈ es, ∀ form, scalarForm? e.2 = some form → Leaf e.2)
include hes

theorem written_lines : Written [lines es] (leafScript es) := by
  induction es with
  | nil => exact .close .nil
  | cons e es ih =>
    have hrest := ih fun e he => hes e (List.mem_cons_of_mem _ he)
    cases hform : scalarForm? e.2 with
    | none => simpa [lines, leafScript, hform] using hrest
    | some form =>
      have hleaf := hes e List.mem_cons_self form hform
      simpa [lines, leafScript, hform] using Written.line (line_entry e.1 hleaf hform) hrest

theorem written_block (path : List String) (name : String) (hshort : path.length + 1 < depthLimit) :
    Written [block (path ++ [name]) es] ((heading name es).map (.under path)) := by
  have hlines := written_lines hes
  have hunder : (leafScript es).map (.under path) = leafScript es := by
    rw [leafScript, List.map_filterMap]
    refine congrArg (List.filterMap · es) (funext fun e => ?_)
    cases scalarForm? e.2 <;> rfl
  have hempty : (lines es).isEmpty = (leafScript es).isEmpty := by
    rw [Bool.eq_iff_iff]
    simp [lines, leafScript]
  have hpath : (path ++ [name]).isEmpty = false := by simp
  rw [block, heading, hempty, hpath]
  simp only [Bool.false_or]
  split
  · rename_i hbare
    rwa [List.isEmpty_iff.1 (Bool.and_eq_true_iff.1 hbare).1] at hlines
  · rw [List.map_cons, hunder]
    exact .line (line_header (by simp) (by simpa using hshort)) hlines

end

theorem form_leaf {n : Nat} {leaves branches : List (String × Tree)}
    (hleaves : Leaves leaves) (hbranches : ∀ e ∈ branches, Regular n e.2) :
    ∀ e ∈ leaves ++ branches, ∀ form, scalarForm? e.2 = some form → Leaf e.2 := by
  intro e he form hform
  rcases List.mem_append.1 he with he | he
  · rcases hleaves e he with hnull | hleaf
    · rw [hnull] at hform
      cases hform
    · exact hleaf
  · obtain ⟨es, hes⟩ := (hbranches e he).exists_table
    rw [hes] at hform
    cases hform

/-- Tables are written one after the other, and leaves in no blocks of their own. -/
theorem written_branches (path : List String) {leaves branches : List (String × Tree)}
    (hleaves : Leaves leaves)
    (hbranches : ∀ e ∈ branches,
      Written (blocks (path ++ [e.1]) e.2) ((script e.1 e.2).map (.under path))) :
    Written (innerBlocks path (leaves ++ branches)) ((scripts branches).map (.under path)) := by
  induction leaves with
  | nil =>
    induction branches with
    | nil => exact .nil
    | cons e branches ih =>
      rw [List.nil_append, innerBlocks, scripts, List.map_append]
      exact (hbranches e List.mem_cons_self).append
        (ih fun e he => hbranches e (List.mem_cons_of_mem _ he))
  | cons e leaves ih =>
    obtain ⟨name, t⟩ := e
    have hnothing : blocks (path ++ [name]) t = [] := by
      rcases hleaves _ List.mem_cons_self with hnull | hleaf
      · cases hnull
        rfl
      · cases hleaf <;> rfl
    rw [List.cons_append, innerBlocks, hnothing, List.nil_append]
    exact ih fun e he => hleaves e (List.mem_cons_of_mem _ he)

theorem Regular.written {n : Nat} {t : Tree} (h : Regular n t) {path : List String}
    (hshort : path.length + n < depthLimit) (name : String) :
    Written (blocks (path ++ [name]) t) ((script name t).map (.under path)) := by
  induction h generalizing path name with
  | @table n leaves branches hleaves hbranches hdistinct ih =>
    have hinner : Written (innerBlocks (path ++ [name]) (leaves ++ branches))
        ((scripts branches).map (.under (path ++ [name]))) := by
      refine written_branches _ hleaves fun e he => ih e he ?_ e.1
      rw [List.length_append]
      simpa [Nat.add_assoc, Nat.add_comm 1] using hshort
    have hunder : (Statement.under path) ∘ (.under [name]) = Statement.under (path ++ [name]) := by
      funext s
      cases s <;> simp [Statement.under]
    rw [script, scripts_append hleaves, List.map_append, List.map_map, hunder]
    exact (written_block (form_leaf hleaves hbranches) path name (by omega)).append hinner

/-- What is written of a table is read back, except that null entries are left out. -/
theorem read_print {n : Nat} {t : Tree} (h : Regular n t) (hshort : n ≤ depthLimit) :
    ∃ t', read (print t) = some t' ∧ Omits t t' := by
  cases h with
  | @table n leaves branches hleaves hbranches hdistinct =>
    have hlines := written_lines (form_leaf hleaves hbranches)
    rw [leafScript_append hbranches] at hlines
    have hinner : Written (innerBlocks [] (leaves ++ branches)) (scripts branches) := by
      have hunder : Statement.under [] = id := by
        funext s
        cases s <;> rfl
      have hwritten := written_branches [] hleaves fun e he =>
        (hbranches e he).written (by rw [List.length_nil, Nat.zero_add]; exact hshort) e.1
      rwa [hunder, List.map_id] at hwritten
    have hwritten := hlines.append hinner
    obtain ⟨hleafNames, hnames, hapart⟩ := leafEntries_apart hdistinct
    have hread := foldlM_leafScript hleaves hleafNames [] (fun _ _ => rfl) [] none
    obtain ⟨nodes, hnodes, hkept⟩ := Regular.rebuilds hbranches hnames (leafEntries leaves) hapart
    have hrun : run (leafScript leaves ++ scripts branches) [] =
        some (leafEntries leaves ++ nodes) := by
      rw [run_append _ (headed_scripts branches), ← hnodes]
      exact congrArg (fun d => Option.bind (Option.bind d Draft.closeTable) _) hread
    refine ⟨.table (treeEntries (leafEntries leaves ++ nodes)), ?_, .table ?_⟩
    · exact hwritten.read.trans (congrArg (Option.map _) hrun)
    · rw [treeEntries_append]
      exact (kept_leafEntries hleaves).append hkept

end NativeGate.Toml
