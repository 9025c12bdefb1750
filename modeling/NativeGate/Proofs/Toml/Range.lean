import NativeGate.Toml.Document
import NativeGate.Toml.Printer

/-!
The range of what is read. Every integer of a document has the 64 bits that the notation allows, so
the table of a document can be written again (`fits_of_read`).
-/

namespace NativeGate.Toml
open Data

/-! ### Trees -/

theorem itemsFit_iff (ts : List Tree) : itemsFit ts ↔ ∀ t ∈ ts, fits t := by
  induction ts with
  | nil => simp [itemsFit]
  | cons t ts ih => simp [itemsFit, ih]

theorem entriesFit_iff (es : List (String × Tree)) : entriesFit es ↔ ∀ e ∈ es, fits e.2 := by
  induction es with
  | nil => simp [entriesFit]
  | cons e es ih => simp [entriesFit, ih]

/-- Entries under construction that can be written. -/
def Fit (es : Entries) : Prop := ∀ e ∈ es, fits e.2.tree

theorem fits_table (origin : Origin) (es : Entries) :
    fits (Node.table origin es).tree ↔ Fit es := by
  show entriesFit (treeEntries es) ↔ Fit es
  induction es with
  | nil => simp [treeEntries, entriesFit, Fit]
  | cons e es ih => simp [treeEntries, entriesFit, ih, Fit]

theorem itemsFit_treesOnto (done : List Tree) (items : List Node) :
    itemsFit (treesOnto done items) ↔ itemsFit done ∧ ∀ n ∈ items, fits n.tree := by
  induction items generalizing done with
  | nil => simp [treesOnto]
  | cons n items ih =>
    rw [treesOnto, ih]
    simp [itemsFit, and_assoc, and_comm]

theorem fits_tables (items : List Node) :
    fits (Node.tables items).tree ↔ ∀ n ∈ items, fits n.tree :=
  (itemsFit_treesOnto [] items).trans (and_iff_right rfl)

/-! ### Tables under construction -/

theorem fit_nil : Fit [] := nofun

section
variable {n : Node} {es : Entries} (hes : Fit es)
include hes

theorem Fit.put (hn : fits n.tree) (name : String) : Fit (put name n es) := by
  induction es with
  | nil => exact List.forall_mem_singleton.2 hn
  | cons e es ih =>
    obtain ⟨he, hrest⟩ := List.forall_mem_cons.1 hes
    rw [Toml.put]
    split
    · exact List.forall_mem_cons.2 ⟨hn, hrest⟩
    · exact List.forall_mem_cons.2 ⟨he, ih hrest⟩

theorem Fit.remove (name : String) : Fit (remove name es) := fun e he =>
  hes e (List.mem_filter.1 he).1

theorem Fit.lookup {name : String} (h : es.lookup name = some n) : fits n.tree := by
  obtain ⟨before, after, rfl, -⟩ := List.lookup_eq_some_iff.1 h
  exact hes (name, n) (List.mem_append_right _ List.mem_cons_self)

end

theorem Fit.descend {α : Type} {P : α → Prop} {dotted : Bool}
    {change : Origin → Entries → Option (Entries × α)}
    (hchange : ∀ {o es r}, Fit es → change o es = some r → Fit r.1 ∧ P r.2)
    {path : List String} {o : Origin} {es : Entries} {r : Entries × α} (hes : Fit es)
    (h : descend dotted change path o es = some r) : Fit r.1 ∧ P r.2 := by
  induction path generalizing o es r with
  | nil => exact hchange hes h
  | cons name path ih =>
    rw [Toml.descend] at h
    split at h
    · obtain ⟨r', hr', rfl⟩ := Option.map_eq_some_iff.1 h
      obtain ⟨hinner, ha⟩ := ih fit_nil hr'
      exact ⟨hes.put ((fits_table _ _).2 hinner) name, ha⟩
    · cases h
    · rename_i origin inner hlookup
      have hnode := hes.lookup hlookup
      split at h
      · cases h
      · obtain ⟨r', hr', rfl⟩ := Option.map_eq_some_iff.1 h
        obtain ⟨hinner, ha⟩ := ih ((fits_table _ _).1 hnode) hr'
        exact ⟨hes.put ((fits_table _ _).2 hinner) name, ha⟩
    · rename_i origin inner earlier hlookup
      have hnodes := List.forall_mem_cons.1 ((fits_tables _).1 (hes.lookup hlookup))
      obtain ⟨r', hr', rfl⟩ := Option.map_eq_some_iff.1 h
      obtain ⟨hinner, ha⟩ := ih ((fits_table _ _).1 hnodes.1) hr'
      refine ⟨hes.put ((fits_tables _).2 ?_) name, ha⟩
      exact List.forall_mem_cons.2 ⟨(fits_table _ _).2 hinner, hnodes.2⟩
    · cases h

theorem Fit.assign {key : List String} {t : Tree} {o : Origin} {es es' : Entries} (hes : Fit es)
    (ht : fits t) (h : assign key t o es = some es') : Fit es' := by
  obtain ⟨r, hr, rfl⟩ := Option.map_eq_some_iff.1 h
  refine (hes.descend (P := fun _ => True) ?_ hr).1
  intro o es r hes hr
  split at hr
  · cases hr
  · split at hr
    · cases hr
    · cases hr
      exact ⟨hes.put (n := .value t) ht _, trivial⟩

/-- What every step of a fold keeps holds in the end. -/
theorem foldlM_keeps {α β : Type} {P : β → Prop} {step : β → α → Option β} {as : List α}
    (hstep : ∀ b a b', a ∈ as → P b → step b a = some b' → P b') {b b' : β} (hb : P b)
    (h : as.foldlM step b = some b') : P b' := by
  induction as generalizing b with
  | nil =>
    cases h
    exact hb
  | cons a as ih =>
    rw [List.foldlM_cons] at h
    obtain ⟨c, hc, h⟩ := Option.bind_eq_some_iff.1 h
    exact ih (fun b a b' ha => hstep b a b' (List.mem_cons_of_mem _ ha))
      (hstep b a c List.mem_cons_self hb hc) h

/-! ### Values -/

/-- What a scanner reads can be written. -/
def Fitting (item : Scanner Tree) : Prop := ∀ cs r, item cs = some r → fits r.1

theorem fits_integer? {n : Int} {t : Tree} (h : integer? n = some t) : fits t := by
  have hsome := h
  unfold integer? at hsome
  split at hsome
  · cases hsome
    rw [fits, h]
    rfl
  · cases hsome

theorem fitting_based (base : Nat) : Fitting (based base) := by
  intro cs r h
  obtain ⟨_, -, h⟩ := Option.bind_eq_some_iff.1 h
  obtain ⟨n, -, h⟩ := Option.bind_eq_some_iff.1 h
  obtain ⟨t, ht, rfl⟩ := Option.map_eq_some_iff.1 h
  exact fits_integer? ht

theorem fitting_decimal (negative : Bool) : Fitting (decimal negative) := by
  intro cs r h
  unfold decimal at h
  obtain ⟨⟨whole, rest⟩, -, h⟩ := Option.bind_eq_some_iff.1 h
  obtain ⟨⟨fraction, rest⟩, -, h⟩ := Option.bind_eq_some_iff.1 h
  obtain ⟨⟨exponent, rest⟩, -, h⟩ := Option.bind_eq_some_iff.1 h
  dsimp only at h
  split at h
  · obtain ⟨n, -, h⟩ := Option.bind_eq_some_iff.1 h
    obtain ⟨t, ht, h⟩ := Option.bind_eq_some_iff.1 h
    cases h
    exact fits_integer? ht
  · obtain ⟨t, ht, h⟩ := Option.bind_eq_some_iff.1 h
    cases h
    obtain ⟨x, -, ht⟩ := Option.bind_eq_some_iff.1 ht
    split at ht
    · cases ht
    · cases ht
      rfl

theorem fitting_special (negative : Bool) : Fitting (special negative) := by
  intro cs r h
  unfold special at h
  split at h
  · cases h
    rfl
  · cases h
    rfl
  · cases h

theorem Fitting.or {scan scan' : Scanner Tree} (h : Fitting scan) (h' : Fitting scan') :
    Fitting fun cs => (scan cs).or (scan' cs) := by
  intro cs r hr
  rcases Option.or_eq_some_iff.1 hr with hr | ⟨-, hr⟩
  · exact h cs r hr
  · exact h' cs r hr

theorem fitting_number : Fitting number := by
  intro cs r h
  unfold number at h
  split at h
  · exact fitting_based 16 _ _ h
  · exact fitting_based 8 _ _ h
  · exact fitting_based 2 _ _ h
  · exact (fitting_special false).or (fitting_decimal false) _ _ h
  · exact (fitting_special true).or (fitting_decimal true) _ _ h
  · exact (fitting_special false).or (fitting_decimal false) _ _ h

theorem fitting_time : Fitting time := by
  intro cs r h
  obtain ⟨_, -, rfl⟩ := Option.map_eq_some_iff.1 h
  rfl

section
variable {item : Scanner Tree} (hitem : Fitting item)
include hitem

theorem arrayItems_fit {fuel : Nat} {cs : List Char} {r : List Tree × List Char}
    (h : arrayItems item fuel cs = some r) : ∀ t ∈ r.1, fits t := by
  induction fuel generalizing cs r with
  | zero => cases h
  | succ fuel ih =>
    rw [arrayItems] at h
    obtain ⟨cs, -, h⟩ := Option.bind_eq_some_iff.1 h
    split at h
    · cases h
      exact nofun
    · obtain ⟨first, hfirst, h⟩ := Option.bind_eq_some_iff.1 h
      obtain ⟨rest, -, h⟩ := Option.bind_eq_some_iff.1 h
      split at h
      · obtain ⟨others, hothers, h⟩ := Option.bind_eq_some_iff.1 h
        cases h
        exact List.forall_mem_cons.2 ⟨hitem _ _ hfirst, ih hothers⟩
      · cases h
        exact List.forall_mem_singleton.2 (hitem _ _ hfirst)
      · cases h

theorem entry_fits {cs : List Char} {r : (List String × Tree) × List Char}
    (h : entry item cs = some r) : fits r.1.2 := by
  obtain ⟨_, -, h⟩ := Option.bind_eq_some_iff.1 h
  obtain ⟨_, -, h⟩ := Option.bind_eq_some_iff.1 h
  obtain ⟨_, ht, h⟩ := Option.bind_eq_some_iff.1 h
  cases h
  exact hitem _ _ ht

theorem inlineEntries_fit {fuel : Nat} {cs : List Char} {r : List (List String × Tree) × List Char}
    (h : inlineEntries item fuel cs = some r) : ∀ e ∈ r.1, fits e.2 := by
  induction fuel generalizing cs r with
  | zero => cases h
  | succ fuel ih =>
    rw [inlineEntries] at h
    obtain ⟨⟨e, rest⟩, he, h⟩ := Option.bind_eq_some_iff.1 h
    have hfits : fits e.2 := entry_fits hitem he
    dsimp only at h
    split at h
    · obtain ⟨others, hothers, h⟩ := Option.bind_eq_some_iff.1 h
      cases h
      exact List.forall_mem_cons.2 ⟨hfits, ih hothers⟩
    · cases h
      exact List.forall_mem_singleton.2 hfits
    · cases h

end

theorem inlineTable_fits {es : List (List String × Tree)} (hes : ∀ e ∈ es, fits e.2) {t : Tree}
    (h : inlineTable es = some t) : fits t := by
  obtain ⟨table, htable, rfl⟩ := Option.map_eq_some_iff.1 h
  refine (fits_table .stated table).2 ?_
  refine foldlM_keeps (fun es e es' he hfit h => hfit.assign (hes e he) h) fit_nil htable

theorem fitting_value (depth : Nat) : Fitting (value depth) := by
  induction depth with
  | zero => exact nofun
  | succ depth ih =>
    intro cs r h
    unfold value at h
    split at h
    · split at h
      · cases h
      · obtain ⟨items, hitems, rfl⟩ := Option.map_eq_some_iff.1 h
        exact (itemsFit_iff _).2 (arrayItems_fit ih hitems)
    · split at h
      · cases h
      · split at h
        · cases h
          rfl
        · obtain ⟨es, hes, h⟩ := Option.bind_eq_some_iff.1 h
          obtain ⟨t, ht, h⟩ := Option.bind_eq_some_iff.1 h
          cases h
          exact inlineTable_fits (inlineEntries_fit ih hes) ht
    · cases h
      rfl
    · cases h
      rfl
    · obtain ⟨_, -, rfl⟩ := Option.map_eq_some_iff.1 h
      rfl
    · obtain ⟨_, -, rfl⟩ := Option.map_eq_some_iff.1 h
      rfl
    · exact fitting_time.or fitting_number _ _ h

/-! ### Documents -/

/-- A statement whose value can be written. -/
def Statement.Fits : Statement → Prop
  | .entry _ t => fits t
  | .header _ | .repeatedHeader _ => True

theorem statement_fits {cs : List Char} {r : Statement × List Char} (h : statement cs = some r) :
    r.1.Fits := by
  unfold statement at h
  split at h
  · obtain ⟨_, -, h⟩ := Option.bind_eq_some_iff.1 h
    obtain ⟨_, -, h⟩ := Option.bind_eq_some_iff.1 h
    obtain ⟨_, -, h⟩ := Option.bind_eq_some_iff.1 h
    cases h
    trivial
  · obtain ⟨_, -, h⟩ := Option.bind_eq_some_iff.1 h
    obtain ⟨_, -, h⟩ := Option.bind_eq_some_iff.1 h
    cases h
    trivial
  · obtain ⟨⟨⟨name, t⟩, rest⟩, he, h⟩ := Option.bind_eq_some_iff.1 h
    cases h
    exact entry_fits (fitting_value depthLimit) he

theorem statements_fit {fuel : Nat} {cs : List Char} {ss : List Statement}
    (h : statements fuel cs = some ss) : ∀ s ∈ ss, s.Fits := by
  induction fuel generalizing cs ss with
  | zero => cases h
  | succ fuel ih =>
    rw [statements] at h
    split at h
    case h_1 =>
      cases h
      exact nofun
    case h_5 =>
      obtain ⟨⟨s, rest⟩, hs, h⟩ := Option.bind_eq_some_iff.1 h
      obtain ⟨_, -, h⟩ := Option.bind_eq_some_iff.1 h
      obtain ⟨later, hlater, h⟩ := Option.bind_eq_some_iff.1 h
      cases h
      exact List.forall_mem_cons.2 ⟨statement_fits hs, ih hlater⟩
    -- blank lines and comments
    all_goals
      obtain ⟨_, -, h⟩ := Option.bind_eq_some_iff.1 h
      exact ih h

/-- A document under construction that can be written. -/
structure Draft.Fits (d : Draft) : Prop where
  root : Fit d.root
  entries : Fit d.entries

theorem Draft.Fits.closeTable {d : Draft} (hd : d.Fits) {es : Entries}
    (h : d.closeTable = some es) : Fit es := by
  have htable := (fits_table .stated d.entries).2 hd.entries
  unfold Draft.closeTable at h
  dsimp only at h
  split at h
  · obtain ⟨r, hr, rfl⟩ := Option.map_eq_some_iff.1 h
    refine (hd.root.descend (P := fun _ => True) ?_ hr).1
    rintro _ es _ hes ⟨⟩
    exact ⟨hes.put htable _, trivial⟩
  · obtain ⟨r, hr, rfl⟩ := Option.map_eq_some_iff.1 h
    refine (hd.root.descend (P := fun _ => True) ?_ hr).1
    intro _ es _ hes hr
    split at hr
    · rename_i items hitems
      cases hr
      have hearlier := (fits_tables items).1 (hes.lookup hitems)
      exact ⟨hes.put ((fits_tables _).2 (List.forall_mem_cons.2 ⟨htable, hearlier⟩)) _, trivial⟩
    · cases hr
  · cases h
    exact hd.entries

theorem openTable_fits {key : List String} {root : Entries} (hroot : Fit root) {d : Draft}
    (h : Draft.openTable key root = some d) : d.Fits := by
  obtain ⟨r, hr, rfl⟩ := Option.map_eq_some_iff.1 h
  obtain ⟨hroot', hinner⟩ := hroot.descend (P := Fit) (by
    intro _ es _ hes hr
    split at hr
    · cases hr
      exact ⟨hes, fit_nil⟩
    · rename_i inner hlookup
      cases hr
      exact ⟨hes.remove _, (fits_table _ _).1 (hes.lookup hlookup)⟩
    · cases hr) hr
  exact ⟨hroot', hinner⟩

theorem openRepeated_fits {key : List String} {root : Entries} (hroot : Fit root) {d : Draft}
    (h : Draft.openRepeated key root = some d) : d.Fits := by
  obtain ⟨r, hr, rfl⟩ := Option.map_eq_some_iff.1 h
  obtain ⟨hroot', -⟩ := hroot.descend (P := fun _ => True) (by
    intro _ es _ hes hr
    split at hr
    · cases hr
      exact ⟨hes.put ((fits_tables []).2 nofun) _, trivial⟩
    · cases hr
      exact ⟨hes, trivial⟩
    · cases hr) hr
  exact ⟨hroot', fit_nil⟩

theorem Draft.Fits.step {d d' : Draft} {s : Statement} (hd : d.Fits) (hs : s.Fits)
    (h : d.step s = some d') : d'.Fits := by
  cases s with
  | entry key t =>
    obtain ⟨entries, hentries, rfl⟩ := Option.map_eq_some_iff.1 h
    exact ⟨hd.root, hd.entries.assign hs hentries⟩
  | header key =>
    obtain ⟨root, hroot, h⟩ := Option.bind_eq_some_iff.1 h
    exact openTable_fits (hd.closeTable hroot) h
  | repeatedHeader key =>
    obtain ⟨root, hroot, h⟩ := Option.bind_eq_some_iff.1 h
    exact openRepeated_fits (hd.closeTable hroot) h

/-- The table of a document can be written. -/
theorem fits_of_read {text : String} {t : Tree} (h : read text = some t) : fits t := by
  obtain ⟨ss, hss, h⟩ := Option.bind_eq_some_iff.1 h
  obtain ⟨d, hd, h⟩ := Option.bind_eq_some_iff.1 h
  obtain ⟨es, hes, h⟩ := Option.bind_eq_some_iff.1 h
  cases h
  have hfits : d.Fits :=
    foldlM_keeps (fun _ _ _ hs hd h => hd.step (statements_fit hss _ hs) h) ⟨fit_nil, fit_nil⟩ hd
  exact (fits_table .stated es).2 (hfits.closeTable hes)

end NativeGate.Toml
