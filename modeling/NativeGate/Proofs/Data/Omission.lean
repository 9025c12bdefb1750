import NativeGate.Data.Record

/-!
Reading back what was written. A writer shows an absent part as a null entry, and a notation without
null leaves such entries out (`Omits`). A reader reads a tree (`Reads`) when it gives the value that
the tree was written for whichever null entries are left out. For a record this comes down to its
fields: `Record.Shows` ties a record to the entries that were written, and each way of taking a
field has a lemma that needs no more than how the field was written.
-/

namespace NativeGate.Dict

theorem eq_of_entries {α : Type} {d e : Dict α} (h : d.entries = e.entries) : d = e := by
  cases d
  cases e
  cases h
  rfl

/-- A name after all others goes to the end. -/
theorem insertEntry_append {α : Type} {name : String} {v : α} {es : List (String × α)}
    (h : ∀ e ∈ es, e.1 < name) : insertEntry name v es = es ++ [(name, v)] := by
  induction es with
  | nil => rfl
  | cons e rest ih =>
    have hfirst : e.1 < name := h e List.mem_cons_self
    rw [insertEntry, if_neg fun below => String.lt_irrefl _ (String.lt_trans hfirst below),
      if_pos hfirst, ih fun e he => h e (List.mem_cons_of_mem _ he), List.cons_append]

end NativeGate.Dict

namespace NativeGate.Data

/-! ### Leaving out null entries -/

/-- Entries of which null ones may be missing, and the others stand for the written ones by `R`. -/
inductive Kept (R : Tree → Tree → Prop) : List (String × Tree) → List (String × Tree) → Prop
  | nil : Kept R [] []
  | entry {name : String} {t t' : Tree} {es es' : List (String × Tree)} (here : R t t')
      (rest : Kept R es es') : Kept R ((name, t) :: es) ((name, t') :: es')
  | omitted {name : String} {es es' : List (String × Tree)} (rest : Kept R es es') :
      Kept R ((name, .null) :: es) es'

/-- The second tree is the first one with some null entries of tables left out, at any depth. -/
inductive Omits : Tree → Tree → Prop
  | same (t : Tree) : Omits t t
  | table {es es' : List (String × Tree)} (kept : Kept Omits es es') :
      Omits (.table es) (.table es')

namespace Kept
variable {R : Tree → Tree → Prop} {es es' : List (String × Tree)}

theorem refl (h : ∀ t, R t t) (es : List (String × Tree)) : Kept R es es := by
  induction es with
  | nil => exact .nil
  | cons e rest ih => exact .entry (h e.2) ih

theorem append (h : Kept R es es') {later later' : List (String × Tree)}
    (hlater : Kept R later later') : Kept R (es ++ later) (es' ++ later') := by
  induction h with
  | nil => exact hlater
  | entry here _ ih => exact .entry here ih
  | omitted _ ih => exact .omitted ih

theorem exists_mem (h : Kept R es es') {e : String × Tree} (he : e ∈ es') :
    ∃ t, (e.1, t) ∈ es ∧ R t e.2 := by
  induction h with
  | nil => cases he
  | entry here _ ih =>
    rcases List.mem_cons.1 he with rfl | he
    · exact ⟨_, List.mem_cons_self, here⟩
    · obtain ⟨t, ht, hR⟩ := ih he
      exact ⟨t, List.mem_cons_of_mem _ ht, hR⟩
  | omitted _ ih =>
    obtain ⟨t, ht, hR⟩ := ih he
    exact ⟨t, List.mem_cons_of_mem _ ht, hR⟩

theorem lookup_eq_none (h : Kept R es es') {name : String} (hnone : es.lookup name = none) :
    es'.lookup name = none := by
  rw [List.lookup_eq_none_iff] at hnone ⊢
  intro e he
  obtain ⟨t, ht, _⟩ := h.exists_mem he
  exact hnone (e.1, t) ht

/-- An entry that is not null is there under its name. -/
theorem exists_lookup (h : Kept R es es') {name : String} {t : Tree}
    (hsome : es.lookup name = some t) (hnull : t ≠ .null) :
    ∃ t', es'.lookup name = some t' ∧ R t t' := by
  induction h with
  | nil => cases hsome
  | entry here _ ih =>
    rw [Dict.lookup_cons_eq] at hsome ⊢
    split at hsome
    · rename_i hname
      cases hsome
      exact ⟨_, if_pos hname, here⟩
    · rename_i hname
      rw [if_neg hname]
      exact ih hsome
  | omitted _ ih =>
    rw [Dict.lookup_cons_eq] at hsome
    split at hsome
    · exact absurd (Option.some.inj hsome).symm hnull
    · exact ih hsome

/-- A null entry is missing, or it is there. -/
theorem lookup_null (h : Kept R es es') (hdistinct : (es.map (·.1)).Nodup) {name : String}
    (hsome : es.lookup name = some .null) :
    es'.lookup name = none ∨ ∃ t', es'.lookup name = some t' ∧ R .null t' := by
  induction h with
  | nil => cases hsome
  | @entry first t t' es es' here rest ih =>
    rw [Dict.lookup_cons_eq] at hsome ⊢
    split at hsome
    · rename_i hname
      cases hsome
      exact .inr ⟨_, if_pos hname, here⟩
    · rename_i hname
      rw [if_neg hname]
      exact ih (List.nodup_cons.1 hdistinct).2 hsome
  | @omitted first es es' rest ih =>
    rw [Dict.lookup_cons_eq] at hsome
    obtain ⟨hfirst, hrest⟩ := List.nodup_cons.1 hdistinct
    split at hsome
    · rename_i hname
      refine .inl (rest.lookup_eq_none ?_)
      rw [List.lookup_eq_none_iff]
      intro e he
      rw [hname, bne_iff_ne]
      rintro rfl
      exact hfirst (List.mem_map.2 ⟨e, he, rfl⟩)
    · exact ih hrest hsome

end Kept

theorem Omits.exists_table {es : List (String × Tree)} {t : Tree} (h : Omits (.table es) t) :
    ∃ es', t = .table es' ∧ Kept Omits es es' := by
  cases h with
  | same => exact ⟨es, rfl, .refl .same es⟩
  | table kept => exact ⟨_, rfl, kept⟩

/-! ### Trees that are read -/

/-- The tree is no null, so a table has an entry for it, and the reader gives `a` for it, whichever
    of the null entries inside are left out. -/
structure ReadsBack {α : Type} (read : Reader α) (t : Tree) (a : α) : Prop where
  present : t ≠ .null
  reads : ∀ t', Omits t t' → read t' = .ok a

section
variable {α : Type} {read : Reader α}

theorem ReadsBack.ok {t : Tree} {a : α} (h : ReadsBack read t a) : read t = .ok a :=
  h.reads t (.same t)

theorem reads_text (s : String) : ReadsBack readText (.text s) s := by
  refine ⟨nofun, ?_⟩
  rintro _ ⟨⟩
  rfl

theorem reads_boolean (b : Bool) : ReadsBack readBoolean (.boolean b) b := by
  refine ⟨nofun, ?_⟩
  rintro _ ⟨⟩
  rfl

theorem reads_integer {expected : String} {of? : Int → Option α} {n : Int} {a : α}
    (h : of? n = some a) : ReadsBack (readInteger expected of?) (.integer n) a := by
  refine ⟨nofun, ?_⟩
  rintro _ ⟨⟩
  simp [readInteger, h]

theorem reads_count (n : UInt64) : ReadsBack readCount (.integer n.toNat) n :=
  reads_integer (by rw [if_pos (fitsUnsigned_toNat n), Int.toNat_natCast, UInt64.ofNat_toNat])

theorem reads_offset (n : Int64) : ReadsBack readOffset (.integer n.toInt) n :=
  reads_integer (by rw [if_pos (fitsSigned_toInt n), Int64.ofInt_toInt])

/-- A text that `parse` takes is read as what it is taken for. -/
theorem reads_parsed {parse : String → Except DecodeFault α} {s : String} {a : α}
    (h : parse s = .ok a) : ReadsBack (readParsed parse) (.text s) a := by
  refine ⟨nofun, ?_⟩
  rintro _ ⟨⟩
  exact h

theorem reads_choice (source : Source) {choices : List (String × α)} {s : String} {a : α}
    (h : choices.lookup s = some a) : ReadsBack (readChoice source choices) (.text s) a := by
  refine ⟨nofun, ?_⟩
  rintro _ ⟨⟩
  simp [readChoice, readChoice.choose, h]

/-- What a reader takes is no null, so it may be optional as well. -/
theorem ReadsBack.optional {t : Tree} {a : α} (h : ReadsBack read t a) :
    ReadsBack (readOptional read) t (some a) := by
  refine ⟨h.present, fun t' ht => ?_⟩
  have hread := h.reads t' ht
  have hnull := h.present
  cases ht with
  | same => cases t <;> simp_all [readOptional, Except.map]
  | table => simp_all [readOptional, Except.map]

end

/-! ### Dictionaries -/

/-- Entries that continue a dictionary in order are read into their places in it. -/
theorem foldlM_insert {α : Type} {read : Reader α} {write : α → Tree} {es : List (String × α)}
    {written : List (String × Tree)}
    (kept : Kept Omits (es.map fun e => (e.1, write e.2)) written)
    (h : ∀ e ∈ es, ReadsBack read (write e.2) e.2) {d whole : Dict α}
    (hwhole : whole.entries = d.entries ++ es) :
    written.foldlM (fun (d : Dict α) e => (read e.2).map (d.insert e.1)) d = .ok whole := by
  induction es generalizing written d with
  | nil =>
    cases kept
    rw [List.append_nil] at hwhole
    exact congrArg Except.ok (Dict.eq_of_entries hwhole.symm)
  | cons e es ih =>
    have hfirst := h e List.mem_cons_self
    rw [List.map_cons] at kept
    generalize write e.2 = t at hfirst kept
    cases kept with
    | omitted => exact absurd rfl hfirst.present
    | entry here rest =>
      have hlast : ∀ a ∈ d.entries, a.1 < e.1 := by
        have hordered := whole.ordered
        rw [hwhole, List.pairwise_append] at hordered
        exact fun a ha => hordered.2.2 a ha e List.mem_cons_self
      have hinsert : (d.insert e.1 e.2).entries = d.entries ++ [e] :=
        Dict.insertEntry_append hlast
      rw [List.foldlM_cons, hfirst.reads _ here]
      refine ih rest (fun e he => h e (List.mem_cons_of_mem _ he)) ?_
      rw [hinsert, hwhole, List.append_assoc, List.singleton_append]

theorem reads_dict {α : Type} {read : Reader α} {write : α → Tree} {d : Dict α}
    (h : ∀ e ∈ d.entries, ReadsBack read (write e.2) e.2) :
    ReadsBack (readDict read) (writeDict write d) d := by
  refine ⟨nofun, ?_⟩
  intro t ht
  obtain ⟨es, rfl, kept⟩ := ht.exists_table
  exact foldlM_insert kept h rfl

/-! ### Records -/

namespace Record

/-- A record that was read from written entries, of which null ones may be missing. -/
structure Shows (r : Record) (written : List (String × Tree)) : Prop where
  distinct : (written.map (·.1)).Nodup
  kept : Kept Omits written r.entries
  complete : r.surplus = false

section
variable {α : Type} {r : Record} {written : List (String × Tree)} {name : String}

/-- A record in a table has the entries of the table. -/
theorem shows_ofTable (title : String) (hdistinct : (written.map (·.1)).Nodup) {t : Tree}
    (ht : Omits (.table written) t) : ∃ r, ofTable title t = .ok r ∧ r.Shows written := by
  obtain ⟨es, rfl, kept⟩ := ht.exists_table
  exact ⟨_, rfl, hdistinct, kept, rfl⟩

theorem shows_ofTree (source : Source) (title : String) (fields : List String)
    (hdistinct : (written.map (·.1)).Nodup) {t : Tree} (ht : Omits (.table written) t) :
    ∃ r, ofTree source title fields t = .ok r ∧ r.Shows written := by
  obtain ⟨es, rfl, kept⟩ := ht.exists_table
  exact ⟨_, rfl, hdistinct, kept, rfl⟩

/-- Nothing is found wrong with a written entry. -/
def Passes (checks : List Check) (e : String × Tree) : Prop :=
  ∀ read, checks.lookup e.1 = some read → ∀ t, Omits e.2 t → read t = .ok ()

/-- The check of a field passes what its reader takes. -/
theorem passes {checks : List Check} {read : Reader α} {t : Tree} {a : α}
    (hcheck : checks.lookup name = some (check name read).2) (h : ReadsBack read t a) :
    Passes checks (name, t) := by
  intro read' hread' t' ht
  rw [hcheck] at hread'
  cases hread'
  simp [check, h.reads t' ht, Except.map]

/-- The check of a part that may be absent passes it, written as null where it is. -/
theorem passes_part {checks : List Check} {read : Reader α} {write : α → Tree} {part : Option α}
    (hcheck : checks.lookup name = some (check name (readOptional read)).2)
    (h : ∀ a, ReadsBack read (write a) a) : Passes checks (name, .ofOption write part) := by
  cases part with
  | some a => exact passes hcheck (h a).optional
  | none =>
    rintro _ hread _ ⟨⟩
    rw [hcheck] at hread
    cases hread
    rfl

/-- An entry that is no field of the record is passed over. -/
theorem passes_other {checks : List Check} {t : Tree} (hcheck : checks.lookup name = none) :
    Passes checks (name, t) := by
  intro read hread
  rw [hcheck] at hread
  cases hread

theorem forM_ok {es : List α} {f : α → Except DecodeFault Unit} (h : ∀ e ∈ es, f e = .ok ()) :
    es.forM f = .ok () := by
  induction es with
  | nil => rfl
  | cons e es ih =>
    rw [List.forM_eq_forM, List.forM_cons, h e List.mem_cons_self]
    exact ih fun e he => h e (List.mem_cons_of_mem _ he)

/-- Nothing is wrong when every written entry that is checked passes. -/
theorem Shows.scan (h : r.Shows written) {checks : List Check}
    (hpass : ∀ e ∈ written, Passes checks e) : r.scan checks = .ok () := by
  refine forM_ok fun e he => ?_
  obtain ⟨t, ht, homits⟩ := h.kept.exists_mem he
  split
  · rename_i read hread
    exact hpass _ ht read hread _ homits
  · rfl

theorem Shows.required (h : r.Shows written) (name : String) {read : Reader α} {t : Tree} {a : α}
    (hwritten : written.lookup name = some t) (hread : ReadsBack read t a) :
    r.required name read = .ok a := by
  obtain ⟨t', ht', homits⟩ := h.kept.exists_lookup hwritten hread.present
  rw [Record.required, ht']
  exact hread.reads t' homits

theorem Shows.optional (h : r.Shows written) (name : String) {read : Reader α} {t : Tree} {a : α}
    (default : α)
    (hwritten : written.lookup name = some t) (hread : ReadsBack read t a) :
    r.optional name read default = .ok a := by
  obtain ⟨t', ht', homits⟩ := h.kept.exists_lookup hwritten hread.present
  rw [Record.optional, ht']
  exact hread.reads t' homits

/-- A field that was not written has its default. -/
theorem Shows.optional_absent (h : r.Shows written) (name : String) (read : Reader α) (default : α)
    (hwritten : written.lookup name = none) : r.optional name read default = .ok default := by
  rw [Record.optional, h.kept.lookup_eq_none hwritten]

/-- A part that may be absent, written as null or left out where it is. -/
theorem Shows.optional_part (h : r.Shows written) (name : String) {read : Reader α}
    {write : α → Tree} {part : Option α}
    (hwritten : written.lookup name = some (.ofOption write part) ∨
      written.lookup name = part.map write)
    (hread : ∀ a, ReadsBack read (write a) a) :
    r.optional name (readOptional read) none = .ok part := by
  cases part with
  | some a =>
    have hsome : written.lookup name = some (write a) := hwritten.elim id id
    exact h.optional name none hsome (hread a).optional
  | none =>
    have hnone : r.entries.lookup name = none ∨ r.entries.lookup name = some .null := by
      rcases hwritten with hnull | hmissing
      · rcases h.kept.lookup_null h.distinct hnull with hnone | ⟨_, hsome, ⟨⟩⟩
        · exact .inl hnone
        · exact .inr hsome
      · exact .inl (h.kept.lookup_eq_none hmissing)
    rcases hnone with hnone | hnull
    · rw [Record.optional, hnone]
    · rw [Record.optional, hnull]
      rfl

theorem Shows.close (h : r.Shows written) : r.close = .ok () := by
  rw [Record.close, h.complete]
  rfl

end

end Record

end NativeGate.Data
