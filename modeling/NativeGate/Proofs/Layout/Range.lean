import NativeGate.Layout.Written
import NativeGate.Proofs.Outcome
import NativeGate.Proofs.Toml.Range

/-!
Counts of layouts in the range of files. A count has 64 bits without a sign and an integer of a file
has a sign, so not every count can be written; those that were read can be written again. `Yields`
says what a reader gives for trees that can be written.
-/

namespace NativeGate.Data
open Toml (fits)

theorem fits_table_iff (es : List (String × Tree)) : fits (.table es) ↔ ∀ e ∈ es, fits e.2 :=
  Toml.entriesFit_iff es

/-- Whatever the reader takes from a tree that can be written has the property. -/
def Yields {α : Type} (read : Reader α) (P : α → Prop) : Prop :=
  ∀ t a, fits t → read t = .ok a → P a

section
variable {α : Type} {read : Reader α} {P : α → Prop}

theorem yields_count : Yields readCount fun n => fits (.integer n.toNat) := by
  intro t n ht h
  cases t with
  | integer m =>
    simp only [readCount, readInteger] at h
    by_cases hm : FitsUnsigned 64 m
    · rw [if_pos hm] at h
      cases h
      have hcount : ((UInt64.ofNat m.toNat).toNat : Int) = m := by
        have hlow : 0 ≤ m := hm.1
        have hhigh : m < 2 ^ 64 := hm.2
        rw [UInt64.toNat_ofNat', Nat.mod_eq_of_lt (by omega)]
        exact Int.toNat_of_nonneg hlow
      show fits (.integer (UInt64.ofNat m.toNat).toNat)
      rwa [hcount]
    · rw [if_neg hm] at h
      cases h
  | _ => cases h

theorem Yields.optional (h : Yields read P) :
    Yields (readOptional read) fun part => ∀ a, part = some a → P a := by
  rintro t part ht hread a rfl
  have hsome : (read t).map some = .ok (some a) := by
    cases t with
    | null => cases hread
    | _ => exact hread
  obtain ⟨_, ha, hsame⟩ := Except.map_eq_ok_iff.1 hsome
  cases hsame
  exact h t a ht ha

theorem forall_entries (h : Yields read P) {es : List (String × Tree)} (hes : ∀ e ∈ es, fits e.2)
    {d d' : Dict α} (hd : ∀ e ∈ d.entries, P e.2)
    (hread : es.foldlM (fun (d : Dict α) e => (read e.2).map (d.insert e.1)) d = .ok d') :
    ∀ e ∈ d'.entries, P e.2 := by
  induction es generalizing d with
  | nil =>
    cases hread
    exact hd
  | cons e es ih =>
    obtain ⟨hfirst, hrest⟩ := List.forall_mem_cons.1 hes
    rw [List.foldlM_cons] at hread
    obtain ⟨_, hinsert, hread⟩ := Except.bind_eq_ok_iff.1 hread
    obtain ⟨a, ha, rfl⟩ := Except.map_eq_ok_iff.1 hinsert
    refine ih hrest (fun entry hentry => ?_) hread
    rcases Dict.mem_insertEntry hentry with rfl | hentry
    · exact h e.2 a hfirst ha
    · exact hd entry hentry

theorem fits_entries? {t : Tree} {es : List (String × Tree)} (ht : fits t)
    (h : t.entries? = some es) : ∀ e ∈ es, fits e.2 := by
  cases t with
  | table entries =>
    cases h
    exact (fits_table_iff es).1 ht
  | time written =>
    cases h
    exact List.forall_mem_singleton.2 rfl
  | _ => cases h

theorem Yields.dict (h : Yields read P) :
    Yields (readDict read) fun d => ∀ e ∈ d.entries, P e.2 := by
  intro t d ht hread
  unfold readDict at hread
  split at hread
  · rename_i es hes
    exact forall_entries h (fits_entries? ht hes) (List.forall_mem_nil _) hread
  · cases hread

end

theorem fits_writeDict {α : Type} {write : α → Tree} {d : Dict α} :
    fits (writeDict write d) ↔ ∀ e ∈ d.entries, fits (write e.2) := by
  rw [writeDict, fits_table_iff, List.forall_mem_map]

/-! ### Records -/

namespace Record

/-- A record whose entries can be written. -/
def Fits (r : Record) : Prop := ∀ e ∈ r.entries, fits e.2

theorem fits_ofTable {title : String} {t : Tree} {r : Record} (ht : fits t)
    (h : ofTable title t = .ok r) : r.Fits := by
  unfold ofTable at h
  split at h
  · rename_i es hes
    cases h
    exact fits_entries? ht hes
  · cases h

theorem fits_ofTree {source : Source} {title : String} {fields : List String} {t : Tree}
    {r : Record} (ht : fits t) (h : ofTree source title fields t = .ok r) : r.Fits := by
  unfold ofTree at h
  split at h
  · cases h
    exact fun e he => (Toml.itemsFit_iff _).1 ht e.2 (List.of_mem_zip he).2
  · exact fits_ofTable ht h

section
variable {α : Type} {r : Record} (hr : r.Fits) {name : String} {read : Reader α}
  {P : α → Prop} (hyields : Yields read P) {a : α}
include hr hyields

theorem Fits.lookup {t : Tree} (ht : r.entries.lookup name = some t) (h : read t = .ok a) :
    P a := by
  obtain ⟨before, after, hentries, -⟩ := List.lookup_eq_some_iff.1 ht
  refine hyields t a (hr (name, t) ?_) h
  rw [hentries]
  exact List.mem_append_right _ List.mem_cons_self

theorem Fits.required (h : r.required name read = .ok a) : P a := by
  unfold Record.required at h
  split at h
  · rename_i t ht
    exact hr.lookup hyields ht h
  · cases h

theorem Fits.optional {default : α} (hdefault : P default)
    (h : r.optional name read default = .ok a) : P a := by
  unfold Record.optional at h
  split at h
  · rename_i t ht
    exact hr.lookup hyields ht h
  · cases h
    exact hdefault

end

end Record

end NativeGate.Data

namespace NativeGate.Layout
open Data
open Toml (fits)

theorem fits_converterEntry (converter : Option String) :
    ∀ e ∈ converterEntry converter, fits e.2 := by
  cases converter with
  | none => exact nofun
  | some name => exact List.forall_mem_singleton.2 rfl

theorem fits_textEntry (name : String) (s : Option String) : fits (textEntry name s).2 := by
  cases s <;> rfl

theorem fits_countEntry {n : Option UInt64} (h : ∀ m, n = some m → fits (.integer m.toNat))
    (name : String) : fits (countEntry name n).2 := by
  cases n with
  | none => rfl
  | some m => exact h m rfl

theorem fits_offset (n : Int64) : fits (.integer n.toInt) := by
  show (Toml.integer? n.toInt).isSome
  rw [Toml.integer?, if_pos (fitsSigned_toInt n)]
  rfl

theorem Attribute.yields_read (source : Source) :
    Yields (read source) fun a => fits a.tree := by
  intro t a ht h
  obtain ⟨r, hr, h⟩ := Except.bind_eq_ok_iff.1 h
  have hfits := Record.fits_ofTree ht hr
  obtain ⟨-, -, h⟩ := Except.bind_eq_ok_iff.1 h
  obtain ⟨kind, -, h⟩ := Except.bind_eq_ok_iff.1 h
  obtain ⟨offset, -, h⟩ := Except.bind_eq_ok_iff.1 h
  obtain ⟨indirect, -, h⟩ := Except.bind_eq_ok_iff.1 h
  obtain ⟨capacity, hcapacity, h⟩ := Except.bind_eq_ok_iff.1 h
  obtain ⟨access, -, h⟩ := Except.bind_eq_ok_iff.1 h
  obtain ⟨converter, -, h⟩ := Except.bind_eq_ok_iff.1 h
  obtain ⟨-, -, h⟩ := Except.bind_eq_ok_iff.1 h
  cases h
  have hcount := hfits.optional yields_count.optional (by nofun) hcapacity
  refine (fits_table_iff _).2 ?_
  simp only [List.cons_append, List.nil_append, List.forall_mem_cons]
  exact ⟨rfl, fits_offset offset, rfl, fits_countEntry hcount _, rfl,
    fits_converterEntry converter⟩

/-- A function has no counts. -/
theorem FunctionSpec.fits_tree (f : FunctionSpec) : fits f.tree := by
  refine (fits_table_iff _).2 ?_
  simp only [List.cons_append, List.nil_append, List.forall_mem_cons]
  exact ⟨rfl, fits_textEntry _ _, fits_textEntry _ _, fits_textEntry _ _, rfl, rfl,
    fits_converterEntry f.converter⟩

theorem VirtualSpec.yields_read (source : Source) :
    Yields (read source) fun f => fits f.tree := by
  intro t f ht h
  obtain ⟨r, hr, h⟩ := Except.bind_eq_ok_iff.1 h
  have hfits := Record.fits_ofTree ht hr
  obtain ⟨-, -, h⟩ := Except.bind_eq_ok_iff.1 h
  obtain ⟨index, hindex, h⟩ := Except.bind_eq_ok_iff.1 h
  obtain ⟨convention, -, h⟩ := Except.bind_eq_ok_iff.1 h
  obtain ⟨signature, -, h⟩ := Except.bind_eq_ok_iff.1 h
  obtain ⟨shifted, -, h⟩ := Except.bind_eq_ok_iff.1 h
  obtain ⟨converter, -, h⟩ := Except.bind_eq_ok_iff.1 h
  obtain ⟨-, -, h⟩ := Except.bind_eq_ok_iff.1 h
  cases h
  have hcount := hfits.required yields_count hindex
  refine (fits_table_iff _).2 ?_
  simp only [List.cons_append, List.nil_append, List.forall_mem_cons]
  exact ⟨hcount, rfl, rfl, rfl, fits_converterEntry converter⟩

namespace TypeLayout

/-- A layout that was read has no name, and its counts are in range. -/
theorem yields_read (source : Source) :
    Yields (read source) fun l => fits l.tree ∧ l.name = "" := by
  intro t l ht h
  obtain ⟨r, hr, h⟩ := Except.bind_eq_ok_iff.1 h
  have hfits := Record.fits_ofTree ht hr
  obtain ⟨-, -, h⟩ := Except.bind_eq_ok_iff.1 h
  obtain ⟨size, hsize, h⟩ := Except.bind_eq_ok_iff.1 h
  obtain ⟨attributes, hattributes, h⟩ := Except.bind_eq_ok_iff.1 h
  obtain ⟨functions, -, h⟩ := Except.bind_eq_ok_iff.1 h
  obtain ⟨virtuals, hvirtuals, h⟩ := Except.bind_eq_ok_iff.1 h
  obtain ⟨-, -, h⟩ := Except.bind_eq_ok_iff.1 h
  cases h
  have hcount := hfits.optional yields_count.optional (by nofun) hsize
  have hattributes :=
    hfits.optional (Attribute.yields_read source).dict (List.forall_mem_nil _) hattributes
  have hvirtuals :=
    hfits.optional (VirtualSpec.yields_read source).dict (List.forall_mem_nil _) hvirtuals
  refine ⟨(fits_table_iff _).2 ?_, rfl⟩
  simp only [List.forall_mem_cons]
  exact ⟨fits_countEntry hcount _, fits_writeDict.2 hattributes,
    fits_writeDict.2 fun e _ => e.2.fits_tree, fits_writeDict.2 hvirtuals, nofun⟩

end TypeLayout

end NativeGate.Layout
