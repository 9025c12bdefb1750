import NativeGate.Config
import NativeGate.Proofs.Files
import NativeGate.Proofs.Layout.Shape
import NativeGate.Proofs.Layout.Written

/-!
Configurations and their files. What files can hold (`Config.Storable`) is kept by reading and by
merging, and is read back from its text: its parts are read back from their trees, whether or not
null entries are left out, and the tree of the whole from the text. So whatever was read and merged
survives saving (`Config.parse_serialise`).
-/

namespace NativeGate.Dict

theorem mem_union {α : Type} {d d' : Dict α} {e : String × α}
    (h : e ∈ (d.union d').entries) : e ∈ d.entries ∨ e ∈ d'.entries := by
  unfold union at h
  generalize d'.entries = es at h ⊢
  induction es generalizing d with
  | nil => exact .inl h
  | cons first es ih =>
    rcases ih h with h | h
    · rcases mem_insertEntry h with rfl | h
      · exact .inr List.mem_cons_self
      · exact .inl h
    · exact .inr (List.mem_cons_of_mem _ h)

end NativeGate.Dict

namespace NativeGate
open Data Layout Toml

/-! ### Reading back -/

theorem LoggingConfig.reads_tree (source : Source) (c : LoggingConfig) :
    ReadsBack (read source) c.tree c := by
  refine ⟨nofun, fun t ht => ?_⟩
  obtain ⟨r, hr, hshows⟩ := Record.shows_ofTree source "LoggingConfig" fields
    (by simp [textEntry]) ht
  have hformat : ReadsBack (readChoice source (Log.Format.all.map fun f => (f.name, f)))
      (.text c.format.name) c.format :=
    reads_choice source (by cases c.format <;> rfl)
  have hscan : r.scan [Record.check "level" readText,
      Record.check "format" (readChoice source (Log.Format.all.map fun f => (f.name, f))),
      Record.check "directory" (readOptional readText),
      Record.check "filter" (readOptional readText),
      Record.check "span_events" readBoolean] = .ok () := by
    refine hshows.scan ?_
    simp only [List.forall_mem_cons]
    exact ⟨Record.passes rfl (reads_text _), Record.passes rfl hformat,
      Record.passes_part rfl reads_text, Record.passes_part rfl reads_text,
      Record.passes rfl (reads_boolean _), List.forall_mem_nil _⟩
  have hlevel := hshows.optional "level" LoggingConfig.default.level rfl (reads_text c.level)
  have hformat := hshows.optional "format" LoggingConfig.default.format rfl hformat
  have hdirectory : r.optional "directory" (readOptional readText) none = .ok c.directory :=
    hshows.optional_part "directory" (.inl rfl) reads_text
  have hfilter : r.optional "filter" (readOptional readText) none = .ok c.filter :=
    hshows.optional_part "filter" (.inl rfl) reads_text
  have hspanEvents := hshows.optional "span_events" false rfl (reads_boolean c.spanEvents)
  simp only [read, bind, Except.bind, hr, hscan, hlevel, hformat, hdirectory, hfilter, hspanEvents,
    hshows.close, pure, Except.pure]

theorem CallConfig.reads_tree (source : Source) (c : CallConfig) :
    ReadsBack (read source) c.tree c := by
  refine ⟨nofun, fun t ht => ?_⟩
  obtain ⟨r, hr, hshows⟩ := Record.shows_ofTree source "CallConfig" ["cif_cache_size"] (by simp) ht
  have hscan : r.scan [Record.check "cif_cache_size" readCount] = .ok () :=
    hshows.scan (List.forall_mem_singleton.2 (Record.passes rfl (reads_count _)))
  have hcapacity := hshows.optional "cif_cache_size" CallConfig.default.capacity rfl
    (reads_count c.capacity)
  simp only [read, bind, Except.bind, hr, hscan, hcapacity, hshows.close, pure, Except.pure]

namespace Config

/-- A configuration that files can hold: its counts are in the range of files, and its layouts have
    no names beside those they stand under. -/
structure Storable (c : Config) : Prop where
  call : fits c.call.tree
  types : ∀ e ∈ c.types.entries, fits e.2.tree ∧ e.2.name = ""

theorem Storable.reads_tree {c : Config} (h : c.Storable) (source : Source) :
    ReadsBack (read source) c.tree c := by
  refine ⟨nofun, fun t ht => ?_⟩
  have hfunctions := reads_dict fun e (_ : e ∈ c.functions.entries) => e.2.reads_tree
  have htypes : ReadsBack (readDict (TypeLayout.read source)) (writeDict TypeLayout.tree c.types)
      c.types := by
    refine reads_dict fun e he => ?_
    have hread := e.2.reads_tree source
    rwa [← (h.types e he).2] at hread
  obtain ⟨r, hr, hshows⟩ := Record.shows_ofTree source "Config" fields (by simp) ht
  have hlogging := c.logging.reads_tree source
  have hcall := c.call.reads_tree source
  have hscan : r.scan [Record.check "logging" (LoggingConfig.read source),
      Record.check "call" (CallConfig.read source),
      Record.check "functions" (readDict FunctionSpec.read),
      Record.check "types" (readDict (TypeLayout.read source))] = .ok () := by
    refine hshows.scan ?_
    simp only [List.forall_mem_cons]
    exact ⟨Record.passes rfl hlogging, Record.passes rfl hcall, Record.passes rfl hfunctions,
      Record.passes rfl htypes, nofun⟩
  have hlogging := hshows.optional "logging" .default rfl hlogging
  have hcall := hshows.optional "call" .default rfl hcall
  have hfunctions := hshows.optional "functions" .empty rfl hfunctions
  have htypes := hshows.optional "types" .empty rfl htypes
  simp only [read, bind, Except.bind, hr, hscan, hlogging, hcall, hfunctions, htypes,
    hshows.close, pure, Except.pure]

/-! ### Range -/

theorem fits_loggingTree (c : LoggingConfig) : fits c.tree := by
  refine (fits_table_iff _).2 ?_
  simp only [List.forall_mem_cons]
  exact ⟨rfl, rfl, fits_textEntry _ _, fits_textEntry _ _, rfl, nofun⟩

theorem yields_call (source : Source) : Yields (CallConfig.read source) fun c => fits c.tree := by
  intro t c ht h
  obtain ⟨r, hr, h⟩ := Except.bind_eq_ok_iff.1 h
  have hfits := Record.fits_ofTree ht hr
  obtain ⟨-, -, h⟩ := Except.bind_eq_ok_iff.1 h
  obtain ⟨capacity, hcapacity, h⟩ := Except.bind_eq_ok_iff.1 h
  obtain ⟨-, -, h⟩ := Except.bind_eq_ok_iff.1 h
  cases h
  have hcount := hfits.optional yields_count (by decide) hcapacity
  exact (fits_table_iff _).2 (List.forall_mem_singleton.2 hcount)

theorem storable_of_read (source : Source) {t : Tree} {c : Config} (ht : fits t)
    (h : read source t = .ok c) : c.Storable := by
  obtain ⟨r, hr, h⟩ := Except.bind_eq_ok_iff.1 h
  have hfits := Record.fits_ofTree ht hr
  obtain ⟨-, -, h⟩ := Except.bind_eq_ok_iff.1 h
  obtain ⟨logging, -, h⟩ := Except.bind_eq_ok_iff.1 h
  obtain ⟨call, hcall, h⟩ := Except.bind_eq_ok_iff.1 h
  obtain ⟨functions, -, h⟩ := Except.bind_eq_ok_iff.1 h
  obtain ⟨types, htypes, h⟩ := Except.bind_eq_ok_iff.1 h
  obtain ⟨-, -, h⟩ := Except.bind_eq_ok_iff.1 h
  cases h
  exact ⟨hfits.optional (yields_call source) (by decide) hcall,
    hfits.optional (TypeLayout.yields_read source).dict (List.forall_mem_nil _) htypes⟩

/-- A configuration that was read from a text can be written. -/
theorem storable_of_parse {text : String} {c : Config} (h : parse text = .ok c) : c.Storable := by
  have hread := Except.mapError_eq_ok_iff.1 h
  split at hread
  · rename_i t ht
    exact storable_of_read .toml (fits_of_read ht) hread
  · cases hread

theorem Storable.merge {c other : Config} (h : c.Storable) (hother : other.Storable) :
    (c.merge other).Storable :=
  ⟨h.call, fun e he => (Dict.mem_union he).elim (h.types e) (hother.types e)⟩

theorem Storable.fits_tree {c : Config} (h : c.Storable) : fits c.tree := by
  refine (fits_table_iff _).2 ?_
  simp only [List.forall_mem_cons]
  exact ⟨fits_loggingTree c.logging, h.call, fits_writeDict.2 fun e _ => e.2.fits_tree,
    fits_writeDict.2 fun e he => (h.types e he).1, nofun⟩

/-- The tree of a configuration that files can hold is read back from its text. -/
theorem Storable.regular_tree {c : Config} (h : c.Storable) : Regular 5 c.tree := by
  have hlogging : Regular 4 c.logging.tree := by
    refine regular_flat 3 ?_ (fits_loggingTree c.logging) (by simp [textEntry])
    simp only [List.forall_mem_cons]
    exact ⟨rfl, rfl, isLine_textEntry _ _, isLine_textEntry _ _, rfl, List.forall_mem_nil _⟩
  have hcall : Regular 4 c.call.tree :=
    regular_flat 3 (List.forall_mem_singleton.2 rfl) h.call (by simp)
  refine regular_table [] (List.forall_mem_nil _) (List.forall_mem_nil _) ?_ (by simp)
  simp only [List.forall_mem_cons]
  exact ⟨hlogging, hcall, regular_writeDict fun e _ => e.2.regular_tree 2,
    regular_writeDict fun e he => TypeLayout.regular_tree 0 (h.types e he).1,
    List.forall_mem_nil _⟩

/-! ### Saving -/

theorem Storable.exists_serialise {c : Config} (h : c.Storable) :
    ∃ text, c.serialise = .ok text ∧ parse text = .ok c := by
  obtain ⟨t, hread, homits⟩ := read_print h.regular_tree (by decide)
  refine ⟨print c.tree, ?_, ?_⟩
  · rw [serialise, write?, if_pos h.fits_tree]
  · rw [parse, hread]
    exact congrArg (Except.mapError _) ((h.reads_tree .toml).reads t homits)

/-- A configuration that comes from texts of files, read and merged in some order. -/
inductive Obtained : Config → Prop
  | parsed {text : String} {c : Config} (h : parse text = .ok c) : Obtained c
  | merged {c other : Config} (h : Obtained c) (hother : Obtained other) :
      Obtained (c.merge other)

theorem Obtained.storable {c : Config} (h : c.Obtained) : c.Storable := by
  induction h with
  | parsed h => exact storable_of_parse h
  | merged _ _ ih ihOther => exact ih.merge ihOther

theorem storable_iff {c : Config} :
    c.Storable ↔ (∃ text, c.serialise = .ok text) ∧ ∀ e ∈ c.types.entries, e.2.name = "" := by
  constructor
  · intro h
    obtain ⟨text, htext, -⟩ := h.exists_serialise
    exact ⟨⟨text, htext⟩, fun e he => (h.types e he).2⟩
  · rintro ⟨⟨text, htext⟩, hunnamed⟩
    have hfits : fits c.tree := by
      refine Decidable.byContradiction fun hno => ?_
      rw [serialise, write?, if_neg hno] at htext
      cases htext
    have hparts := (fits_table_iff _).1 hfits
    simp only [List.forall_mem_cons] at hparts
    obtain ⟨-, hcall, -, htypes, -⟩ := hparts
    exact ⟨hcall, fun e he => ⟨fits_writeDict.1 htypes e he, hunnamed e he⟩⟩

/-- A configuration comes from files exactly when it can be written and its layouts have no names of
    their own, and then its text, in a file or not, is read as the same configuration. -/
theorem parse_serialise (c : Config) :
    (c.Obtained ↔
        (∃ text, c.serialise = .ok text) ∧ ∀ e ∈ c.types.entries, e.2.name = "") ∧
      (c.Obtained →
        (∃ text, c.serialise = .ok text ∧ parse text = .ok c) ∧
          ∀ files path files', c.save files path = .ok files' → load files' path = .ok c) := by
  refine ⟨⟨fun h => storable_iff.1 h.storable, fun h => ?_⟩, fun h => ?_⟩
  · obtain ⟨text, -, hparse⟩ := (storable_iff.2 h).exists_serialise
    exact .parsed hparse
  · obtain ⟨text, htext, hparse⟩ := h.storable.exists_serialise
    refine ⟨⟨text, htext, hparse⟩, fun files path files' hsave => ?_⟩
    rw [save, htext] at hsave
    have hwrite : files.write path text = .ok files' := Except.mapError_eq_ok_iff.1 hsave
    rw [load, Files.read_of_write hwrite]
    exact hparse

theorem parse_serialise_merged :
    ∃ c other : Config,
      parse "[functions.abs]\nbinary = \"libc.so.6\"\nlinux = \"abs\"\nparameters = \"i)i\"\n" =
        .ok c ∧
      parse "[types.Point]\nsize = 8\nattributes.x = \x7btype = \"int\", offset = -4\x7d\n" =
        .ok other ∧
      (c.merge other).Obtained ∧
      (∃ text, (c.merge other).serialise = .ok text ∧ parse text = .ok (c.merge other)) ∧
        ∀ files path files', (c.merge other).save files path = .ok files' →
          load files' path = .ok (c.merge other) := by
  let abs : FunctionSpec :=
    ⟨"libc.so.6", ⟨some "abs", none, none⟩, .cdecl,
      ⟨[.integer .int], .integer .int, by decide⟩, none⟩
  let point : TypeLayout :=
    ⟨"", some 8, Dict.ofList [("x", ⟨.integer .int, -4, false, none, .readWrite, none⟩)], .empty,
      .empty⟩
  have hok : ∀ {x : Except Error Config} {c : Config}, x.toOption = some c → x = .ok c := by
    rintro (_ | _) _ ⟨⟩
    rfl
  have hc : parse
        "[functions.abs]\nbinary = \"libc.so.6\"\nlinux = \"abs\"\nparameters = \"i)i\"\n" =
      .ok ⟨.default, .default, Dict.ofList [("abs", abs)], .empty⟩ := hok (by decide +kernel)
  have hother : parse
        "[types.Point]\nsize = 8\nattributes.x = \x7btype = \"int\", offset = -4\x7d\n" =
      .ok ⟨.default, .default, .empty, Dict.ofList [("Point", point)]⟩ := hok (by decide +kernel)
  have hmerged := Obtained.merged (.parsed hc) (.parsed hother)
  exact ⟨_, _, hc, hother, hmerged, (parse_serialise _).2 hmerged⟩

end Config

end NativeGate
