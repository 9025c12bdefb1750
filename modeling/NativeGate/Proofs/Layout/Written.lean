import NativeGate.Layout.Written
import NativeGate.Proofs.Data.Omission
import NativeGate.Proofs.Signature

/-!
Layouts and their written form. Each member of a layout is read back from its tree as it was, and so
is the layout except for its name, which is not written (`read_tree_forgets_name`). This holds in
every notation and whether or not null entries are left out, since an absent part is read from null
and from nothing alike.
-/

namespace NativeGate.Layout
open Data

/-! ### Names -/

theorem reads_kind (k : Kind) : ReadsBack readKind (.text k.configName) k := by
  have h : Kind.parse? k.configName = some k := by
    rcases k with _ | _ | k | _ | _ | _ | _
    case integer => cases k <;> decide +kernel
    all_goals decide +kernel
  exact reads_parsed (by rw [h]; rfl)

theorem reads_convention (c : Convention) : ReadsBack readConvention (.text c.name) c := by
  have h : Convention.parse? c.name = some c := by cases c <;> decide +kernel
  exact reads_parsed (by rw [h]; rfl)

theorem reads_signature (s : Signature) : ReadsBack readSignature (.text s.text) s :=
  reads_parsed (by rw [Signature.parse_text]; rfl)

theorem reads_access (source : Source) (a : Access) :
    ReadsBack (readAccess source) (.text a.name) a :=
  reads_choice source (by cases a <;> rfl)

/-! ### Converters -/

theorem passes_converterEntry {checks : List Record.Check}
    (h : checks.lookup "converter" = some (Record.check "converter" (readOptional readText)).2)
    (converter : Option String) : ∀ e ∈ converterEntry converter, Record.Passes checks e := by
  cases converter with
  | none => exact nofun
  | some name => simpa [converterEntry] using Record.passes h (reads_text name).optional

/-- A converter has an entry behind the others if it is set, and none if it is not. -/
theorem lookup_converterEntry {es : List (String × Tree)} (h : es.lookup "converter" = none)
    (converter : Option String) :
    (es ++ converterEntry converter).lookup "converter" = converter.map .text := by
  rw [List.lookup_append, h]
  cases converter <;> rfl

/-! ### Members -/

theorem Attribute.reads_tree (source : Source) (a : Attribute) :
    ReadsBack (read source) a.tree a := by
  refine ⟨nofun, fun t ht => ?_⟩
  obtain ⟨r, hr, hshows⟩ := Record.shows_ofTree source "Attribute" fields
    (by cases a.converter <;> simp [countEntry, converterEntry]) ht
  have hscan : r.scan [Record.check "type" readKind, Record.check "offset" readOffset,
      Record.check "is_ptr" readBoolean, Record.check "size" (readOptional readCount),
      Record.check "access" (readAccess source),
      Record.check "converter" (readOptional readText)] = .ok () := by
    refine hshows.scan ?_
    simp only [List.cons_append, List.nil_append, List.forall_mem_cons]
    exact ⟨Record.passes rfl (reads_kind _), Record.passes rfl (reads_offset _),
      Record.passes rfl (reads_boolean _), Record.passes_part rfl reads_count,
      Record.passes rfl (reads_access source _), passes_converterEntry rfl _⟩
  have hkind := hshows.required "type" rfl (reads_kind a.kind)
  have hoffset := hshows.required "offset" rfl (reads_offset a.offset)
  have hindirect := hshows.optional "is_ptr" false rfl (reads_boolean a.indirect)
  have hcapacity := hshows.optional_part "size" (.inl rfl) reads_count
  have haccess := hshows.optional "access" .readWrite rfl (reads_access source a.access)
  have hconverter :=
    hshows.optional_part "converter" (.inr (lookup_converterEntry rfl a.converter)) reads_text
  simp only [read, bind, Except.bind, hr, hscan, hkind, hoffset, hindirect, hcapacity, haccess,
    hconverter, hshows.close, pure, Except.pure]

theorem FunctionSpec.reads_tree (f : FunctionSpec) : ReadsBack read f.tree f := by
  refine ⟨nofun, fun t ht => ?_⟩
  obtain ⟨r, hr, hshows⟩ := Record.shows_ofTable "FunctionSpec"
    (by cases f.converter <;> simp [textEntry, converterEntry]) ht
  have hscan : r.scan [Record.check "binary" readText, Record.check "convention" readConvention,
      Record.check "parameters" readSignature,
      Record.check "converter" (readOptional readText)] = .ok () := by
    refine hshows.scan ?_
    simp only [List.cons_append, List.nil_append, List.forall_mem_cons]
    exact ⟨Record.passes rfl (reads_text _), Record.passes_other rfl, Record.passes_other rfl,
      Record.passes_other rfl, Record.passes rfl (reads_convention _),
      Record.passes rfl (reads_signature _), passes_converterEntry rfl _⟩
  have hsystems : r.scan (["linux", "windows", "macos"].map fun system =>
      Record.check system (readOptional readText)) = .ok () := by
    refine hshows.scan ?_
    simp only [List.cons_append, List.nil_append, List.forall_mem_cons]
    refine ⟨Record.passes_other rfl, Record.passes_part rfl reads_text,
      Record.passes_part rfl reads_text, Record.passes_part rfl reads_text,
      Record.passes_other rfl, Record.passes_other rfl, ?_⟩
    cases f.converter with
    | none => exact nofun
    | some name => simpa [converterEntry] using Record.passes_other rfl
  have hbinary := hshows.required "binary" rfl (reads_text f.binary)
  have hconvention :=
    hshows.optional "convention" .cdecl rfl (reads_convention f.convention)
  have hsignature := hshows.required "parameters" rfl (reads_signature f.signature)
  have hconverter :=
    hshows.optional_part "converter" (.inr (lookup_converterEntry rfl f.converter)) reads_text
  have hlinux := hshows.optional_part "linux" (.inl rfl) reads_text
  have hwindows := hshows.optional_part "windows" (.inl rfl) reads_text
  have hmacos := hshows.optional_part "macos" (.inl rfl) reads_text
  simp only [read, bind, Except.bind, hr, hscan, hbinary, hconvention, hsignature, hconverter,
    hsystems, hlinux, hwindows, hmacos, pure, Except.pure]

theorem VirtualSpec.reads_tree (source : Source) (f : VirtualSpec) :
    ReadsBack (read source) f.tree f := by
  refine ⟨nofun, fun t ht => ?_⟩
  obtain ⟨r, hr, hshows⟩ := Record.shows_ofTree source "VirtualFunctionSpec" fields
    (by cases f.converter <;> simp [converterEntry]) ht
  have hscan : r.scan [Record.check "index" readCount, Record.check "convention" readConvention,
      Record.check "parameters" readSignature, Record.check "platform_check" readBoolean,
      Record.check "converter" (readOptional readText)] = .ok () := by
    refine hshows.scan ?_
    simp only [List.cons_append, List.nil_append, List.forall_mem_cons]
    exact ⟨Record.passes rfl (reads_count _), Record.passes rfl (reads_convention _),
      Record.passes rfl (reads_signature _), Record.passes rfl (reads_boolean _),
      passes_converterEntry rfl _⟩
  have hindex := hshows.required "index" rfl (reads_count f.index)
  have hconvention :=
    hshows.optional "convention" .cdecl rfl (reads_convention f.convention)
  have hsignature := hshows.required "parameters" rfl (reads_signature f.signature)
  have hshifted := hshows.optional "platform_check" true rfl (reads_boolean f.shifted)
  have hconverter :=
    hshows.optional_part "converter" (.inr (lookup_converterEntry rfl f.converter)) reads_text
  simp only [read, bind, Except.bind, hr, hscan, hindex, hconvention, hsignature, hshifted,
    hconverter, hshows.close, pure, Except.pure]

/-! ### Layouts -/

namespace TypeLayout

theorem reads_tree (source : Source) (l : TypeLayout) :
    ReadsBack (read source) l.tree { l with name := "" } := by
  refine ⟨nofun, fun t ht => ?_⟩
  have hattributes := reads_dict fun e (_ : e ∈ l.attributes.entries) => e.2.reads_tree source
  have hfunctions := reads_dict fun e (_ : e ∈ l.functions.entries) => e.2.reads_tree
  have hvirtuals := reads_dict fun e (_ : e ∈ l.virtuals.entries) => e.2.reads_tree source
  obtain ⟨r, hr, hshows⟩ := Record.shows_ofTree source "TypeLayout" fields
    (by simp [countEntry]) ht
  have hscan : r.scan [Record.check "size" (readOptional readCount),
      Record.check "attributes" (readDict (Attribute.read source)),
      Record.check "functions" (readDict FunctionSpec.read),
      Record.check "virtual_functions" (readDict (VirtualSpec.read source))] = .ok () := by
    refine hshows.scan ?_
    simp only [List.forall_mem_cons]
    exact ⟨Record.passes_part rfl reads_count, Record.passes rfl hattributes,
      Record.passes rfl hfunctions, Record.passes rfl hvirtuals, nofun⟩
  have hsize := hshows.optional_part "size" (.inl rfl) reads_count
  have hattributes := hshows.optional "attributes" .empty rfl hattributes
  have hfunctions := hshows.optional "functions" .empty rfl hfunctions
  have hvirtuals := hshows.optional "virtual_functions" .empty rfl hvirtuals
  simp only [read, bind, Except.bind, hr, hscan, hsize, hattributes, hfunctions, hvirtuals,
    hshows.close, pure, Except.pure]

/-- A layout is read back from its tree with everything but its name, so it is the same again
    exactly when it had no name. -/
theorem read_tree_forgets_name (source : Source) (l : TypeLayout) :
    read source l.tree = .ok { l with name := "" } ∧ (read source l.tree = .ok l ↔ l.name = "") := by
  have hread := (l.reads_tree source).ok
  refine ⟨hread, ?_⟩
  rw [hread, Except.ok.injEq]
  constructor
  · exact fun h => (congrArg name h).symm
  · intro h
    cases l
    cases h
    rfl

end TypeLayout

end NativeGate.Layout
