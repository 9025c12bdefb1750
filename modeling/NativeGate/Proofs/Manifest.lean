import NativeGate.Proofs.Config
import NativeGate.Proofs.Pipe

/-!
Manifests with one function. A text is such a manifest for a binary, a symbol, a convention and the
text of a signature if its only function is described by these, and nothing can be wrong with it but
the signature (`Manifests`). What a pipe over it finds is then told by these four alone
(`Manifests.outcome_eq`), and whatever they are, there is such a text (`exists_manifests`).
-/

namespace NativeGate
open Data Layout

/-- The entries describe a function by its binary, its symbol for this system, its convention, which
    may be left out if it is the usual one, and the text of its signature. -/
structure Describes (fields : List (String × Tree)) (binary identifier : String)
    (convention : Convention) (signature : String) : Prop where
  binary : fields.lookup "binary" = some (.text binary)
  symbol : fields.lookup "linux" = some (.text identifier)
  convention :
    (∃ word, fields.lookup "convention" = some (.text word) ∧
      Convention.parse? word = some convention) ∨
    fields.lookup "convention" = none ∧ convention = .cdecl
  signature : fields.lookup "parameters" = some (.text signature)

/-- The text is a manifest with one function, and nothing can be wrong with it but the signature. -/
structure Manifests (text name binary identifier : String) (convention : Convention)
    (signature : String) : Prop where
  declares : ∃ entries fields, Toml.read text = some (.table entries) ∧
    entries.lookup "functions" = some (.table [(name, .table fields)]) ∧
    Describes fields binary identifier convention signature
  readable : ∀ s, Signature.parse signature = .ok s → ∃ c, Config.parse text = .ok c

section
variable {text name binary identifier signature : String} {convention : Convention}

/-- What is read from the entries is what they describe. -/
theorem Describes.of_read {fields : List (String × Tree)} {f : FunctionSpec}
    (h : Describes fields binary identifier convention signature)
    (hread : FunctionSpec.read (.table fields) = .ok f) :
    f.binary = binary ∧ f.symbols.current? = some identifier ∧ f.convention = convention ∧
      Signature.parse signature = .ok f.signature := by
  obtain ⟨-, -, hread⟩ := Except.bind_eq_ok_iff.1 hread
  obtain ⟨b, hbinary, hread⟩ := Except.bind_eq_ok_iff.1 hread
  obtain ⟨c, hconvention, hread⟩ := Except.bind_eq_ok_iff.1 hread
  obtain ⟨s, hsignature, hread⟩ := Except.bind_eq_ok_iff.1 hread
  obtain ⟨converter, -, hread⟩ := Except.bind_eq_ok_iff.1 hread
  obtain ⟨-, -, hread⟩ := Except.bind_eq_ok_iff.1 hread
  obtain ⟨linux, hlinux, hread⟩ := Except.bind_eq_ok_iff.1 hread
  obtain ⟨windows, -, hread⟩ := Except.bind_eq_ok_iff.1 hread
  obtain ⟨macos, -, hread⟩ := Except.bind_eq_ok_iff.1 hread
  cases hread
  simp only [Record.required, h.binary, h.signature] at hbinary hsignature
  simp only [Record.optional, h.symbol] at hlinux hconvention
  cases hbinary
  cases hlinux
  refine ⟨rfl, rfl, ?_, Except.mapError_eq_ok_iff.1 hsignature⟩
  rcases h.convention with ⟨word, hword, hparse⟩ | ⟨hnone, rfl⟩
  · have hok : readConvention (.text word) = .ok convention :=
      (reads_parsed (by rw [hparse]; rfl) : ReadsBack readConvention _ _).ok
    rw [hword] at hconvention
    exact Except.ok.inj (hconvention.symm.trans hok)
  · rw [hnone] at hconvention
    exact (Except.ok.inj hconvention).symm

/-- The functions of a configuration are read from their table. -/
theorem Config.functions_of_read {entries : List (String × Tree)} {t : Tree} {c : Config}
    (ht : entries.lookup "functions" = some t) (h : Config.read .toml (.table entries) = .ok c) :
    readDict FunctionSpec.read t = .ok c.functions := by
  obtain ⟨-, -, h⟩ := Except.bind_eq_ok_iff.1 h
  obtain ⟨logging, -, h⟩ := Except.bind_eq_ok_iff.1 h
  obtain ⟨call, -, h⟩ := Except.bind_eq_ok_iff.1 h
  obtain ⟨functions, hfunctions, h⟩ := Except.bind_eq_ok_iff.1 h
  obtain ⟨types, -, h⟩ := Except.bind_eq_ok_iff.1 h
  obtain ⟨-, -, h⟩ := Except.bind_eq_ok_iff.1 h
  cases h
  simpa only [Record.optional, ht] using hfunctions

/-- A table of one entry is read as the dictionary of that entry. -/
theorem readDict_singleton {α : Type} {read : Reader α} {t : Tree} {d : Dict α}
    (h : readDict read (.table [(name, t)]) = .ok d) :
    ∃ a, read t = .ok a ∧ d = Dict.empty.insert name a := by
  obtain ⟨_, hinsert, hd⟩ := Except.bind_eq_ok_iff.1 h
  obtain ⟨a, ha, rfl⟩ := Except.map_eq_ok_iff.1 hinsert
  exact ⟨a, ha, (Except.ok.inj hd).symm⟩

/-- A manifest that is read has the function that it describes, and nothing is wrong with the
    signature. -/
theorem Manifests.outcome_eq (h : Manifests text name binary identifier convention signature)
    {c : Config} (hc : Config.parse text = .ok c) :
    ∃ s, Signature.parse signature = .ok s ∧ ∀ loader,
      Pipe.outcome loader (Config.default.merge c).functions name =
        (Library.find loader binary).bind fun l =>
          (l.resolve identifier).map fun a => ⟨a, convention, s⟩ := by
  obtain ⟨entries, fields, hread, hfunctions, hdescribes⟩ := h.declares
  rw [Config.parse, hread] at hc
  obtain ⟨f, hf, hdict⟩ := readDict_singleton
    (Config.functions_of_read hfunctions (Except.mapError_eq_ok_iff.1 hc))
  obtain ⟨rfl, hsymbol, rfl, hsignature⟩ := hdescribes.of_read hf
  refine ⟨f.signature, hsignature, fun loader => ?_⟩
  have hfind : (Config.default.merge c).functions.find? name = some f := by
    have hfunctions : (Config.default.merge c).functions = Dict.empty.insert name f := by
      rw [Config.merge, hdict]
      rfl
    rw [hfunctions, Dict.find?_insert, if_pos rfl]
  rw [Pipe.outcome, hfind]
  simp only [hsymbol]

/-- A manifest that is refused has a malformed signature. -/
theorem Manifests.malformed (h : Manifests text name binary identifier convention signature)
    {e : Error} (hc : Config.parse text = .error e) :
    ∃ fault, Signature.parse signature = .error fault := by
  cases hs : Signature.parse signature with
  | error fault => exact ⟨fault, rfl⟩
  | ok s =>
    obtain ⟨c, hread⟩ := h.readable s hs
    rw [hread] at hc
    cases hc

end

/-- The entries of a function in a manifest. -/
def functionEntries (binary identifier : String) (convention : Convention) (signature : String) :
    List (String × Tree) :=
  [("binary", .text binary), ("linux", .text identifier), ("convention", .text convention.name),
    ("parameters", .text signature)]

/-- The function that has a name on this system only. -/
def localSpec (binary identifier : String) (convention : Convention) (s : Signature) :
    FunctionSpec :=
  ⟨binary, ⟨some identifier, none, none⟩, convention, s, none⟩

/-- A manifest with one function. -/
def manifestTree (name binary identifier : String) (convention : Convention) (signature : String) :
    Tree :=
  .table [("functions", .table
    [(name, .table (functionEntries binary identifier convention signature))])]

theorem Data.Kept.eq_of_texts {es es' : List (String × Tree)} (h : Kept Omits es es')
    (htexts : ∀ e ∈ es, ∃ s, e.2 = .text s) : es' = es := by
  induction h with
  | nil => rfl
  | entry here rest ih =>
    obtain ⟨⟨s, rfl⟩, hrest⟩ := List.forall_mem_cons.1 htexts
    cases here
    rw [ih hrest]
  | omitted rest ih =>
    obtain ⟨⟨s, hs⟩, -⟩ := List.forall_mem_cons.1 htexts
    cases hs

section
variable (name binary identifier : String) (convention : Convention) (signature : String)

theorem describes_functionEntries :
    Describes (functionEntries binary identifier convention signature) binary identifier convention
      signature where
  binary := rfl
  symbol := rfl
  convention := .inl ⟨convention.name, rfl, by cases convention <;> decide +kernel⟩
  signature := rfl

theorem regular_manifestTree :
    Toml.Regular 3 (manifestTree name binary identifier convention signature) := by
  have hentries : Toml.Regular 1
      (.table (functionEntries binary identifier convention signature)) := by
    refine Toml.regular_flat 0 ?_ rfl (by simp [functionEntries])
    simp only [functionEntries, List.forall_mem_cons]
    exact ⟨rfl, rfl, rfl, rfl, List.forall_mem_nil _⟩
  have hfunctions := Toml.regular_table [] (List.forall_mem_nil _) (List.forall_mem_nil _)
    (List.forall_mem_singleton.2 hentries : ∀ e ∈ [(name, _)], _) (List.nodup_singleton _)
  exact Toml.regular_table [] (List.forall_mem_nil _) (List.forall_mem_nil _)
    (List.forall_mem_singleton.2 hfunctions) (List.nodup_singleton _)

/-- There are no null entries to leave out. -/
theorem eq_of_omits_manifestTree {t : Tree}
    (h : Omits (manifestTree name binary identifier convention signature) t) :
    t = manifestTree name binary identifier convention signature := by
  obtain ⟨_, rfl, ⟨⟩⟩ := h.exists_table
  rename_i hfunctions hnil
  cases hnil
  obtain ⟨_, rfl, ⟨⟩⟩ := hfunctions.exists_table
  rename_i hentry hnil
  cases hnil
  obtain ⟨_, rfl, hkept⟩ := hentry.exists_table
  have htexts : ∀ e ∈ functionEntries binary identifier convention signature,
      ∃ s, e.2 = .text s := by
    simp [functionEntries]
  rw [hkept.eq_of_texts htexts]
  rfl

/-- What is read from the entries, whatever else may be said of the function. -/
theorem reads_functionEntries {s : Signature} (hs : Signature.parse signature = .ok s) :
    ReadsBack FunctionSpec.read
      (.table (functionEntries binary identifier convention signature))
      (localSpec binary identifier convention s) := by
  refine ⟨nofun, fun t ht => ?_⟩
  obtain ⟨r, hr, hshows⟩ := Record.shows_ofTable "FunctionSpec" (by simp [functionEntries]) ht
  have hreads : ReadsBack readSignature (.text signature) s := reads_parsed (by rw [hs]; rfl)
  have hscan : r.scan [Record.check "binary" readText, Record.check "convention" readConvention,
      Record.check "parameters" readSignature,
      Record.check "converter" (readOptional readText)] = .ok () := by
    refine hshows.scan ?_
    simp only [functionEntries, List.forall_mem_cons]
    exact ⟨Record.passes rfl (reads_text _), Record.passes_other rfl,
      Record.passes rfl (reads_convention _), Record.passes rfl hreads, List.forall_mem_nil _⟩
  have hsystems : r.scan (["linux", "windows", "macos"].map fun system =>
      Record.check system (readOptional readText)) = .ok () := by
    refine hshows.scan ?_
    simp only [functionEntries, List.forall_mem_cons]
    exact ⟨Record.passes_other rfl, Record.passes rfl (reads_text _).optional,
      Record.passes_other rfl, Record.passes_other rfl, List.forall_mem_nil _⟩
  have hbinary := hshows.required "binary" rfl (reads_text binary)
  have hconvention := hshows.optional "convention" .cdecl rfl (reads_convention convention)
  have hsignature := hshows.required "parameters" rfl hreads
  have hconverter := hshows.optional_absent "converter" (readOptional readText) none rfl
  have hlinux := hshows.optional "linux" none rfl (reads_text identifier).optional
  have hwindows := hshows.optional_absent "windows" (readOptional readText) none rfl
  have hmacos := hshows.optional_absent "macos" (readOptional readText) none rfl
  simp only [FunctionSpec.read, bind, Except.bind, hr, hscan, hbinary, hconvention, hsignature,
    hconverter, hsystems, hlinux, hwindows, hmacos, pure, Except.pure, localSpec]

theorem reads_manifestTree {s : Signature} (hs : Signature.parse signature = .ok s) :
    ReadsBack (Config.read .toml) (manifestTree name binary identifier convention signature)
      ⟨.default, .default, Dict.empty.insert name (localSpec binary identifier convention s),
        .empty⟩ := by
  refine ⟨nofun, fun t ht => ?_⟩
  obtain ⟨r, hr, hshows⟩ := Record.shows_ofTree .toml "Config" Config.fields (by simp) ht
  have hentries := reads_functionEntries binary identifier convention signature hs
  have hdict : ReadsBack (readDict FunctionSpec.read)
      (writeDict (fun _ => .table (functionEntries binary identifier convention signature))
        (Dict.empty.insert name (localSpec binary identifier convention s)))
      (Dict.empty.insert name (localSpec binary identifier convention s)) :=
    reads_dict fun e he => by
      rw [List.mem_singleton.1 he]
      exact hentries
  have hscan : r.scan [Record.check "logging" (LoggingConfig.read .toml),
      Record.check "call" (CallConfig.read .toml),
      Record.check "functions" (readDict FunctionSpec.read),
      Record.check "types" (readDict (TypeLayout.read .toml))] = .ok () :=
    hshows.scan (List.forall_mem_singleton.2 (Record.passes rfl hdict))
  have hlogging := hshows.optional_absent "logging" (LoggingConfig.read .toml) .default rfl
  have hcall := hshows.optional_absent "call" (CallConfig.read .toml) .default rfl
  have hfunctions := hshows.optional "functions" .empty rfl hdict
  have htypes := hshows.optional_absent "types" (readDict (TypeLayout.read .toml)) .empty rfl
  simp only [Config.read, bind, Except.bind, hr, hscan, hlogging, hcall, hfunctions, htypes,
    hshows.close, pure, Except.pure]

/-- Every function has a manifest that describes it and no other. -/
theorem exists_manifests : ∃ text, Manifests text name binary identifier convention signature := by
  obtain ⟨t, hread, homits⟩ := Toml.read_print
    (regular_manifestTree name binary identifier convention signature) (by decide)
  rw [eq_of_omits_manifestTree name binary identifier convention signature homits] at hread
  refine ⟨_, ⟨_, _, hread, rfl, describes_functionEntries binary identifier convention signature⟩,
    fun s hs => ?_⟩
  have hconfig := (reads_manifestTree name binary identifier convention signature hs).ok
  exact ⟨_, by rw [Config.parse, hread]; exact Except.mapError_eq_ok_iff.2 hconfig⟩

end

end NativeGate
