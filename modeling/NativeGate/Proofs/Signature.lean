import Mathlib.Logic.Function.Defs
import NativeGate.Proofs.Outcome
import NativeGate.Signature

/-!
The language of signatures. A signature has one canonical text, and reading accepts that text, the
same text behind a lone `v` when there are no parameters, and nothing else (`parse_eq_ok_iff`). A
list of kinds makes a signature exactly when void is not among them (`make_eq_ok_iff`), and what was
made is read back from its text.
-/

namespace NativeGate

theorem Kind.letter_ne_delimiter (k : Kind) : k.letter ≠ Signature.delimiter := by
  intro h
  have hk := Kind.ofLetter?_letter k
  rw [h] at hk
  cases hk

namespace Signature

/-! ### The reader against the letters -/

theorem readReturn_eq_ok_iff {position : Nat} {cs : List Char} {k : Kind} :
    readReturn position cs = .ok k ↔ cs = [k.letter] := by
  constructor
  · intro h
    unfold readReturn at h
    split at h
    · cases h
    · split at h
      · cases h
      · rename_i k' hk'
        split at h
        · cases h
          rw [Kind.letter_of_ofLetter? hk']
        · cases h
  · rintro rfl
    simp only [readReturn, Kind.ofLetter?_letter]

/-- The letters of kinds that are not void, the delimiter and the letter of the result are read as
    they were written, wherever they begin. -/
theorem readParams_letters {ps : List Kind} (h : Kind.void ∉ ps) (ret : Kind) (position : Nat) :
    readParams position (ps.map Kind.letter ++ [delimiter, ret.letter]) = .ok (ps, ret) := by
  induction ps generalizing position with
  | nil =>
    rw [List.map_nil, List.nil_append, readParams, if_pos rfl, Except.map_eq_ok_iff]
    exact ⟨ret, readReturn_eq_ok_iff.2 rfl, rfl⟩
  | cons k ps ih =>
    rw [List.mem_cons, not_or] at h
    rw [List.map_cons, List.cons_append]
    unfold readParams
    rw [if_neg k.letter_ne_delimiter, Kind.ofLetter?_letter]
    cases k with
    | void => exact absurd rfl h.1
    | _ => simp only [ih h.2]; rfl

/-- At the very beginning a `v` may mark that there are no parameters. -/
theorem readParams_marked (ret : Kind) :
    readParams 0 (Kind.void.letter :: [delimiter, ret.letter]) = .ok ([], ret) := by
  rw [readParams, if_neg Kind.void.letter_ne_delimiter, Kind.ofLetter?_letter]
  simp only [if_true]
  rw [Except.map_eq_ok_iff]
  exact ⟨ret, readReturn_eq_ok_iff.2 rfl, rfl⟩

/-- Nothing else is read. -/
theorem eq_letters_of_readParams {position : Nat} {cs : List Char} {ps : List Kind} {ret : Kind}
    (h : readParams position cs = .ok (ps, ret)) :
    cs = ps.map Kind.letter ++ [delimiter, ret.letter] ∨
      position = 0 ∧ ps = [] ∧ cs = Kind.void.letter :: [delimiter, ret.letter] := by
  induction cs generalizing position ps with
  | nil => cases h
  | cons c rest ih =>
    unfold readParams at h
    split at h
    case isTrue hc =>
      obtain ⟨k, hk, hr⟩ := Except.map_eq_ok_iff.1 h
      cases hr
      rw [hc, readReturn_eq_ok_iff.1 hk]
      exact .inl rfl
    case isFalse hc =>
      split at h
      · cases h
      · rename_i hvoid
        split at h
        · rename_i hzero
          split at h
          · cases h
          · split at h
            · rename_i hd
              obtain ⟨k, hk, hr⟩ := Except.map_eq_ok_iff.1 h
              cases hr
              rw [hd, readReturn_eq_ok_iff.1 hk, ← Kind.letter_of_ofLetter? hvoid]
              exact .inr ⟨hzero, rfl, rfl⟩
            · cases h
        · cases h
      · rename_i k _ hk
        obtain ⟨⟨qs, r⟩, hr, hq⟩ := Except.map_eq_ok_iff.1 h
        cases hq
        -- behind a parameter the position is not zero, so no mark of an empty list is read there
        have hrest := (ih hr).resolve_right fun hmarked => absurd hmarked.1 (Nat.succ_ne_zero _)
        rw [hrest, ← Kind.letter_of_ofLetter? hk]
        exact .inl rfl

/-! ### Texts of signatures -/

theorem toList_text (g : Signature) : g.text.toList = g.toChars := String.toList_ofList

theorem toList_marked (g : Signature) : ("v" ++ g.text).toList = Kind.void.letter :: g.toChars := by
  rw [String.toList_append, toList_text]
  rfl

theorem ofChars_eq_ok_iff {cs : List Char} {g : Signature} :
    ofChars cs = .ok g ↔ readParams 0 cs = .ok (g.params, g.ret) := by
  unfold ofChars
  split
  · rename_i v hv
    rw [hv]
    simp
  · rename_i ps ret hr
    obtain ⟨params, ret', hvoid⟩ := g
    rw [Except.ok.injEq, Signature.mk.injEq, hr, Except.ok.injEq, Prod.mk.injEq]

theorem parse_eq_ok_iff_readParams {s : String} {g : Signature} :
    parse s = .ok g ↔ readParams 0 s.toList = .ok (g.params, g.ret) := by
  rw [← ofChars_eq_ok_iff, parse, Except.mapError_eq_ok_iff]

/-- A text is read as a signature when it is the signature's own text, or that text behind the mark
    of an empty list of parameters. -/
theorem parse_eq_ok_iff {s : String} {g : Signature} :
    parse s = .ok g ↔ s = g.text ∨ g.params = [] ∧ s = "v" ++ g.text := by
  rw [parse_eq_ok_iff_readParams]
  constructor
  · intro h
    rcases eq_letters_of_readParams h with hs | ⟨_, hps, hs⟩
    · exact .inl (String.toList_injective (by rw [hs, toList_text, toChars]))
    · refine .inr ⟨hps, String.toList_injective ?_⟩
      rw [hs, toList_marked, toChars, hps]
      rfl
  · rintro (rfl | ⟨hps, rfl⟩)
    · rw [toList_text]
      exact readParams_letters g.noVoid g.ret 0
    · rw [toList_marked, toChars, hps]
      exact readParams_marked g.ret

theorem parse_text (g : Signature) : parse g.text = .ok g := parse_eq_ok_iff.2 (.inl rfl)

theorem make_eq_ok_iff {ps : List Kind} {ret : Kind} {g : Signature} :
    make ps ret = .ok g ↔ Kind.void ∉ ps ∧ g.params = ps ∧ g.ret = ret := by
  unfold make
  split
  · rename_i position hp
    obtain ⟨hlt, hvoid, _⟩ := List.findIdx?_eq_some_iff_getElem.1 hp
    have hmem : Kind.void ∈ ps := by
      rw [← eq_of_beq hvoid]
      exact List.getElem_mem hlt
    simp [hmem]
  · rename_i hp
    have hmem : Kind.void ∉ ps := by
      intro hmem
      simpa using List.findIdx?_eq_none_iff.1 hp Kind.void hmem
    obtain ⟨params, ret', hvoid⟩ := g
    simp [hmem, eq_comm]

theorem exists_make_iff {ps : List Kind} {ret : Kind} :
    (∃ g, make ps ret = .ok g) ↔ Kind.void ∉ ps := by
  constructor
  · rintro ⟨g, hg⟩
    exact (make_eq_ok_iff.1 hg).1
  · intro h
    exact ⟨⟨ps, ret, h⟩, make_eq_ok_iff.2 ⟨h, rfl, rfl⟩⟩

/-- The language of signatures, and the signatures that can be made. Reading accepts the canonical
    text of a signature, and with a `v` in front where there are no parameters. Kinds make a
    signature when none of them is void, one more parameter may be put in front unless it is void,
    and either way the text gives back the kinds that went in. So no parameter is ever void, and a
    text belongs to one signature. -/
theorem signature_language :
    (∀ (s : String) (g : Signature),
      parse s = .ok g ↔ s = g.text ∨ g.params = [] ∧ s = "v" ++ g.text) ∧
    (∀ (ps : List Kind) (ret : Kind),
      ((∃ g, make ps ret = .ok g) ↔ Kind.void ∉ ps) ∧
      ∀ g, make ps ret = .ok g → ∃ g', parse g.text = .ok g' ∧ g'.params = ps ∧ g'.ret = ret) ∧
    (∀ (g : Signature) (k : Kind),
      ((∃ g', g.withLeading k = .ok g') ↔ k ≠ .void) ∧
      ∀ g', g.withLeading k = .ok g' → g'.params = k :: g.params ∧ g'.ret = g.ret) ∧
    (∀ (s : String) (ps : List Kind) (ret : Kind),
      readParams 0 s.toList = .ok (ps, ret) → Kind.void ∉ ps) ∧
    (∀ g : Signature, Kind.void ∉ g.params) ∧
    Function.Injective text := by
  refine ⟨fun s g => parse_eq_ok_iff, fun ps ret => ⟨exists_make_iff, fun g hg => ?_⟩,
    fun g k => ⟨?_, fun g' hg => (make_eq_ok_iff.1 hg).2⟩,
    fun _ _ _ h => void_not_mem_of_readParams h, fun g => g.noVoid, fun g g' h => ?_⟩
  · exact ⟨g, parse_text g, (make_eq_ok_iff.1 hg).2⟩
  · have hvoid : Kind.void ∉ k :: g.params ↔ k ≠ .void := by
      rw [List.mem_cons, not_or]
      exact ⟨fun h => Ne.symm h.1, fun h => ⟨Ne.symm h, g.noVoid⟩⟩
    exact exists_make_iff.trans hvoid
  · have hg : parse g.text = .ok g' := h ▸ parse_text g'
    rw [parse_text, Except.ok.injEq] at hg
    exact hg

end Signature

end NativeGate
