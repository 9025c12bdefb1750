import NativeGate.Proofs.Signature

/-!
What is said of a text that is no signature. A text is viable when something can be put behind it
that makes it a signature; the viable texts are the beginnings of parameters, those with the
delimiter behind, and the signatures (`viable_iff`). Reading stops at the first character that makes
the text unviable and names its position and what is wrong with it, and a text without such a
character is told what is missing at its end (`parse_error_located`).
-/

namespace NativeGate

theorem Kind.letter_injective : Function.Injective Kind.letter := by
  intro k k' h
  have hk := Kind.ofLetter?_letter k
  rw [h, Kind.ofLetter?_letter] at hk
  exact (Option.some.inj hk).symm

namespace Signature

/-! ### Texts that can be continued -/

/-- The characters are the text of a signature. -/
def Accepted (cs : List Char) : Prop := ∃ g, parse (String.ofList cs) = .ok g

/-- Some continuation of the characters is the text of a signature. -/
def Viable (cs : List Char) : Prop := ∃ rest, Accepted (cs ++ rest)

/-- The letters of parameters. -/
def Parameters (cs : List Char) : Prop := ∃ ps : List Kind, Kind.void ∉ ps ∧ cs = ps.map Kind.letter

/-- What may stand before the delimiter: parameters, or the mark that there are none. -/
def Head (cs : List Char) : Prop := Parameters cs ∨ cs = [Kind.void.letter]

theorem Parameters.head {cs : List Char} (h : Parameters cs) : Head cs := .inl h

theorem parameters_nil : Parameters [] := ⟨[], by simp, rfl⟩

theorem Parameters.concat {cs : List Char} {k : Kind} (h : Parameters cs) (hk : k ≠ .void) :
    Parameters (cs ++ [k.letter]) := by
  obtain ⟨ps, hps, rfl⟩ := h
  exact ⟨ps ++ [k], by simp [hps, hk.symm], by simp⟩

theorem Head.delimiter_not_mem {cs : List Char} (h : Head cs) : delimiter ∉ cs := by
  rcases h with ⟨ps, _, rfl⟩ | rfl
  · simp only [List.mem_map, not_exists, not_and]
    exact fun k _ => k.letter_ne_delimiter
  · simpa using Kind.void.letter_ne_delimiter.symm

/-- Every character of a head is the letter of a kind. -/
theorem Head.exists_letter {cs : List Char} {c : Char} (h : Head cs) (hc : c ∈ cs) :
    ∃ k : Kind, k.letter = c := by
  rcases h with ⟨ps, _, rfl⟩ | rfl
  · obtain ⟨k, _, hk⟩ := List.mem_map.1 hc
    exact ⟨k, hk⟩
  · exact ⟨.void, (List.mem_singleton.1 hc).symm⟩

/-- The mark stands alone. -/
theorem Head.eq_mark {cs : List Char} (h : Head cs) (hv : Kind.void.letter ∈ cs) :
    cs = [Kind.void.letter] := by
  rcases h with ⟨ps, hps, rfl⟩ | rfl
  · obtain ⟨k, hk, hl⟩ := List.mem_map.1 hv
    exact absurd (Kind.letter_injective hl ▸ hk) hps
  · rfl

theorem Head.of_prefix {cs ds : List Char} (h : Head ds) (hp : cs <+: ds) : Head cs := by
  rcases h with ⟨ps, hps, rfl⟩ | rfl
  · obtain ⟨qs, hqs, rfl⟩ := List.prefix_map_iff.1 hp
    exact .inl ⟨qs, fun hq => hps (hqs.subset hq), rfl⟩
  · rcases List.prefix_concat_iff.1 (show cs <+: [] ++ [Kind.void.letter] from hp) with rfl | hn
    · exact .inr rfl
    · rw [List.prefix_nil.1 hn]
      exact parameters_nil.head

/-- A signature's text is a head, the delimiter and the letter of the result. -/
theorem accepted_iff {cs : List Char} :
    Accepted cs ↔
      ∃ (head : List Char) (k : Kind), Head head ∧ cs = head ++ [delimiter] ++ [k.letter] := by
  constructor
  · rintro ⟨g, hg⟩
    rw [parse_eq_ok_iff_readParams, String.toList_ofList] at hg
    rcases eq_letters_of_readParams hg with rfl | ⟨_, _, rfl⟩
    · exact ⟨_, g.ret, .inl ⟨g.params, g.noVoid, rfl⟩, by simp⟩
    · exact ⟨_, g.ret, .inr rfl, by simp⟩
  · rintro ⟨head, k, ⟨ps, hps, rfl⟩ | rfl, rfl⟩
    · refine ⟨⟨ps, k, hps⟩, ?_⟩
      rw [parse_eq_ok_iff_readParams, String.toList_ofList, List.append_assoc]
      exact readParams_letters hps k 0
    · refine ⟨⟨[], k, by simp⟩, ?_⟩
      rw [parse_eq_ok_iff_readParams, String.toList_ofList]
      exact readParams_marked k

/-- A text can be continued when it is a head, a head with the delimiter, or a signature. -/
theorem viable_iff {cs : List Char} :
    Viable cs ↔ Head cs ∨ (∃ head, Head head ∧ cs = head ++ [delimiter]) ∨ Accepted cs := by
  constructor
  · rintro ⟨rest, h⟩
    obtain ⟨head, k, hh, he⟩ := accepted_iff.1 h
    have hp : cs <+: head ++ [delimiter] ++ [k.letter] := he ▸ List.prefix_append cs rest
    rcases List.prefix_concat_iff.1 hp with rfl | hp
    · exact .inr (.inr (accepted_iff.2 ⟨head, k, hh, rfl⟩))
    · rcases List.prefix_concat_iff.1 hp with rfl | hp
      · exact .inr (.inl ⟨head, hh, rfl⟩)
      · exact .inl (hh.of_prefix hp)
  · rintro (hh | ⟨head, hh, rfl⟩ | h)
    · exact ⟨[delimiter] ++ [Kind.void.letter], accepted_iff.2 ⟨cs, .void, hh, by simp⟩⟩
    · exact ⟨[Kind.void.letter], accepted_iff.2 ⟨head, .void, hh, rfl⟩⟩
    · exact ⟨[], by simpa using h⟩

/-- One more character goes on with the head, ends it, or is the letter of the result. -/
theorem viable_concat_iff {cs : List Char} {c : Char} :
    Viable (cs ++ [c]) ↔ Head (cs ++ [c]) ∨ Head cs ∧ c = delimiter ∨
      ∃ (head : List Char) (k : Kind), Head head ∧ cs = head ++ [delimiter] ∧ c = k.letter := by
  have concat_inj {ds : List Char} {d : Char} : cs ++ [c] = ds ++ [d] ↔ cs = ds ∧ c = d := by
    refine ⟨fun h => ?_, fun h => by rw [h.1, h.2]⟩
    obtain ⟨hcs, hc⟩ := List.append_inj' h rfl
    exact ⟨hcs, List.singleton_inj.1 hc⟩
  simp only [viable_iff, accepted_iff, concat_inj]
  constructor
  · rintro (h | ⟨_, h, rfl, rfl⟩ | ⟨head, k, h, rfl, rfl⟩)
    · exact .inl h
    · exact .inr (.inl ⟨h, rfl⟩)
    · exact .inr (.inr ⟨head, k, h, rfl, rfl⟩)
  · rintro (h | ⟨h, rfl⟩ | ⟨head, k, h, rfl, rfl⟩)
    · exact .inl h
    · exact .inr (.inl ⟨cs, h, rfl, rfl⟩)
    · exact .inr (.inr ⟨head, k, h, rfl, rfl⟩)

/-! ### The character at fault -/

/-- The character `c` is at fault behind the characters that were read, as the verdict says. -/
inductive Offence : List Char → Char → Verdict → Prop
  | badReturn {head : List Char} {c : Char} (hh : Head head) (hc : Kind.ofLetter? c = none) :
      Offence (head ++ [delimiter]) c (.badReturn c (head ++ [delimiter]).length)
  | trailing {cs : List Char} (c : Char) (h : Accepted cs) :
      Offence cs c (.fault (.trailingCharacters cs.length))
  | unclosed {c : Char} (hc : c ≠ delimiter) :
      Offence [Kind.void.letter] c (.fault (.expectedDelimiter 1))
  | void {cs : List Char} (h : Parameters cs) (hne : cs ≠ []) :
      Offence cs Kind.void.letter (.fault (.voidParameter cs.length))
  | unknown {cs : List Char} {c : Char} (h : Parameters cs) (hd : c ≠ delimiter)
      (hc : Kind.ofLetter? c = none) : Offence cs c (.fault (.unknownKind c cs.length))

/-- What the reading of a text meets: its end, before or right behind the delimiter, or a character
    at fault. -/
inductive Meets : List Char → Verdict → Prop
  | unended {cs : List Char} (h : Head cs) : Meets cs (.fault .missingDelimiter)
  | unreturned {head : List Char} (h : Head head) :
      Meets (head ++ [delimiter]) (.fault .missingReturnKind)
  | offence {cs : List Char} {c : Char} {v : Verdict} (h : Offence cs c v) (rest : List Char) :
      Meets (cs ++ c :: rest) v

theorem readReturn_meets {head cs : List Char} {position : Nat} {v : Verdict} (hh : Head head)
    (hp : position = (head ++ [delimiter]).length) (h : readReturn position cs = .error v) :
    Meets (head ++ delimiter :: cs) v := by
  unfold readReturn at h
  split at h
  · cases h
    exact .unreturned hh
  · rename_i c rest
    split at h
    · rename_i hc
      cases h
      rw [hp]
      simpa using Meets.offence (.badReturn hh hc) rest
    · rename_i k hk
      split at h
      · cases h
      · rename_i d tail
        cases h
        rw [hp, ← Kind.letter_of_ofLetter? hk]
        have hacc : Accepted (head ++ [delimiter] ++ [k.letter]) :=
          accepted_iff.2 ⟨head, k, hh, rfl⟩
        simpa using Meets.offence (.trailing d hacc) tail

/-- The reader stops where the text says. The induction carries the parameters read so far, which
    tell the position. -/
theorem readParams_meets {before cs : List Char} {v : Verdict} (hb : Parameters before)
    (h : readParams before.length cs = .error v) : Meets (before ++ cs) v := by
  induction cs generalizing before with
  | nil =>
    cases h
    simpa using Meets.unended hb.head
  | cons c rest ih =>
    unfold readParams at h
    split at h
    case isTrue hc =>
      subst hc
      exact readReturn_meets hb.head (by simp) (Except.map_eq_error_iff.1 h)
    case isFalse hc =>
      split at h
      · rename_i hk
        cases h
        exact .offence (.unknown hb hc hk) rest
      · rename_i hk
        obtain rfl := Kind.letter_of_ofLetter? hk
        split at h
        · rename_i hzero
          obtain rfl := List.length_eq_zero_iff.1 hzero
          split at h
          · cases h
            exact .unended (.inr rfl)
          · rename_i d tail
            split at h
            · rename_i hd
              subst hd
              exact readReturn_meets (.inr rfl) rfl (Except.map_eq_error_iff.1 h)
            · rename_i hd
              cases h
              exact Meets.offence (.unclosed hd) tail
        · rename_i hpos
          cases h
          exact .offence (.void hb fun hn => hpos (by simp [hn])) rest
      · rename_i k hvoid hk
        obtain rfl := Kind.letter_of_ofLetter? hk
        have hne : k ≠ .void := fun hn => hvoid (hn ▸ rfl)
        have hrest := ih (hb.concat hne) (by simpa using Except.map_eq_error_iff.1 h)
        simpa using hrest

/-- The characters before the one at fault are viable, and with it they are not. -/
theorem Offence.boundary {cs : List Char} {c : Char} {v : Verdict} (h : Offence cs c v) :
    Viable cs ∧ ¬ Viable (cs ++ [c]) := by
  rw [viable_iff, viable_concat_iff]
  cases h with
  | @badReturn head _ hh hc =>
    refine ⟨.inr (.inl ⟨head, hh, rfl⟩), ?_⟩
    rintro (h | ⟨h, _⟩ | ⟨_, k, _, _, rfl⟩)
    · exact h.delimiter_not_mem (by simp)
    · exact h.delimiter_not_mem (by simp)
    · rw [Kind.ofLetter?_letter] at hc
      cases hc
  | trailing _ h =>
    refine ⟨.inr (.inr h), ?_⟩
    obtain ⟨head, k, hh, rfl⟩ := accepted_iff.1 h
    rintro (h | ⟨h, _⟩ | ⟨head', k', hh', he, _⟩)
    · exact h.delimiter_not_mem (by simp)
    · exact h.delimiter_not_mem (by simp)
    · have hd : head ++ [delimiter] = head' := (List.append_inj' he rfl).1
      exact hh'.delimiter_not_mem (by simp [← hd])
  | unclosed hc =>
    refine ⟨.inl (.inr rfl), ?_⟩
    rintro (h | ⟨_, hd⟩ | ⟨head, _, _, he, _⟩)
    · simpa using h.eq_mark (by simp)
    · exact hc hd
    · have hd : delimiter ∈ [Kind.void.letter] := by simp [he]
      exact Head.delimiter_not_mem (.inr rfl) hd
  | void h hne =>
    refine ⟨.inl h.head, ?_⟩
    rintro (hv | ⟨_, hd⟩ | ⟨head, _, _, rfl, _⟩)
    · exact hne (by simpa using hv.eq_mark (by simp))
    · exact Kind.void.letter_ne_delimiter hd
    · exact h.head.delimiter_not_mem (by simp)
  | unknown h hd hc =>
    refine ⟨.inl h.head, ?_⟩
    rintro (hv | ⟨_, hd'⟩ | ⟨head, _, _, rfl, _⟩)
    · obtain ⟨k, rfl⟩ := hv.exists_letter (List.mem_append_right _ (List.mem_singleton_self _))
      rw [Kind.ofLetter?_letter] at hc
      cases hc
    · exact hd hd'
    · exact h.head.delimiter_not_mem (by simp)

/-! ### The error -/

/-- The error `e` of a text `s` blames the character `c` behind the characters `before`. Behind the
    delimiter it is no letter of a result, behind a signature it is one too many, behind the mark of
    an empty list it should be the delimiter, and among parameters it is either void or no letter of
    a kind. -/
structure Blames (s : String) (before : List Char) (c : Char) (e : SignatureError) : Prop where
  badReturn : before.getLast? = some delimiter → e = .returnKind c before.length
  trailing : Accepted before → e = .malformed s (.trailingCharacters before.length)
  unclosed : before = ['v'] → e = .malformed s (.expectedDelimiter before.length)
  void : Parameters before → before ≠ [] → c = 'v' → e = .malformed s (.voidParameter before.length)
  unknown : before.getLast? ≠ some delimiter → ¬ Accepted before → before ≠ ['v'] →
    ¬ (Parameters before ∧ before ≠ [] ∧ c = 'v') → e = .malformed s (.unknownKind c before.length)

/-- The error that a verdict on a text is reported as. -/
def Verdict.error (s : String) : Verdict → SignatureError
  | .fault f => .malformed s f
  | .badReturn c position => .returnKind c position

theorem Accepted.delimiter_mem {cs : List Char} (h : Accepted cs) : delimiter ∈ cs := by
  obtain ⟨head, k, _, rfl⟩ := accepted_iff.1 h
  simp

theorem Accepted.getLast?_ne {cs : List Char} (h : Accepted cs) :
    cs.getLast? ≠ some delimiter := by
  obtain ⟨head, k, _, rfl⟩ := accepted_iff.1 h
  simpa using k.letter_ne_delimiter

theorem Parameters.mark_not_mem {cs : List Char} (h : Parameters cs) :
    Kind.void.letter ∉ cs := by
  obtain ⟨ps, hps, rfl⟩ := h
  intro hv
  obtain ⟨k, hk, hl⟩ := List.mem_map.1 hv
  exact hps (Kind.letter_injective hl ▸ hk)

theorem mark_no_delimiter : delimiter ∉ [Kind.void.letter] := Head.delimiter_not_mem (.inr rfl)

theorem Offence.blames {cs : List Char} {c : Char} {v : Verdict} (h : Offence cs c v)
    (s : String) : Blames s cs c (v.error s) := by
  cases h with
  | badReturn hh hc =>
    exact {
      badReturn := fun _ => rfl
      trailing := fun h => absurd (by simp) h.getLast?_ne
      unclosed := fun h => absurd (h ▸ List.mem_append_right _ (by simp)) mark_no_delimiter
      void := fun h => absurd (by simp) h.head.delimiter_not_mem
      unknown := fun h => absurd (by simp) h }
  | trailing _ h =>
    exact {
      badReturn := fun h' => absurd h' h.getLast?_ne
      trailing := fun _ => rfl
      unclosed := fun h' => absurd (h' ▸ h.delimiter_mem) mark_no_delimiter
      void := fun h' => absurd h.delimiter_mem h'.head.delimiter_not_mem
      unknown := fun _ h' => absurd h h' }
  | unclosed hc =>
    exact {
      badReturn := fun h => absurd (List.mem_of_getLast? h) mark_no_delimiter
      trailing := fun h => absurd h.delimiter_mem mark_no_delimiter
      unclosed := fun _ => rfl
      void := fun h => absurd (by simp) h.mark_not_mem
      unknown := fun _ _ h => absurd rfl h }
  | void h hne =>
    exact {
      badReturn := fun h' => absurd (List.mem_of_getLast? h') h.head.delimiter_not_mem
      trailing := fun h' => absurd h'.delimiter_mem h.head.delimiter_not_mem
      unclosed := fun h' => absurd (h' ▸ by simp [Kind.letter]) h.mark_not_mem
      void := fun _ _ _ => rfl
      unknown := fun _ _ _ h' => absurd ⟨h, hne, rfl⟩ h' }
  | unknown h hd hc =>
    exact {
      badReturn := fun h' => absurd (List.mem_of_getLast? h') h.head.delimiter_not_mem
      trailing := fun h' => absurd h'.delimiter_mem h.head.delimiter_not_mem
      unclosed := fun h' => absurd (h' ▸ by simp [Kind.letter]) h.mark_not_mem
      void := fun _ _ h' => by rw [h'] at hc; cases hc
      unknown := fun _ _ _ _ => rfl }

theorem ofChars_eq_error_iff {cs : List Char} {v : Verdict} :
    ofChars cs = .error v ↔ readParams 0 cs = .error v := by
  unfold ofChars
  split <;> rename_i h <;> simp [h]

theorem meets_of_parse {s : String} {e : SignatureError} (h : parse s = .error e) :
    ∃ v, Meets s.toList v ∧ e = v.error s := by
  unfold parse at h
  cases hv : ofChars s.toList with
  | ok g =>
    rw [hv] at h
    cases h
  | error v =>
    rw [hv] at h
    have hmeets := readParams_meets parameters_nil (ofChars_eq_error_iff.1 hv)
    refine ⟨v, by simpa using hmeets, ?_⟩
    cases v <;> cases h <;> rfl

theorem Viable.of_append {cs rest : List Char} (h : Viable (cs ++ rest)) : Viable cs := by
  obtain ⟨more, h⟩ := h
  exact ⟨rest ++ more, by rwa [← List.append_assoc]⟩

/-- The error of a refused text tells where the text went wrong. A text that could still be
    continued is told that the delimiter is missing, or behind a delimiter that the result is. Any
    other text has a first character with which it cannot be continued any more; the error gives the
    position of that character, counted in characters, and blames it for what it is. -/
theorem parse_error_located (s : String) (e : SignatureError) (h : parse s = .error e) :
    (Viable s.toList → e = .malformed s
      (if delimiter ∈ s.toList then .missingReturnKind else .missingDelimiter)) ∧
    (¬ Viable s.toList → ∃ (before : List Char) (c : Char) (rest : List Char),
      s.toList = before ++ c :: rest ∧ Viable before ∧ ¬ Viable (before ++ [c]) ∧
      Blames s before c e) := by
  obtain ⟨v, hmeets, rfl⟩ := meets_of_parse h
  generalize s.toList = text at hmeets ⊢
  cases hmeets with
  | unended hh =>
    refine ⟨fun _ => ?_, fun hn => absurd (viable_iff.2 (.inl hh)) hn⟩
    rw [if_neg hh.delimiter_not_mem]
    rfl
  | @unreturned head hh =>
    refine ⟨fun _ => ?_, fun hn => absurd (viable_iff.2 (.inr (.inl ⟨head, hh, rfl⟩))) hn⟩
    rw [if_pos (by simp)]
    rfl
  | @offence before c _ ho rest =>
    obtain ⟨hv, hn⟩ := ho.boundary
    have hcut : before ++ c :: rest = before ++ [c] ++ rest := by simp
    exact ⟨fun h => absurd (hcut ▸ h).of_append hn,
      fun _ => ⟨before, c, rest, rfl, hv, hn, ho.blames s⟩⟩

/-- Behind a letter, a character of several bytes is at fault at position one. -/
theorem parse_error_located_arrow :
    parse "i→)v" = .error (.malformed "i→)v" (.unknownKind '→' 1)) ∧
    ∃ (before : List Char) (c : Char) (rest : List Char),
      "i→)v".toList = before ++ c :: rest ∧ Viable before ∧ ¬ Viable (before ++ [c]) ∧
      Blames "i→)v" before c (.malformed "i→)v" (.unknownKind '→' 1)) := by
  have h : parse "i→)v" = .error (.malformed "i→)v" (.unknownKind '→' 1)) := by rfl
  obtain ⟨hviable, hblames⟩ := parse_error_located "i→)v" _ h
  refine ⟨h, hblames fun hv => ?_⟩
  have he := hviable hv
  revert he
  decide

end Signature

end NativeGate
