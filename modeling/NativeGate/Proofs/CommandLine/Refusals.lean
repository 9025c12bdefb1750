import NativeGate.CommandLine.Words
import NativeGate.Proofs.Outcome
import NativeGate.Proofs.Text.Utf8

/-!
Words that are refused. The refusal of a word names the parameter that the word is for, by position
and kind, wherever the reading stops: at a truth value, at a number, at an integer, or where what
was read is fitted to the parameter. Only a text with a zero character is refused under position
zero, whichever parameter it is for. Of several words the first that cannot be read is refused, so
the refusal tells which one it was (`refusal_names_word`).
-/

namespace NativeGate

/-- What does not fit a parameter is refused under its position and kind; nothing fits void. -/
theorem Value.coerce_eq_error {v : Value} {k : Kind} {i : Nat} {e : Error}
    (h : v.coerce k i = .error e) :
    k = .void ∧ e = .unsupportedType .voidParameter ∨ ∃ found, e = .argumentType i k found := by
  unfold coerce at h
  split at h
  · cases h
  · cases Except.error.inj h
    cases k with
    | void => exact .inl ⟨rfl, rfl⟩
    | _ => exact .inr ⟨_, rfl⟩

/-- A text fails to be a string for a zero character, and then at position zero. -/
theorem Value.ofText_eq_error_iff {text : String} {e : Error} :
    ofText text = .error e ↔
      '\x00' ∈ text.toList ∧ e = .argumentType 0 .string .interiorNul := by
  rw [ofText, CString.of?, ← Text.zero_mem_utf8_iff]
  split
  · rename_i hs
    split at hs
    · cases hs
    · rename_i hzero
      refine ⟨fun h => ?_, fun h => absurd h.1 hzero⟩
      cases h
  · rename_i hs
    split at hs
    · rename_i hzero
      exact ⟨fun h => ⟨hzero, (Except.error.inj h).symm⟩, fun h => congrArg _ h.2.symm⟩
    · cases hs

namespace CommandLine

/-! ### One word -/

section
variable {b : Build} {text : String} {k : Kind} {index : Nat} {e : Error} {f : Failure}

/-- A string goes through fitting as it is, so a word for a string is refused just for a zero
    character. -/
theorem readWord_string_eq_error_iff :
    readWord b text .string index = .error f ↔
      '\x00' ∈ text.toList ∧ f = .refused (.argumentType 0 .string .interiorNul) := by
  have hstring : ∀ {v}, Value.ofText text = .ok v → v.coerce .string index = .ok v := fun h => by
    unfold Value.ofText at h
    split at h <;> cases h
    rfl
  have hzero : (∃ e, Value.ofText text = .error e ∧ Failure.refused e = f) ↔
      '\x00' ∈ text.toList ∧ f = .refused (.argumentType 0 .string .interiorNul) := by
    constructor
    · rintro ⟨e, he, rfl⟩
      obtain ⟨hz, rfl⟩ := Value.ofText_eq_error_iff.1 he
      exact ⟨hz, rfl⟩
    · rintro ⟨hz, rfl⟩
      exact ⟨_, Value.ofText_eq_error_iff.2 ⟨hz, rfl⟩, rfl⟩
  rw [readWord, rawWord]
  split
  · rename_i hnull
    subst hnull
    exact ⟨nofun, fun h => absurd h.1 (by decide)⟩
  · rw [← hzero, ← Except.mapError_eq_error_iff]
    cases hread : Value.ofText text with
    | error e' => exact Iff.rfl
    | ok v =>
      simp only [Except.mapError, Except.bind, hstring hread]

/-- Before it is fitted, a word for anything but a string is refused as it stands. -/
theorem rawWord_eq_refused (hk : k ≠ .string) (h : rawWord b text k index = .error (.refused e)) :
    e = .argumentType index k (.word text) := by
  have hcounted : ((integer? b text.toList).mapError Failure.stopped).bind
      (fun n => taken text k index (n.bind widest?)) = .error (.refused e) →
      e = .argumentType index k (.word text) := fun h => by
    rcases Except.bind_eq_error_iff.1 h with h | ⟨n, -, h⟩
    · obtain ⟨_, -, ⟨⟩⟩ := Except.mapError_eq_error_iff.1 h
    · exact Failure.refused.inj (taken_eq_error_iff.1 h).2
  cases k with
  | string => exact absurd rfl hk
  | bool | float | double => exact Failure.refused.inj (taken_eq_error_iff.1 h).2
  | void | integer t => exact hcounted h
  | pointer =>
    rw [rawWord] at h
    split at h
    · cases h
    · exact hcounted h

/-- The position that the refusal of a word names: the one given, unless the word is for a string
    and has a zero character. -/
def namedPosition (text : String) (k : Kind) (index : Nat) : Nat :=
  if k = .string ∧ '\x00' ∈ text.toList then 0 else index

theorem readWord_eq_refused (h : readWord b text k index = .error (.refused e)) :
    k = .void ∧ e = .unsupportedType .voidParameter ∨
      ∃ found, e = .argumentType (namedPosition text k index) k found := by
  by_cases hk : k = .string
  · subst hk
    obtain ⟨hzero, he⟩ := readWord_string_eq_error_iff.1 h
    obtain rfl := Failure.refused.inj he
    exact .inr ⟨_, by rw [namedPosition, if_pos ⟨rfl, hzero⟩]⟩
  · rw [namedPosition, if_neg fun hs => hk hs.1]
    rcases Except.bind_eq_error_iff.1 h with hraw | ⟨v, -, hfit⟩
    · exact .inr ⟨_, rawWord_eq_refused hk hraw⟩
    · obtain ⟨_, hcoerce, ⟨⟩⟩ := Except.mapError_eq_error_iff.1 hfit
      exact Value.coerce_eq_error hcoerce

end

/-! ### Several words -/

/-- The word at `i` cannot be read for the parameter there, and is the first such word. The
    parameters are counted from `n` on. -/
structure FirstUnread (b : Build) (n : Nat) (words : List String) (kinds : List Kind) (i : Nat)
    (text : String) (k : Kind) (f : Failure) : Prop where
  word : words[i]? = some text
  kind : kinds[i]? = some k
  unread : readWord b text k (n + i) = .error f
  before : ∀ j < i, ∀ (text : String) (k : Kind), words[j]? = some text → kinds[j]? = some k →
    ∃ v, readWord b text k (n + j) = .ok v

section
variable {b : Build} {n : Nat} {words : List String} {kinds : List Kind} {f : Failure}

theorem exists_firstUnread_cons {text : String} {k : Kind} {v : Value}
    (hv : readWord b text k n = .ok v) :
    (∃ i text' k', FirstUnread b n (text :: words) (k :: kinds) i text' k' f) ↔
      ∃ i text' k', FirstUnread b (n + 1) words kinds i text' k' f := by
  constructor
  · rintro ⟨_ | i, text', k', hword, hkind, hunread, hbefore⟩
    · cases hword
      cases hkind
      rw [Nat.add_zero, hv] at hunread
      cases hunread
    · refine ⟨i, text', k', hword, hkind, by rwa [Nat.add_right_comm], fun j hj text k ht hk => ?_⟩
      obtain ⟨w, hw⟩ := hbefore (j + 1) (Nat.succ_lt_succ hj) text k ht hk
      exact ⟨w, by rwa [Nat.add_right_comm]⟩
  · rintro ⟨i, text', k', hword, hkind, hunread, hbefore⟩
    refine ⟨i + 1, text', k', hword, hkind, by rwa [Nat.add_right_comm] at hunread, ?_⟩
    rintro (_ | j) hj text k ht hk
    · cases ht
      cases hk
      exact ⟨v, hv⟩
    · obtain ⟨w, hw⟩ := hbefore j (Nat.lt_of_succ_lt_succ hj) text k ht hk
      exact ⟨w, by rwa [Nat.add_right_comm] at hw⟩

/-- Reading from left to right ends at the first word that cannot be read, and fails only for
    one. -/
theorem readWordsFrom_eq_error_iff :
    readWordsFrom b n words kinds = .error f ↔
      ∃ i text k, FirstUnread b n words kinds i text k f := by
  induction words generalizing n kinds with
  | nil => exact ⟨nofun, fun ⟨_, _, _, h⟩ => nomatch h.word⟩
  | cons text words ih =>
    cases kinds with
    | nil => exact ⟨nofun, fun ⟨_, _, _, h⟩ => nomatch h.kind⟩
    | cons k kinds =>
      rw [readWordsFrom, Except.bind_eq_error_iff]
      cases hread : readWord b text k n with
      | ok v =>
        rw [exists_firstUnread_cons hread, ← ih]
        simp [Except.map_eq_error_iff]
      | error f' =>
        constructor
        · rintro (hf | ⟨v, hv, -⟩)
          · cases hf
            exact ⟨0, text, k, rfl, rfl, hread, fun j hj => absurd hj (Nat.not_lt_zero j)⟩
          · cases hv
        · rintro ⟨_ | i, text', k', hword, hkind, hunread, hbefore⟩
          · cases hword
            cases hkind
            exact .inl (hread.symm.trans hunread)
          · obtain ⟨v, hv⟩ := hbefore 0 (Nat.succ_pos i) text k rfl rfl
            rw [Nat.add_zero, hread] at hv
            cases hv

theorem readWords_eq_error_iff {s : Signature} :
    readWords b s words = .error f ↔
      words.length ≠ s.arity ∧ f = .refused (.argumentCount s.arity words.length) ∨
        words.length = s.arity ∧ ∃ i text k, FirstUnread b 0 words s.params i text k f := by
  rw [readWords, ← readWordsFrom_eq_error_iff]
  split
  · rename_i hcount
    simp [Ne.symm hcount, eq_comm]
  · rename_i hcount
    simp [(not_not.1 hcount).symm]

end

/-- Whom the refusal of a word names, in every build. A word that is refused for a kind other than
    void is refused by an error that names this kind and the given position, unless the word is for
    a string and has a zero character: that one is always refused, under position zero. Words are
    refused for their number, or else because there is a first word that cannot be read for its
    parameter; its refusal is reported, under the position of the word but in that case. The build
    stops at words where it stops at the first that cannot be read. -/
theorem refusal_names_word (b : Build) (text : String) (k : Kind) (index : Nat) (s : Signature)
    (words : List String) :
    (∀ e, readWord b text k index = .error (.refused e) →
      k = .void ∧ e = .unsupportedType .voidParameter ∨
        ∃ found, e = .argumentType (namedPosition text k index) k found) ∧
    ('\x00' ∈ text.toList →
      readWord b text .string index =
        .error (.refused (.argumentType 0 .string .interiorNul))) ∧
    (∀ f, readWords b s words = .error f ↔
      words.length ≠ s.arity ∧ f = .refused (.argumentCount s.arity words.length) ∨
        words.length = s.arity ∧ ∃ i text k, FirstUnread b 0 words s.params i text k f) ∧
    ∀ e i text k, FirstUnread b 0 words s.params i text k (.refused e) →
      ∃ found, e = .argumentType (namedPosition text k i) k found := by
  refine ⟨fun _ h => readWord_eq_refused h,
    fun h => readWord_string_eq_error_iff.2 ⟨h, rfl⟩,
    fun f => readWords_eq_error_iff, fun e i text k h => ?_⟩
  have hvoid : k ≠ .void := by
    rintro rfl
    exact s.noVoid (List.mem_of_getElem? h.kind)
  have hnamed := (readWord_eq_refused h.unread).resolve_left fun hv => hvoid hv.1
  rwa [Nat.zero_add] at hnamed

/-- A string with a zero character is refused under position zero, though it is for the parameter at
    three; as the second of two words it hides behind the first. -/
theorem zero_character_refused_elsewhere :
    readWord .checked "a\x00b" .string 3 =
        .error (.refused (.argumentType 0 .string .interiorNul)) ∧
      readWords .checked ⟨[.string, .string], .void, by decide⟩ ["a", "\x00"] =
        .error (.refused (.argumentType 0 .string .interiorNul)) ∧
      ¬ ∀ (text : String) (k k' : Kind) (index i : Nat) (found : Found),
        readWord .checked text k index = .error (.refused (.argumentType i k' found)) →
          i = index ∧ k' = k := by
  have hword : readWord .checked "a\x00b" .string 3 =
      .error (.refused (.argumentType 0 .string .interiorNul)) := by decide
  exact ⟨hword, by decide, fun h => absurd (h _ _ _ _ _ _ hword).1 (by decide)⟩

end CommandLine

end NativeGate
