import NativeGate.Toml.Printer

/-!
Texts read back. Every form that a text is written in is read as the text (`string_stringForm`), and
so is every form of a part of a key (`simpleKey_keyForm`). Escapes are undone character by
character; in the forms without escapes and in those of several lines the marks that close the form
have to be told from those inside it.
-/

namespace NativeGate.Toml

/-! ### Characters -/

/-- A plain character needs no escape, and only a line feed needs none without being plain. -/
theorem isPlain_eq (c : Char) : isPlain c = (!needsEscape c && c ≠ '\n') := by
  unfold isPlain needsEscape
  by_cases htab : c = '\t'
  · subst htab
    decide
  · by_cases hfeed : c = '\n'
    · subst hfeed
      decide
    · simp [htab, hfeed, Bool.not_or]
      grind

/-- The escape of a control character by its code point. -/
theorem codePoint?_padded : ∀ n < 128,
    ((Text.padded 16 4 n).toUpper.toList.length = 4 ∧
      codePoint? (Text.padded 16 4 n).toUpper.toList = some (Char.ofNat n)) := by
  decide +kernel

theorem lt_of_needsEscape {c : Char} (h : needsEscape c) : c.toNat < 128 := by
  simp [needsEscape] at h
  omega

/-- What an escape sequence or a character that stands for itself looks like. -/
inductive Escape (c : Char) : List Char → Prop
  | plain (hplain : isPlain c) (hquote : c ≠ '"') (hslash : c ≠ '\\') : Escape c [c]
  | letter {x : Char} (h : letterEscape? x = some c) : Escape c ['\\', x]
  | code {x y z u : Char} (h : codePoint? [x, y, z, u] = some c) : Escape c ['\\', 'u', x, y, z, u]

theorem escape_escaped (c : Char) : Escape c (escaped c).toList := by
  unfold escaped
  split
  case h_8 hbell htab hfeed hform hreturn hquote hslash =>
    split
    · rename_i hescape
      obtain ⟨hlength, hcode⟩ := codePoint?_padded _ (lt_of_needsEscape hescape)
      rw [Char.ofNat_toNat] at hcode
      rw [String.toList_append]
      generalize (Text.padded 16 4 _).toUpper.toList = digits at hlength hcode
      match digits, hlength with
      | [x, y, z, u], _ => exact .code hcode
    · rename_i hescape
      rw [String.toList_singleton]
      refine .plain ?_ hquote hslash
      rw [isPlain_eq]
      simpa [hescape] using hfeed
  all_goals exact .letter rfl

/-- An escape is read as its character, on one line and between triple marks. -/
theorem basic_escape {c : Char} {form : List Char} (h : Escape c form) (rest : List Char) :
    basic (form ++ rest) = before c (basic rest) := by
  cases h with
  | plain hplain hquote hslash => simp [basic, hplain, hslash]
  | letter h =>
    unfold letterEscape? at h
    split at h <;> cases h <;> rfl
  | code h => simp [basic, h]

theorem basicLines_escape {c : Char} {form : List Char} (h : Escape c form) (hfeed : c ≠ '\n')
    (rest : List Char) :
    basicLines .nothing (form ++ rest) = before c (basicLines .nothing rest) := by
  cases h with
  | plain hplain hquote hslash =>
    have hreturn : c ≠ '\r' := by
      rintro rfl
      cases hplain
    rw [List.singleton_append, basicLines.eq_def]
    simp [hplain, hquote, hslash, hfeed, hreturn]
  | letter h =>
    rw [List.cons_append, basicLines.eq_def]
    unfold letterEscape? at h
    split at h <;> cases h <;> rfl
  | code h => simp [basicLines, h]

/-! ### Strings of one line -/

theorem toList_join_cons (c : Char) (cs : List Char) :
    (String.join ((c :: cs).map escaped)).toList =
      (escaped c).toList ++ (String.join (cs.map escaped)).toList := by
  rw [List.map_cons, String.join_cons, String.toList_append]

theorem toList_basicForm (cs rest : List Char) :
    (basicForm cs).toList ++ rest =
      '"' :: ((String.join (cs.map escaped)).toList ++ '"' :: rest) := by
  simp [basicForm]

theorem toList_literalForm (cs rest : List Char) :
    (literalForm cs).toList ++ rest = '\'' :: (cs ++ '\'' :: rest) := by
  simp [literalForm]

/-- What was escaped is read up to its closing mark. -/
theorem basic_escaped (cs rest : List Char) :
    basic ((String.join (cs.map escaped)).toList ++ '"' :: rest) = some (cs, rest) := by
  induction cs with
  | nil => rfl
  | cons c cs ih =>
    rw [toList_join_cons, List.append_assoc, basic_escape (escape_escaped c), ih]
    rfl

/-- Characters that a literal form shows are read up to its closing mark. -/
theorem literal_plain {cs : List Char} (h : plainLiteral cs) (rest : List Char) :
    literal (cs ++ '\'' :: rest) = some (cs, rest) := by
  simp only [plainLiteral, Bool.and_eq_true, Bool.not_eq_true', List.any_eq_false,
    decide_eq_true_eq] at h
  obtain ⟨⟨hescape, hmark⟩, hfeed⟩ := h
  have hinside : ∀ c ∈ cs, (isPlain c && decide (c ≠ '\'')) = true := by
    intro c hc
    have hc' : c ≠ '\n' ∧ c ≠ '\'' := ⟨fun h => hfeed (h ▸ hc), fun h => hmark (h ▸ hc)⟩
    simp [isPlain_eq, hescape c hc, hc']
  rw [literal, List.takeWhile_append_of_pos hinside, List.dropWhile_append_of_pos hinside]
  simp

/-! ### Strings of several lines -/

/-- An escape does not begin like the end of a string or of a line. -/
theorem Escape.head_ne {c : Char} {form : List Char} (h : Escape c form) :
    ∃ d tail, form = d :: tail ∧ d ≠ '"' ∧ (c ≠ '\n' → d ≠ '\n' ∧ d ≠ '\r') := by
  cases h with
  | plain hplain hquote _ =>
    refine ⟨c, [], rfl, hquote, fun hfeed => ⟨hfeed, ?_⟩⟩
    rintro rfl
    cases hplain
  | letter _ => exact ⟨_, _, rfl, by decide, fun _ => by decide⟩
  | code _ => exact ⟨_, _, rfl, by decide, fun _ => by decide⟩

theorem toList_escapedLines_feed (quotes : Nat) (cs : List Char) :
    (escapedLines quotes ('\n' :: cs)).toList = '\n' :: (escapedLines 0 cs).toList := by
  rw [escapedLines, String.toList_append]
  rfl

theorem toList_escapedLines_quote {quotes : Nat} (h : quotes < 2) (cs : List Char) :
    (escapedLines quotes ('"' :: cs)).toList = '"' :: (escapedLines (quotes + 1) cs).toList := by
  rw [escapedLines, if_pos h, String.toList_append]
  rfl

/-- Any other character is escaped, and so is the third quote in a row. -/
theorem toList_escapedLines_escaped {quotes : Nat} {c : Char} (hfeed : c ≠ '\n')
    (h : c ≠ '"' ∨ 2 ≤ quotes) (cs : List Char) :
    (escapedLines quotes (c :: cs)).toList = (escaped c).toList ++ (escapedLines 0 cs).toList := by
  by_cases hquote : c = '"'
  · subst hquote
    rw [escapedLines, if_neg (Nat.not_lt.2 (h.resolve_left fun h => h rfl)), String.toList_append]
  · rw [escapedLines, String.toList_append]
    · exact hfeed
    · exact hquote

/-- No more than two quotes in a row stand for themselves. -/
theorem head_escapedLines_ne {quotes : Nat} {c : Char} (h : c ≠ '"' ∨ 2 ≤ quotes)
    (cs : List Char) :
    ∃ d tail, (escapedLines quotes (c :: cs)).toList = d :: tail ∧ d ≠ '"' := by
  by_cases hfeed : c = '\n'
  · subst hfeed
    exact ⟨_, _, toList_escapedLines_feed quotes cs, by decide⟩
  · obtain ⟨d, tail, hform, hd, -⟩ := (escape_escaped c).head_ne
    rw [toList_escapedLines_escaped hfeed h, hform]
    exact ⟨d, _, rfl, hd⟩

/-- A quote that is not the first of three stands for itself. -/
theorem basicLines_quote {tail : List Char} (h : ∀ t, tail ≠ '"' :: '"' :: t) :
    basicLines .nothing ('"' :: tail) = before '"' (basicLines .nothing tail) := by
  rw [basicLines.eq_def]
  dsimp only
  rw [if_neg (by simp), if_neg (by decide), if_neg (by decide), if_neg (by decide),
    if_pos (by decide)]
  split
  · exact absurd rfl (h _)
  · exact absurd rfl (h _)
  · exact absurd rfl (h _)
  · rfl

/-- One or two quotes before the closing marks belong to the string. -/
theorem basicLines_closing {rest : List Char} (hrest : rest.head? ≠ some '"') :
    basicLines .nothing ('"' :: '"' :: '"' :: rest) = some ([], rest) ∧
      basicLines .nothing ('"' :: '"' :: '"' :: '"' :: rest) = some (['"'], rest) ∧
      basicLines .nothing ('"' :: '"' :: '"' :: '"' :: '"' :: rest) = some (['"', '"'], rest) := by
  cases rest with
  | nil => exact ⟨rfl, rfl, rfl⟩
  | cons c rest =>
    have hc : c ≠ '"' := fun h => hrest (congrArg some h)
    refine ⟨?_, ?_, ?_⟩
    all_goals
      rw [basicLines.eq_def]
      simp [hc]

/-- Behind a quote there are not two more that stand for themselves, unless they close the
    string. -/
theorem escapedLines_ne_quotes {quotes : Nat} (hquotes : 1 ≤ quotes) {cs : List Char}
    (hne : cs ≠ []) (hquote : quotes < 2 → cs ≠ ['"']) (rest tail : List Char) :
    (escapedLines quotes cs).toList ++ rest ≠ '"' :: '"' :: tail := by
  intro heq
  obtain ⟨c, cs, rfl⟩ := List.exists_cons_of_ne_nil hne
  by_cases h : c ≠ '"' ∨ 2 ≤ quotes
  · obtain ⟨x, form, hform, hx⟩ := head_escapedLines_ne h cs
    rw [hform] at heq
    exact hx (List.cons.inj heq).1
  · obtain ⟨hc, htwo⟩ := not_or.1 h
    obtain rfl := Decidable.not_not.1 hc
    have htwo : quotes < 2 := Nat.lt_of_not_le htwo
    have hrest : cs ≠ [] := fun hnil => hquote htwo (by rw [hnil])
    obtain ⟨d, ds, rfl⟩ := List.exists_cons_of_ne_nil hrest
    have hthird : d ≠ '"' ∨ 2 ≤ quotes + 1 := .inr (by omega)
    obtain ⟨x, form, hform, hx⟩ := head_escapedLines_ne hthird ds
    rw [toList_escapedLines_quote htwo, hform] at heq
    exact hx (List.cons.inj (List.cons.inj heq).2).1

/-- Escaped lines are read up to their closing marks, whatever quotes come before them. -/
theorem basicLines_escapedLines (quotes : Nat) (cs : List Char)
    {rest : List Char} (hrest : rest.head? ≠ some '"') :
    basicLines .nothing ((escapedLines quotes cs).toList ++ '"' :: '"' :: '"' :: rest) =
      some (cs, rest) := by
  induction cs generalizing quotes with
  | nil => exact (basicLines_closing hrest).1
  | cons c cs ih =>
    by_cases hfeed : c = '\n'
    · subst hfeed
      rw [toList_escapedLines_feed, List.cons_append, basicLines.eq_def]
      simp [ih, before]
    by_cases h : c ≠ '"' ∨ 2 ≤ quotes
    · rw [toList_escapedLines_escaped hfeed h, List.append_assoc,
        basicLines_escape (escape_escaped c) hfeed, ih]
      rfl
    obtain ⟨hc, hquotes⟩ := not_or.1 h
    obtain rfl := Decidable.not_not.1 hc
    have hquotes : quotes < 2 := Nat.lt_of_not_le hquotes
    rw [toList_escapedLines_quote hquotes, List.cons_append]
    -- the quote may be the first of those that close the string
    by_cases hlast : cs = []
    · subst hlast
      exact (basicLines_closing hrest).2.1
    by_cases hsecond : quotes + 1 < 2 ∧ cs = ['"']
    · obtain ⟨hquotes, rfl⟩ := hsecond
      rw [toList_escapedLines_quote hquotes]
      exact (basicLines_closing hrest).2.2
    rw [basicLines_quote, ih]
    · rfl
    · exact escapedLines_ne_quotes (by omega) hlast (fun hquotes h => hsecond ⟨hquotes, h⟩) _

/-- One or two marks before the closing ones belong to the string. -/
theorem literalLines_closing {rest : List Char} (hrest : rest.head? ≠ some '\'') :
    literalLines ('\'' :: '\'' :: '\'' :: rest) = some ([], rest) ∧
      literalLines ('\'' :: '\'' :: '\'' :: '\'' :: rest) = some (['\''], rest) ∧
      literalLines ('\'' :: '\'' :: '\'' :: '\'' :: '\'' :: rest) =
        some (['\'', '\''], rest) := by
  cases rest with
  | nil => exact ⟨rfl, rfl, rfl⟩
  | cons c rest =>
    have hc : c ≠ '\'' := fun h => hrest (congrArg some h)
    refine ⟨?_, ?_, ?_⟩
    all_goals
      rw [literalLines.eq_def]
      simp [hc]

/-- A mark that is not the first of three stands for itself, and so does any other character. -/
theorem literalLines_cons {c : Char} {tail : List Char} (hplain : isPlain c ∨ c = '\n')
    (h : c = '\'' → ∀ t, tail ≠ '\'' :: '\'' :: t) :
    literalLines (c :: tail) = before c (literalLines tail) := by
  rw [literalLines]
  · rw [if_pos (by simpa using hplain)]
  · exact fun rest hc htail => h hc _ htail
  · exact fun rest hc htail => h hc _ htail
  · exact fun rest hc htail => h hc _ htail
  · rintro rest rfl
    rcases hplain with hplain | hplain <;> cases hplain

theorem literalLines_plain {cs : List Char} (hplain : cs.any needsEscape = false)
    (htripled : tripled '\'' cs = false) {rest : List Char} (hrest : rest.head? ≠ some '\'') :
    literalLines (cs ++ '\'' :: '\'' :: '\'' :: rest) = some (cs, rest) := by
  induction cs with
  | nil => exact (literalLines_closing hrest).1
  | cons c cs ih =>
    rw [List.any_cons, Bool.or_eq_false_iff] at hplain
    have hcons := htripled
    rw [tripled, Bool.or_eq_false_iff] at htripled
    have hc : isPlain c ∨ c = '\n' := by
      rw [isPlain_eq, hplain.1]
      by_cases hfeed : c = '\n' <;> simp [hfeed]
    have hlater : literalLines (cs ++ '\'' :: '\'' :: '\'' :: rest) = some (cs, rest) :=
      ih hplain.2 htripled.2
    by_cases hmark : c = '\''
    · subst hmark
      -- the mark may be the first of those that close the string
      cases cs with
      | nil => exact (literalLines_closing hrest).2.1
      | cons d ds =>
        by_cases hd : d = '\''
        · subst hd
          cases ds with
          | nil => exact (literalLines_closing hrest).2.2
          | cons e es =>
            have he : e ≠ '\'' := by
              rintro rfl
              cases hcons
            rw [List.cons_append, literalLines_cons hc, hlater]
            · rfl
            · exact fun _ t h => he (List.cons.inj (List.cons.inj h).2).1
        · rw [List.cons_append, literalLines_cons hc, hlater]
          · rfl
          · exact fun _ t h => hd (List.cons.inj h).1
    · rw [List.cons_append, literalLines_cons hc fun h => absurd h hmark, hlater]
      rfl

/-! ### All forms -/

theorem newline?_of_ne {c : Char} (hfeed : c ≠ '\n') (hreturn : c ≠ '\r') (cs : List Char) :
    newline? (c :: cs) = none := by
  rw [newline?]
  · exact fun _ h => hfeed (List.cons.inj h).1
  · exact fun _ h => hreturn (List.cons.inj h).1

theorem string_basicForm (cs : List Char) {rest : List Char} (hrest : rest.head? ≠ some '"') :
    string ((basicForm cs).toList ++ rest) = some (cs, rest) := by
  rw [toList_basicForm, string, basic_escaped]
  intro tail h
  cases cs with
  | nil => exact hrest (congrArg List.head? (List.cons.inj h).2)
  | cons c cs =>
    obtain ⟨d, form, hescape, hd, -⟩ := (escape_escaped c).head_ne
    rw [toList_join_cons, hescape] at h
    exact hd (List.cons.inj h).1

theorem string_literalForm {cs : List Char} (h : plainLiteral cs) {rest : List Char}
    (hrest : rest.head? ≠ some '\'') :
    string ((literalForm cs).toList ++ rest) = some (cs, rest) := by
  rw [toList_literalForm, string, literal_plain h]
  intro tail heq
  cases cs with
  | nil => exact hrest (congrArg List.head? (List.cons.inj heq).2)
  | cons c cs =>
    obtain rfl : c = '\'' := (List.cons.inj heq).1
    simp [plainLiteral] at h

/-- Only the line feed of the opening is dropped. -/
theorem dropNewline_opening {cs text : List Char} (mark : String)
    (h : '\n' ∉ cs → newline? text = none) :
    ∃ tail, (opening mark cs).toList ++ text = mark.toList ++ tail ∧ dropNewline tail = text := by
  unfold opening
  split
  · exact ⟨'\n' :: text, by simp, rfl⟩
  · rename_i hfeed
    exact ⟨text, rfl, by rw [dropNewline, h hfeed]; rfl⟩

theorem string_basicLinesForm (cs : List Char) {rest : List Char}
    (hrest : rest.head? ≠ some '"') :
    string ((basicLinesForm cs).toList ++ rest) = some (cs, rest) := by
  let text := (escapedLines 0 cs).toList ++ '"' :: '"' :: '"' :: rest
  have hform : (basicLinesForm cs).toList ++ rest = (opening "\"\"\"" cs).toList ++ text := by
    simp [basicLinesForm, text]
  have hbegin : '\n' ∉ cs → newline? text = none := by
    intro hfeed
    cases cs with
    | nil => exact newline?_of_ne (by decide) (by decide) _
    | cons c cs =>
      obtain ⟨hc, -⟩ := List.ne_and_not_mem_of_not_mem_cons hfeed
      by_cases hquote : c = '"'
      · subst hquote
        simp only [text, toList_escapedLines_quote (by decide : 0 < 2)]
        exact newline?_of_ne (by decide) (by decide) _
      · obtain ⟨d, form, hescape, -, hd⟩ := (escape_escaped c).head_ne
        obtain ⟨hd, hd'⟩ := hd hc.symm
        simp only [text, toList_escapedLines_escaped hc.symm (.inl hquote), hescape]
        exact newline?_of_ne hd hd' _
  obtain ⟨tail, hopening, hdrop⟩ := dropNewline_opening "\"\"\"" hbegin
  have hmark : "\"\"\"".toList ++ tail = '"' :: '"' :: '"' :: tail := rfl
  rw [hform, hopening, hmark, string, hdrop]
  exact basicLines_escapedLines 0 cs hrest

theorem string_literalLinesForm {cs : List Char} (hplain : cs.any needsEscape = false)
    (htripled : tripled '\'' cs = false) {rest : List Char} (hrest : rest.head? ≠ some '\'') :
    string ((literalLinesForm cs).toList ++ rest) = some (cs, rest) := by
  let text := cs ++ '\'' :: '\'' :: '\'' :: rest
  have hform : (literalLinesForm cs).toList ++ rest = (opening "'''" cs).toList ++ text := by
    simp [literalLinesForm, text]
  have hbegin : '\n' ∉ cs → newline? text = none := by
    intro hfeed
    cases cs with
    | nil => exact newline?_of_ne (by decide) (by decide) _
    | cons c cs =>
      obtain ⟨hc, -⟩ := List.ne_and_not_mem_of_not_mem_cons hfeed
      refine newline?_of_ne hc.symm ?_ _
      rintro rfl
      simp [needsEscape] at hplain
  obtain ⟨tail, hopening, hdrop⟩ := dropNewline_opening "'''" hbegin
  have hmark : "'''".toList ++ tail = '\'' :: '\'' :: '\'' :: tail := rfl
  rw [hform, hopening, hmark, string, hdrop]
  exact literalLines_plain hplain htripled hrest

/-- A written text is read as it was. -/
theorem string_stringForm (text : String) {rest : List Char} (hquote : rest.head? ≠ some '"')
    (hmark : rest.head? ≠ some '\'') :
    string ((stringForm text).toList ++ rest) = some (text.toList, rest) := by
  unfold stringForm
  dsimp only
  split
  · exact string_basicForm _ hquote
  · split
    · exact string_literalForm ‹_› hmark
    · split
      · exact string_basicLinesForm _ hquote
      · split
        · rename_i h
          simp only [Bool.and_eq_true, Bool.not_eq_true'] at h
          exact string_literalLinesForm h.1 h.2 hmark
        · split
          · exact string_basicLinesForm _ hquote
          · exact string_basicForm _ hquote

/-- A bare word is read up to the first character that cannot stand in one. -/
theorem simpleKey_bare {cs rest : List Char} (hne : cs ≠ []) (h : ∀ c ∈ cs, isKeyChar c = true)
    (hrest : ∀ c, rest.head? = some c → isKeyChar c = false) :
    simpleKey (cs ++ rest) = some (cs, rest) := by
  have hword : (cs ++ rest).takeWhile isKeyChar = cs := by
    rw [List.takeWhile_append_of_pos h]
    cases rest with
    | nil => simp
    | cons c rest => simp [hrest c rfl]
  have hleft : (cs ++ rest).dropWhile isKeyChar = rest := by
    rw [List.dropWhile_append_of_pos h]
    cases rest with
    | nil => rfl
    | cons c rest => simp [hrest c rfl]
  rw [simpleKey, hword, hleft, List.isEmpty_eq_false_iff.2 hne]
  · rfl
  · intro tail heq
    obtain ⟨c, cs, rfl⟩ := List.exists_cons_of_ne_nil hne
    obtain rfl : c = '"' := (List.cons.inj heq).1
    exact absurd (h _ List.mem_cons_self) (by decide)
  · intro tail heq
    obtain ⟨c, cs, rfl⟩ := List.exists_cons_of_ne_nil hne
    obtain rfl : c = '\'' := (List.cons.inj heq).1
    exact absurd (h _ List.mem_cons_self) (by decide)

/-- A written part of a key is read as it was. -/
theorem simpleKey_keyForm (name : String) {rest : List Char}
    (hrest : ∀ c, rest.head? = some c → isKeyChar c = false) :
    simpleKey ((keyForm name).toList ++ rest) = some (name.toList, rest) := by
  have hbasic : simpleKey ((basicForm name.toList).toList ++ rest) = some (name.toList, rest) := by
    rw [toList_basicForm, simpleKey, basic_escaped]
  unfold keyForm
  dsimp only
  split
  · rename_i hbare
    simp only [Bool.and_eq_true, Bool.not_eq_true', List.all_eq_true] at hbare
    exact simpleKey_bare (List.isEmpty_eq_false_iff.1 hbare.1) hbare.2 hrest
  · split
    · exact hbasic
    · split
      · rw [toList_literalForm, simpleKey, literal_plain ‹_›]
      · exact hbasic

end NativeGate.Toml
