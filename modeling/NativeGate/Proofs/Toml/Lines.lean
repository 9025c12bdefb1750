import NativeGate.Proofs.Toml.Scalar

/-!
Lines read back. The line of an entry and the line of a header are one statement each, whatever
comes behind them (`Line`), so the statements of a text made of blocks of such lines are those the
lines were written for, in their order (`Written.says`).
-/

namespace NativeGate.Toml
open Data

/-! ### Keys -/

/-- A part of a key begins with a mark of a string or a character of a bare word. -/
theorem simpleKey_head {cs : List Char} (h : (simpleKey cs).isSome) :
    ∃ c tail, cs = c :: tail ∧ (c = '"' ∨ c = '\'' ∨ isKeyChar c = true) := by
  unfold simpleKey at h
  split at h
  · exact ⟨_, _, rfl, .inl rfl⟩
  · exact ⟨_, _, rfl, .inr (.inl rfl)⟩
  · cases cs with
    | nil => cases h
    | cons c tail =>
      cases hc : isKeyChar c with
      | true => exact ⟨c, tail, rfl, .inr (.inr hc)⟩
      | false => simp [hc] at h

/-- A part of a key begins with no blank and with no other mark of a document. -/
theorem keyForm_head (name : String) :
    ∃ c cs, (keyForm name).toList = c :: cs ∧
      c ∉ ['\ufeff', ' ', '\t', '\n', '\r', '#', '[', '.'] := by
  have hkey : simpleKey ((keyForm name).toList ++ []) = some (name.toList, []) :=
    simpleKey_keyForm name nofun
  rw [List.append_nil] at hkey
  obtain ⟨c, tail, hform, hc⟩ := simpleKey_head (by rw [hkey]; rfl)
  refine ⟨c, tail, hform, ?_⟩
  rcases hc with rfl | rfl | hc
  · decide
  · decide
  · intro hmark
    have hmarks : ['\ufeff', ' ', '\t', '\n', '\r', '#', '[', '.'].all (! isKeyChar ·) := by
      decide
    have hno := List.all_eq_true.1 hmarks c hmark
    rw [hc] at hno
    cases hno

theorem skipBlank_cons {c : Char} (h : isBlank c = false) (cs : List Char) :
    skipBlank (c :: cs) = c :: cs := by
  rw [skipBlank, List.dropWhile_cons_of_neg (by rw [h]; decide)]

theorem skipBlank_keyForm (name : String) (rest : List Char) :
    skipBlank ((keyForm name).toList ++ rest) = (keyForm name).toList ++ rest := by
  obtain ⟨c, cs, hform, hc⟩ := keyForm_head name
  rw [hform]
  refine skipBlank_cons ?_ _
  simp only [List.mem_cons, not_or] at hc
  simp [isBlank, hc]

/-- A written key is read, with the blanks behind it. -/
theorem keyParts_keyForms {names : List String} (hne : names ≠ []) {rest : List Char}
    (hword : ∀ c, rest.head? = some c → isKeyChar c = false)
    (hdot : (skipBlank rest).head? ≠ some '.') {fuel : Nat} (hfuel : names.length ≤ fuel) :
    keyParts fuel ((".".intercalate (names.map keyForm)).toList ++ rest) =
      some (names, skipBlank rest) := by
  induction names generalizing fuel with
  | nil => exact absurd rfl hne
  | cons name names ih =>
    cases fuel with
    | zero => cases hfuel
    | succ fuel =>
    cases names with
    | nil =>
      rw [List.map_cons, List.map_nil, String.intercalate_singleton, keyParts, skipBlank_keyForm,
        simpleKey_keyForm name hword, Option.bind_some]
      dsimp only
      split
      · rename_i hrest
        rw [hrest] at hdot
        exact absurd rfl hdot
      · rw [String.ofList_toList]
    | cons next names =>
      have hform : (".".intercalate ((name :: next :: names).map keyForm)).toList ++ rest =
          (keyForm name).toList ++
            '.' :: ((".".intercalate ((next :: names).map keyForm)).toList ++ rest) := by
        simp [String.intercalate_cons_cons]
      rw [hform, keyParts, skipBlank_keyForm, simpleKey_keyForm name, Option.bind_some]
      · dsimp only
        rw [skipBlank_cons (by decide)]
        show Option.map _ (keyParts fuel _) = _
        rw [ih (by simp) (Nat.le_of_succ_le_succ hfuel), String.ofList_toList]
        rfl
      · rintro c ⟨⟩
        rfl

theorem keyForms_head {names : List String} (hne : names ≠ []) :
    ∃ c cs, (".".intercalate (names.map keyForm)).toList = c :: cs ∧
      c ∉ ['\ufeff', ' ', '\t', '\n', '\r', '#', '[', '.'] := by
  match names with
  | [name] =>
    rw [List.map_cons, List.map_nil, String.intercalate_singleton]
    exact keyForm_head name
  | name :: next :: names =>
    obtain ⟨c, cs, hform, hc⟩ := keyForm_head name
    refine ⟨c, cs ++ (".".toList ++ (".".intercalate ((next :: names).map keyForm)).toList), ?_, hc⟩
    simp [String.intercalate_cons_cons, hform]

/-- Every part of a written key takes a character or more. -/
theorem length_keyForms (names : List String) :
    names.length ≤ (".".intercalate (names.map keyForm)).toList.length := by
  induction names with
  | nil => exact Nat.zero_le _
  | cons name names ih =>
    obtain ⟨c, cs, hform, -⟩ := keyForm_head name
    cases names with
    | nil =>
      rw [List.map_cons, List.map_nil, String.intercalate_singleton, hform]
      exact Nat.le_add_left 1 _
    | cons next names =>
      simp only [List.map_cons, String.intercalate_cons_cons, String.toList_append, hform,
        List.length_append, List.length_cons] at ih ⊢
      omega

theorem key_keyForms {names : List String} (hne : names ≠ []) (hshort : names.length < depthLimit)
    (rest : List Char) (hword : ∀ c, rest.head? = some c → isKeyChar c = false)
    (hdot : (skipBlank rest).head? ≠ some '.') :
    key ((".".intercalate (names.map keyForm)).toList ++ rest) = some (names, skipBlank rest) := by
  have hfuel : names.length ≤
      ((".".intercalate (names.map keyForm)).toList ++ rest).length := by
    rw [List.length_append]
    exact Nat.le_trans (length_keyForms names) (Nat.le_add_right _ _)
  rw [key, keyParts_keyForms hne hword hdot hfuel, Option.filter_some,
    if_pos (by simpa using hshort)]

/-! ### Lines -/

/-- A line that is one statement, whatever comes behind it. It is no blank line and no comment. -/
structure Line (line : String) (s : Statement) : Prop where
  head : ∃ c cs, line.toList = c :: cs ∧ c ∉ ['\ufeff', ' ', '\t', '\n', '\r', '#']
  reads : ∀ rest, statement (line.toList ++ '\n' :: rest) = some (s, '\n' :: rest)

theorem line_header {path : List String} (hne : path ≠ []) (hshort : path.length < depthLimit) :
    Line ("[" ++ ".".intercalate (path.map keyForm) ++ "]") (.header path) := by
  have hform : ("[" ++ ".".intercalate (path.map keyForm) ++ "]").toList =
      '[' :: ((".".intercalate (path.map keyForm)).toList ++ [']']) := by
    simp
  refine ⟨⟨_, _, hform, by decide⟩, fun rest => ?_⟩
  have hkey := key_keyForms hne hshort (']' :: '\n' :: rest) (by rintro c ⟨⟩; rfl)
    (by rw [skipBlank_cons (by decide)]; simp)
  rw [skipBlank_cons (by decide)] at hkey
  obtain ⟨c, cs, hkeys, hc⟩ := keyForms_head hne
  rw [hform, List.cons_append, List.append_assoc, List.singleton_append, statement]
  · simp only [bind, Option.bind, hkey, mark, if_true]
    rfl
  · intro tail h
    rw [hkeys] at h
    obtain rfl := (List.cons.inj h).1
    exact hc (by decide)

/-- A written entry is read up to the end of its line. -/
theorem entry_keyForm (name : String) {t : Tree} (ht : Leaf t) {form : String}
    (hform : scalarForm? t = some form) (rest : List Char) :
    entry (value depthLimit)
        ((keyForm name).toList ++ ' ' :: '=' :: ' ' :: (form.toList ++ '\n' :: rest)) =
      some (([name], t), '\n' :: rest) := by
  have hkey := key_keyForms (List.cons_ne_nil name []) (by decide : 1 < depthLimit)
    (' ' :: '=' :: ' ' :: (form.toList ++ '\n' :: rest)) (by rintro c ⟨⟩; rfl) nofun
  rw [List.map_cons, List.map_nil, String.intercalate_singleton] at hkey
  have hsign : skipBlank (' ' :: '=' :: ' ' :: (form.toList ++ '\n' :: rest)) =
      '=' :: ' ' :: (form.toList ++ '\n' :: rest) := rfl
  have hblank : skipBlank (' ' :: (form.toList ++ '\n' :: rest)) = form.toList ++ '\n' :: rest :=
    skipBlank_scalarForm ht hform rest
  have hvalue : value depthLimit (form.toList ++ '\n' :: rest) = some (t, '\n' :: rest) :=
    value_scalarForm ht hform 79 rest
  simp only [entry, bind, Option.bind, hkey, hsign, mark, if_true, hblank, hvalue]
  rfl

theorem line_entry (name : String) {t : Tree} (ht : Leaf t) {form : String}
    (hform : scalarForm? t = some form) :
    Line (keyForm name ++ " = " ++ form) (.entry [name] t) := by
  obtain ⟨c, cs, hname, hc⟩ := keyForm_head name
  have hline : (keyForm name ++ " = " ++ form).toList =
      c :: (cs ++ ' ' :: '=' :: ' ' :: form.toList) := by
    simp [hname]
  refine ⟨⟨_, _, hline, fun h => hc (List.mem_append_left ['[', '.'] h)⟩, fun rest => ?_⟩
  have hentry := entry_keyForm name ht hform rest
  have hbracket : c ≠ '[' := fun h => hc (by rw [h]; decide)
  rw [hname, List.cons_append] at hentry
  rw [hline, List.cons_append, List.append_assoc]
  simp only [List.cons_append]
  rw [statement, hentry]
  · rfl
  · exact fun _ h => hbracket (List.cons.inj h).1
  · exact fun _ h => hbracket (List.cons.inj h).1

/-! ### Texts -/

/-- The statements of a text, given fuel for all of it. -/
def Says (cs : List Char) (ss : List Statement) : Prop :=
  ∀ fuel, cs.length < fuel → statements fuel cs = some ss

theorem says_nil : Says [] [] := by
  intro fuel hfuel
  cases fuel with
  | zero => cases hfuel
  | succ fuel => rfl

section
variable {rest : List Char} {later : List Statement} (hrest : Says rest later)
include hrest

/-- A blank line is no statement. -/
theorem Says.feed : Says ('\n' :: rest) later := by
  intro fuel hfuel
  cases fuel with
  | zero => cases hfuel
  | succ fuel => exact hrest fuel (Nat.lt_of_succ_lt_succ hfuel)

theorem Says.line {line : String} {s : Statement} (hline : Line line s) :
    Says (line.toList ++ '\n' :: rest) (s :: later) := by
  intro fuel hfuel
  cases fuel with
  | zero => cases hfuel
  | succ fuel =>
    have hread := hline.reads rest
    have hlater : statements fuel rest = some later := by
      refine hrest fuel ?_
      simp only [List.length_append, List.length_cons] at hfuel
      omega
    have hend : endOfLine? ('\n' :: rest) = some rest := rfl
    obtain ⟨c, cs, hform, hc⟩ := hline.head
    simp only [List.mem_cons, List.not_mem_nil, or_false, not_or] at hc
    obtain ⟨-, hspace, htab, hfeed, hreturn, hcomment⟩ := hc
    rw [hform, List.cons_append] at hread ⊢
    have hskip : skipBlank (c :: (cs ++ '\n' :: rest)) = c :: (cs ++ '\n' :: rest) :=
      skipBlank_cons (by simp [isBlank, hspace, htab]) _
    unfold statements
    rw [hskip]
    split
    · rename_i h
      cases h
    · rename_i h
      exact absurd (List.cons.inj h).1 hcomment
    · rename_i h
      exact absurd (List.cons.inj h).1 hfeed
    · rename_i h
      exact absurd (List.cons.inj h).1 hreturn
    · simp only [bind, Option.bind, hread, hend, hlater]
      rfl

end

/-- Blocks of lines, and the statements that the lines are. -/
inductive Written : List (List String) → List Statement → Prop
  | nil : Written [] []
  | close {bs : List (List String)} {ss : List Statement} (rest : Written bs ss) :
      Written ([] :: bs) ss
  | line {line : String} {s : Statement} {b : List String} {bs : List (List String)}
      {ss : List Statement} (hline : Line line s) (rest : Written (b :: bs) ss) :
      Written ((line :: b) :: bs) (s :: ss)

theorem Written.append {bs bs' : List (List String)} {ss ss' : List Statement}
    (h : Written bs ss) (h' : Written bs' ss') : Written (bs ++ bs') (ss ++ ss') := by
  induction h with
  | nil => exact h'
  | close _ ih => exact .close ih
  | line hline _ ih => exact .line hline ih

/-- The text of blocks. -/
def joined (bs : List (List String)) : String :=
  "\n".intercalate
    ((bs.filter fun b => !b.isEmpty).map fun b => String.join (b.map fun line => line ++ "\n"))

/-- Behind a line come the other lines, or a blank line first where it was the last of its
    block. -/
theorem joined_line (line : String) (b : List String) (bs : List (List String)) :
    ∃ feeds, (feeds = [] ∨ feeds = ['\n']) ∧
      (joined ((line :: b) :: bs)).toList =
        line.toList ++ '\n' :: (feeds ++ (joined (b :: bs)).toList) := by
  cases b with
  | nil =>
    cases hshown : bs.filter fun b => !b.isEmpty with
    | nil => exact ⟨[], .inl rfl, by simp [joined, hshown]⟩
    | cons next shown =>
      refine ⟨['\n'], .inr rfl, ?_⟩
      simp [joined, hshown, String.intercalate_cons_cons]
  | cons next b =>
    refine ⟨[], .inl rfl, ?_⟩
    cases hshown : bs.filter fun b => !b.isEmpty with
    | nil => simp [joined, hshown]
    | cons later shown => simp [joined, hshown, String.intercalate_cons_cons]

theorem Written.says {bs : List (List String)} {ss : List Statement} (h : Written bs ss) :
    Says (joined bs).toList ss := by
  induction h with
  | nil => exact says_nil
  | close _ ih => exact ih
  | @line line s b bs ss hline _ ih =>
    obtain ⟨feeds, hfeeds, htext⟩ := joined_line line b bs
    rw [htext]
    rcases hfeeds with rfl | rfl
    · exact ih.line hline
    · exact ih.feed.line hline

/-- A text of lines has no byte order mark at its front. -/
theorem Written.head_joined {bs : List (List String)} {ss : List Statement} (h : Written bs ss) :
    (joined bs).toList.head? ≠ some '\ufeff' := by
  induction h with
  | nil => decide
  | close _ ih => exact ih
  | @line line s b bs ss hline _ _ =>
    obtain ⟨feeds, -, htext⟩ := joined_line line b bs
    obtain ⟨c, cs, hform, hc⟩ := hline.head
    rw [htext, hform]
    exact fun h => hc (by rw [Option.some.inj h]; decide)

/-- A text of lines makes the table that its statements make. -/
theorem Written.read {bs : List (List String)} {ss : List Statement} (h : Written bs ss) :
    read (joined bs) =
      ((ss.foldlM Draft.step ⟨[], none, []⟩).bind Draft.closeTable).map
        fun es => .table (treeEntries es) := by
  have hsays : statements ((joined bs).toList.length + 1) (joined bs).toList = some ss :=
    h.says _ (Nat.lt_succ_self _)
  unfold Toml.read
  dsimp only
  split
  · rename_i hmark
    exact absurd (congrArg List.head? hmark) h.head_joined
  · simp only [bind, Option.bind, hsays]
    cases ss.foldlM Draft.step ⟨[], none, []⟩ with
    | none => rfl
    | some d =>
      dsimp only
      cases d.closeTable <;> rfl

end NativeGate.Toml
