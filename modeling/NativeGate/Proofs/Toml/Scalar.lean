import NativeGate.Proofs.Text.Digits
import NativeGate.Proofs.Toml.Text
import NativeGate.Toml.Document

/-!
Values of one line read back (`value_scalarForm`). An integer is written as its digits and read from
them; that nothing else is read there, no time and no number in another base, is a matter of what
comes behind the digits, which is the end of the line.
-/

namespace NativeGate.Text

/-- Only zero begins with the digit zero. -/
theorem head_toDigits {n : Nat} {ds : List Char} (h : Nat.toDigits 10 n = '0' :: ds) :
    n = 0 ∧ ds = [] := by
  induction n using Nat.strongRecOn generalizing ds with
  | ind n ih =>
    by_cases hn : n < 10
    · rw [Nat.toDigits_of_lt_base hn] at h
      obtain ⟨hzero, hnil⟩ := List.cons.inj h
      refine ⟨?_, hnil.symm⟩
      have hdigit : digit? 10 n.digitChar = some n := digit?_of_stands (by decide) hn (.inl rfl)
      rw [hzero] at hdigit
      exact (Option.some.inj hdigit).symm
    · rw [Nat.toDigits_of_base_le (by decide) (Nat.le_of_not_lt hn)] at h
      obtain ⟨c, cs, hdigits⟩ :=
        List.exists_cons_of_ne_nil (Nat.toDigits_ne_nil : Nat.toDigits 10 (n / 10) ≠ [])
      rw [hdigits, List.cons_append] at h
      obtain rfl := (List.cons.inj h).1
      have hzero := (ih (n / 10) (by omega) hdigits).1
      omega

theorem isDigit_toDigits (n : Nat) : ∀ c ∈ Nat.toDigits 10 n, c.isDigit = true :=
  fun _ => Nat.isDigit_of_mem_toDigits (by decide) (by decide)

/-- A number begins with a digit and has nothing but digits. -/
theorem exists_toDigits (n : Nat) :
    ∃ d ds, Nat.toDigits 10 n = d :: ds ∧ d.isDigit = true ∧ ∀ c ∈ ds, c.isDigit = true := by
  obtain ⟨d, ds, hdigits⟩ :=
    List.exists_cons_of_ne_nil (Nat.toDigits_ne_nil : Nat.toDigits 10 n ≠ [])
  have hall := isDigit_toDigits n
  rw [hdigits] at hall
  exact ⟨d, ds, hdigits, hall d List.mem_cons_self, fun c hc => hall c (List.mem_cons_of_mem d hc)⟩

theorem ne_of_isDigit {c d : Char} (hc : c.isDigit = true) (hd : d.isDigit = false) : c ≠ d := by
  rintro rfl
  rw [hd] at hc
  cases hc

theorem signed?_toDigits (n : Nat) :
    signed? 10 (Nat.toDigits 10 n) = some (n : Int) ∧
      signed? 10 ('-' :: Nat.toDigits 10 n) = some (-(n : Int)) := by
  have hnatural := natural?_toDigits (b := 10) (by decide) (by decide) n
  obtain ⟨d, ds, hdigits, hd, -⟩ := exists_toDigits n
  rw [hdigits] at hnatural ⊢
  constructor
  · rw [signed?, hnatural]
    · rfl
    · exact fun _ h => ne_of_isDigit hd (by decide) (List.cons.inj h).1
    · exact fun _ h => ne_of_isDigit hd (by decide) (List.cons.inj h).1
  · rw [signed?, hnatural]
    rfl

end NativeGate.Text

namespace NativeGate.Toml
open Data Text

/-! ### Integers -/

section
variable {ds rest : List Char} (hds : ∀ c ∈ ds, c.isDigit = true)
include hds

theorem moreDigits_append :
    moreDigits Char.isDigit (ds ++ '\n' :: rest) = some (ds, '\n' :: rest) := by
  induction ds with
  | nil => rfl
  | cons d ds ih =>
    have hd := hds d List.mem_cons_self
    rw [List.cons_append, moreDigits, if_pos hd, ih fun c hc => hds c (List.mem_cons_of_mem d hc)]
    · rfl
    · exact fun _ _ h => absurd h (ne_of_isDigit hd (by decide))

/-- What is left of digits behind a number of fixed width are digits. -/
theorem fixed_left {width least greatest n : Nat} {left : List Char}
    (h : fixed width least greatest (ds ++ '\n' :: rest) = some (n, left)) :
    ∃ ds', left = ds' ++ '\n' :: rest ∧ ∀ c ∈ ds', c.isDigit = true := by
  unfold fixed at h
  dsimp only at h
  split at h
  · rename_i htake
    obtain ⟨hlength, hdigits⟩ := htake
    have hwidth : width ≤ ds.length := by
      refine Nat.le_of_not_lt fun hlong => ?_
      -- a longer number would have the line feed among its digits
      have hfeed : '\n' ∈ (ds ++ '\n' :: rest).take width := by
        obtain ⟨k, hk⟩ := Nat.exists_eq_add_of_lt hlong
        rw [List.take_append, hk, Nat.add_assoc, Nat.add_sub_cancel_left, List.take_succ_cons]
        exact List.mem_append_right _ List.mem_cons_self
      exact absurd (List.all_eq_true.1 hdigits _ hfeed) (by decide)
    obtain ⟨_, -, h⟩ := Option.bind_eq_some_iff.1 h
    split at h
    · cases h
      exact ⟨ds.drop width, List.drop_append_of_le_length hwidth,
        fun c hc => hds c (List.mem_of_mem_drop hc)⟩
    · cases h
  · cases h

/-- Digits up to the end of a line are no time. -/
theorem time_digits : time (ds ++ '\n' :: rest) = none := by
  have hmark : ∀ {width least greatest n : Nat} {left : List Char} {c : Char},
      c.isDigit = false → c ≠ '\n' →
      fixed width least greatest (ds ++ '\n' :: rest) = some (n, left) → mark c left = none := by
    intro width least greatest n left c hc hfeed h
    obtain ⟨ds', rfl, hds'⟩ := fixed_left hds h
    cases ds' with
    | nil => exact if_neg hfeed.symm
    | cons d ds' => exact if_neg (ne_of_isDigit (hds' d List.mem_cons_self) hc)
  have hdate : date (ds ++ '\n' :: rest) = none := by
    unfold date
    cases hyear : fixed 4 0 9999 (ds ++ '\n' :: rest) with
    | none => rfl
    | some r =>
      simp only [bind, Option.bind, hmark (c := '-') (by decide) (by decide) hyear]
  have hclock : timeOfDay (ds ++ '\n' :: rest) = none := by
    unfold timeOfDay
    cases hhour : fixed 2 0 23 (ds ++ '\n' :: rest) with
    | none => rfl
    | some r =>
      simp only [bind, Option.bind, hmark (c := ':') (by decide) (by decide) hhour]
  rw [time, hdate, hclock]
  rfl

end

/-- A time begins with a digit. -/
theorem time_of_head {c : Char} (hc : c.isDigit = false) (cs : List Char) :
    time (c :: cs) = none := by
  have hfixed : ∀ width least greatest, fixed (width + 1) least greatest (c :: cs) = none := by
    intro width least greatest
    refine if_neg fun h => ?_
    rw [List.take_succ_cons, List.all_cons, hc, Bool.false_and] at h
    cases h.2
  have hdate : date (c :: cs) = none := by simp only [date, hfixed, bind, Option.bind]
  have hclock : timeOfDay (c :: cs) = none := by simp only [timeOfDay, hfixed, bind, Option.bind]
  rw [time, hdate, hclock]
  rfl

/-- An integer is read from its digits, without a sign or behind a minus. -/
theorem decimal_toDigits {n : Nat} {m : Int} {negative : Bool} {t : Tree}
    (h : integer? m = some t) (hm : (if negative then -(n : Int) else n) = m) (rest : List Char) :
    decimal negative (Nat.toDigits 10 n ++ '\n' :: rest) = some (t, '\n' :: rest) := by
  obtain ⟨d, ds, hdigits, hd, hds⟩ := exists_toDigits n
  have hwhole : wholeDigits (Nat.toDigits 10 n ++ '\n' :: rest) =
      some (Nat.toDigits 10 n, '\n' :: rest) := by
    by_cases hzero : d = '0'
    · subst hzero
      obtain ⟨-, rfl⟩ := head_toDigits hdigits
      rw [hdigits]
      rfl
    · rw [hdigits, List.cons_append, wholeDigits]
      · rw [digits, if_pos hd, moreDigits_append hds]
        rfl
      · exact fun _ h => hzero (List.cons.inj h).1
  have hsigned : signed? 10 ((if negative then ['-'] else []) ++ Nat.toDigits 10 n) =
      some m := by
    subst hm
    cases negative with
    | false => exact (signed?_toDigits n).1
    | true => exact (signed?_toDigits n).2
  have hfraction : fraction ('\n' :: rest) = some ([], '\n' :: rest) := rfl
  have hexponent : exponent ('\n' :: rest) = some ([], '\n' :: rest) := rfl
  simp only [decimal, bind, Option.bind, hwhole, hfraction, hexponent, List.append_nil,
    List.isEmpty_nil, Bool.and_self, if_true, hsigned, h]
  rfl

theorem special_toDigits (n : Nat) (negative : Bool) (rest : List Char) :
    special negative (Nat.toDigits 10 n ++ '\n' :: rest) = none := by
  obtain ⟨d, ds, hdigits, hd, -⟩ := exists_toDigits n
  rw [hdigits, List.cons_append, special]
  · exact fun _ h => ne_of_isDigit hd (by decide) (List.cons.inj h).1
  · exact fun _ h => ne_of_isDigit hd (by decide) (List.cons.inj h).1

theorem value_digit {d : Char} (hd : d.isDigit = true) (depth : Nat) (cs : List Char) :
    value (depth + 1) (d :: cs) = (time (d :: cs)).or (number (d :: cs)) := by
  rw [value]
  all_goals exact fun _ h => ne_of_isDigit hd (by decide) (List.cons.inj h).1

/-- No letter behind a zero makes a number up to the end of its line one in another base. -/
theorem number_toDigits (n : Nat) (rest : List Char) :
    number (Nat.toDigits 10 n ++ '\n' :: rest) =
      decimal false (Nat.toDigits 10 n ++ '\n' :: rest) := by
  have hspecial := special_toDigits n false rest
  obtain ⟨d, ds, hdigits, hd, -⟩ := exists_toDigits n
  rw [hdigits] at hspecial ⊢
  by_cases hzero : d = '0'
  · subst hzero
    obtain ⟨-, rfl⟩ := head_toDigits hdigits
    rfl
  · rw [List.cons_append] at hspecial ⊢
    rw [number, hspecial, Option.none_or]
    all_goals first
      | exact fun _ h => hzero (List.cons.inj h).1
      | exact fun _ h => ne_of_isDigit hd (by decide) (List.cons.inj h).1

theorem value_integer {n : Int} (h : integer? n = some (.integer n)) (depth : Nat)
    (rest : List Char) :
    value (depth + 1) ((toString n).toList ++ '\n' :: rest) = some (.integer n, '\n' :: rest) := by
  cases n with
  | ofNat n =>
    have hform : (toString (Int.ofNat n)).toList = Nat.toDigits 10 n := String.toList_ofList
    have hnumber := number_toDigits n rest
    have htime : time (Nat.toDigits 10 n ++ '\n' :: rest) = none :=
      time_digits (isDigit_toDigits n)
    obtain ⟨d, ds, hdigits, hd, -⟩ := exists_toDigits n
    rw [decimal_toDigits h rfl] at hnumber
    rw [hform]
    rw [hdigits, List.cons_append] at hnumber htime ⊢
    rw [value_digit hd, htime, Option.none_or, hnumber]
  | negSucc n =>
    have hform : (toString (Int.negSucc n)).toList = '-' :: Nat.toDigits 10 (n + 1) := by
      refine String.toList_append.trans ?_
      exact congrArg ('-' :: ·) String.toList_ofList
    have hnumber : number ('-' :: (Nat.toDigits 10 (n + 1) ++ '\n' :: rest)) =
        some (.integer (.negSucc n), '\n' :: rest) := by
      rw [number, special_toDigits, Option.none_or]
      exact decimal_toDigits h rfl rest
    rw [hform, List.cons_append, value, hnumber, time_of_head (by decide), Option.none_or]
    all_goals nofun

/-! ### Values -/

/-- A value that has a line of its own. -/
inductive Leaf : Tree → Prop
  | boolean (b : Bool) : Leaf (.boolean b)
  | integer {n : Int} (h : integer? n = some (.integer n)) : Leaf (.integer n)
  | text (s : String) : Leaf (.text s)

/-- A string begins with one of its marks. -/
theorem string_head {cs : List Char} (h : (string cs).isSome) :
    ∃ tail, cs = '"' :: tail ∨ cs = '\'' :: tail := by
  unfold string at h
  split at h
  · exact ⟨_, .inl rfl⟩
  · exact ⟨_, .inl rfl⟩
  · exact ⟨_, .inr rfl⟩
  · exact ⟨_, .inr rfl⟩
  · cases h

theorem value_string {cs : List Char} (h : (string cs).isSome) (depth : Nat) :
    value (depth + 1) cs =
      (string cs).map fun (s, rest) => (.text (String.ofList s), rest) := by
  obtain ⟨tail, rfl | rfl⟩ := string_head h
  · rfl
  · rfl

theorem value_scalarForm {t : Tree} (h : Leaf t) {form : String} (hform : scalarForm? t = some form)
    (depth : Nat) (rest : List Char) :
    value (depth + 1) (form.toList ++ '\n' :: rest) = some (t, '\n' :: rest) := by
  cases h with
  | boolean b =>
    cases hform
    cases b <;> rfl
  | integer h =>
    cases hform
    exact value_integer h depth rest
  | text s =>
    cases hform
    have hhead : ∀ c, c ≠ '\n' → ('\n' :: rest).head? ≠ some c :=
      fun c hc h => hc (Option.some.inj h).symm
    have hstring := string_stringForm s (hhead '"' (by decide)) (hhead '\'' (by decide))
    rw [value_string (by rw [hstring]; rfl), hstring]
    exact congrArg (fun s => some (Tree.text s, '\n' :: rest)) String.ofList_toList

/-- No value begins with a blank. -/
theorem value_blank {c : Char} (hc : isBlank c) (depth : Nat) (cs : List Char) :
    value (depth + 1) (c :: cs) = none := by
  simp only [isBlank, Bool.or_eq_true, decide_eq_true_eq] at hc
  rcases hc with rfl | rfl
  · exact congrArg (Option.or · _) (time_of_head (by decide) cs)
  · exact congrArg (Option.or · _) (time_of_head (by decide) cs)

theorem skipBlank_scalarForm {t : Tree} (h : Leaf t) {form : String}
    (hform : scalarForm? t = some form) (rest : List Char) :
    skipBlank (form.toList ++ '\n' :: rest) = form.toList ++ '\n' :: rest := by
  have hvalue := value_scalarForm h hform 0 rest
  cases hcs : form.toList ++ '\n' :: rest with
  | nil => rfl
  | cons c cs =>
    refine List.dropWhile_cons_of_neg fun hblank => ?_
    rw [hcs, value_blank hblank] at hvalue
    cases hvalue

end NativeGate.Toml
