import Mathlib.Data.List.Induction
import NativeGate.Text.Digits

/-!
Numbers and the characters that write them. `Numeral` says what number digits write, one digit at a
time from the left; a text is read as a number just when it is such digits (`natural?_eq_some_iff`),
and as an integer just when these stand behind at most one sign (`signed?_eq_some_iff`). The digits
that are printed for a number are among those that write it (`numeral_toDigits`).
-/

namespace NativeGate.Text

/-! ### Digits -/

/-- The character `c` stands for the digit `d`; a letter may be of either case. -/
def Stands (c : Char) (d : Nat) : Prop := c = d.digitChar ∨ c = d.digitChar.toUpper

/-- The characters are digits in base `b`, at least one of them, and write the number. -/
inductive Numeral (b : Nat) : List Char → Nat → Prop
  | digit {c : Char} {d : Nat} (hd : d < b) (hc : Stands c d) : Numeral b [c] d
  | more {cs : List Char} {n : Nat} {c : Char} {d : Nat} (h : Numeral b cs n) (hd : d < b)
      (hc : Stands c d) : Numeral b (cs ++ [c]) (n * b + d)

section
variable {b d n : Nat} {c : Char} {cs ds : List Char}

theorem digit?_of_stands (hb : b ≤ 16) (hd : d < b) (hc : Stands c d) : digit? b c = some d := by
  have hlower : ∀ b ≤ 16, ∀ d < b, digit? b d.digitChar = some d := by decide
  have hupper : ∀ b ≤ 16, ∀ d < b, digit? b d.digitChar.toUpper = some d := by decide
  rcases hc with rfl | rfl
  · exact hlower b hb d hd
  · exact hupper b hb d hd

/-- A character is only read as a digit that it stands for. -/
theorem stands_of_digit? (h : digit? b c = some d) : d < b ∧ Stands c d := by
  have hdecimal : ∀ n < 58, 48 ≤ n → Char.ofNat n = (n - 48).digitChar := by decide
  have hlower : ∀ n < 103, 97 ≤ n → Char.ofNat n = (n - 87).digitChar := by decide
  have hupper : ∀ n < 71, 65 ≤ n → Char.ofNat n = (n - 55).digitChar.toUpper := by decide
  have hback : Char.ofNat c.toNat = c := Char.ofNat_toNat c
  simp only [digit?, Option.ite_none_right_eq_some, Option.some.injEq] at h
  obtain ⟨hlt, rfl⟩ := h
  refine ⟨hlt, ?_⟩
  split_ifs at hlt ⊢ with h1 h2 h3
  · exact .inl (hback.symm.trans (hdecimal _ (by omega) h1.1))
  · exact .inl (hback.symm.trans (hlower _ (by omega) h2.1))
  · exact .inr (hback.symm.trans (hupper _ (by omega) h3.1))
  · exact absurd hlt (Nat.lt_irrefl b)

/-! ### Natural numbers -/

theorem accumulate?_append (base acc : Nat) (cs ds : List Char) :
    accumulate? base acc (cs ++ ds) =
      (accumulate? base acc cs).bind fun n => accumulate? base n ds := by
  induction cs generalizing acc with
  | nil => rfl
  | cons c cs ih =>
    rw [List.cons_append, accumulate?, accumulate?]
    cases digit? base c with
    | none => rfl
    | some d => exact ih _

theorem natural?_of_ne_nil (b : Nat) (h : cs ≠ []) : natural? b cs = accumulate? b 0 cs := by
  cases cs with
  | nil => exact absurd rfl h
  | cons c cs => rfl

theorem Numeral.ne_nil (h : Numeral b cs n) : cs ≠ [] := by
  cases h <;> simp

/-- A text is read as a natural number just when it is digits that write it. -/
theorem natural?_eq_some_iff (hb : b ≤ 16) : natural? b cs = some n ↔ Numeral b cs n := by
  constructor
  · intro h
    induction cs using List.reverseRecOn generalizing n with
    | nil => cases h
    | append_singleton cs c ih =>
      rw [natural?_of_ne_nil b (by simp), accumulate?_append] at h
      obtain ⟨m, hm, h⟩ := Option.bind_eq_some_iff.1 h
      obtain ⟨d, hd, h⟩ := Option.bind_eq_some_iff.1 h
      cases h
      obtain ⟨hlt, hc⟩ := stands_of_digit? hd
      by_cases hcs : cs = []
      · subst hcs
        cases hm
        rw [Nat.zero_mul, Nat.zero_add]
        exact .digit hlt hc
      · exact .more (ih (natural?_of_ne_nil b hcs ▸ hm)) hlt hc
  · intro h
    rw [natural?_of_ne_nil b h.ne_nil]
    induction h with
    | digit hd hc => simp [accumulate?, digit?_of_stands hb hd hc]
    | more h hd hc ih => simp [accumulate?_append, ih, accumulate?, digit?_of_stands hb hd hc]

theorem Numeral.unique {m : Nat} (hb : b ≤ 16) (h : Numeral b cs m) (h' : Numeral b cs n) :
    m = n := by
  have hm := (natural?_eq_some_iff hb).2 h
  rw [(natural?_eq_some_iff hb).2 h', Option.some.injEq] at hm
  exact hm.symm

/-- Every character of a number is a digit. -/
theorem Numeral.stands (h : Numeral b cs n) : ∀ c ∈ cs, ∃ d < b, Stands c d := by
  induction h with
  | digit hd hc =>
    intro c hmem
    rw [List.mem_singleton.1 hmem]
    exact ⟨_, hd, hc⟩
  | more _ hd hc ih =>
    intro c hmem
    rcases List.mem_append.1 hmem with hmem | hmem
    · exact ih c hmem
    · rw [List.mem_singleton.1 hmem]
      exact ⟨_, hd, hc⟩

/-- A character that is no digit is not in a number. -/
theorem Numeral.not_mem (hb : b ≤ 16) (h : Numeral b cs n) (hc : digit? b c = none) : c ∉ cs := by
  intro hmem
  obtain ⟨d, hd, hstands⟩ := h.stands c hmem
  rw [digit?_of_stands hb hd hstands] at hc
  cases hc

/-- The digits that are printed for a number write it. -/
theorem numeral_toDigits (hb : 1 < b) (n : Nat) : Numeral b (Nat.toDigits b n) n := by
  induction n using Nat.strongRecOn with
  | ind n ih =>
    by_cases h : n < b
    · rw [Nat.toDigits_of_lt_base h]
      exact .digit h (.inl rfl)
    · have hle : b ≤ n := Nat.le_of_not_lt h
      have hless : n / b < n := Nat.div_lt_self (by omega) hb
      have hmore := (ih (n / b) hless).more (Nat.mod_lt n (by omega)) (.inl rfl)
      rw [Nat.div_add_mod'] at hmore
      rwa [Nat.toDigits_of_base_le hb hle]

/-- A number is read from the digits that are printed for it. -/
theorem natural?_toDigits (hb : 1 < b) (hb' : b ≤ 16) (n : Nat) :
    natural? b (Nat.toDigits b n) = some n :=
  (natural?_eq_some_iff hb').2 (numeral_toDigits hb n)

end

/-! ### Signs -/

/-- A sign in front of a number, or none. -/
inductive Sign where
  | bare | plus | minus
deriving DecidableEq

namespace Sign

def chars : Sign → List Char
  | bare => []
  | plus => ['+']
  | minus => ['-']

/-- The integer with the sign put before it. -/
def apply : Sign → Int → Int
  | bare, n | plus, n => n
  | minus, n => -n

end Sign

section
variable {b : Nat} {cs : List Char} {n : Int}

/-- A text is read as an integer just when it is digits behind at most one sign. -/
theorem signed?_eq_some_iff (hb : b ≤ 16) :
    signed? b cs = some n ↔
      ∃ (s : Sign) (ds : List Char) (m : Nat), cs = s.chars ++ ds ∧ Numeral b ds m ∧
        n = s.apply m := by
  constructor
  · intro h
    unfold signed? at h
    split at h
    · obtain ⟨m, hm, rfl⟩ := Option.map_eq_some_iff.1 h
      exact ⟨.plus, _, m, rfl, (natural?_eq_some_iff hb).1 hm, rfl⟩
    · obtain ⟨_, hm, rfl⟩ := Option.map_eq_some_iff.1 h
      obtain ⟨m, hread, ⟨⟩⟩ := Option.bind_eq_some_iff.1 hm
      exact ⟨.minus, _, m, rfl, (natural?_eq_some_iff hb).1 hread, rfl⟩
    · obtain ⟨m, hm, rfl⟩ := Option.map_eq_some_iff.1 h
      exact ⟨.bare, _, m, rfl, (natural?_eq_some_iff hb).1 hm, rfl⟩
  · rintro ⟨s, ds, m, rfl, hm, rfl⟩
    have hread := (natural?_eq_some_iff hb).2 hm
    have hplus : '+' ∉ ds := hm.not_mem hb (by simp [digit?])
    have hminus : '-' ∉ ds := hm.not_mem hb (by simp [digit?])
    cases s with
    | plus => exact congrArg (Option.map Int.ofNat) hread
    | minus =>
      rw [Sign.chars, List.cons_append, List.nil_append, signed?, hread]
      rfl
    | bare =>
      rw [Sign.chars, List.nil_append, signed?, hread]
      · rfl
      · rintro rest rfl
        exact hplus List.mem_cons_self
      · rintro rest rfl
        exact hminus List.mem_cons_self

end

end NativeGate.Text
