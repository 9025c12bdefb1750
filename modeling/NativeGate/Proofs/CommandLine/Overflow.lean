import NativeGate.Proofs.CommandLine.Integers

/-!
Overflow in reading words. The readers of digits and the conversions between types give nothing
where a number does not fit, so the negation of a 128-bit integer behind a minus is all that can
overflow. The digits behind the minus may bring a minus of their own, so the least integer can stand
there, which has no negation in 128 bits. On such words, and on no others, a build with checks
stops; a build without goes round, to an integer that no type holds, and refuses them
(`checked_reading_stops_at_least`).
-/

namespace NativeGate.CommandLine
open Text

/-- A minus in front, and behind it the least integer of 128 bits with a minus of its own. -/
inductive NegatesLeast : List Char → Prop
  | decimal {ds : List Char} (h : Numeral 10 ds (2 ^ 127)) : NegatesLeast ('-' :: '-' :: ds)
  | marked {x : Char} {ds : List Char} (hx : x = 'x' ∨ x = 'X') (h : Numeral 16 ds (2 ^ 127)) :
      NegatesLeast ('-' :: '0' :: x :: '-' :: ds)

section
variable {b : Build} {text : String} {k : Kind} {index : Nat} {n : Int} {cs : List Char}
  {o : Overflow}

/-! ### The integer of a word -/

/-- Behind a minus, the least integer is read from a minus and digits. -/
theorem negatesLeast_iff :
    NegatesLeast cs ↔ ∃ rest, cs = '-' :: rest ∧ wideInteger? rest = some (-(2 ^ 127)) := by
  have hwide : FitsSigned 128 (-(2 ^ 127)) := by decide
  constructor
  · intro h
    cases h with
    | decimal h =>
      exact ⟨_, rfl, wideInteger?_eq_some_iff.2
        ⟨number?_eq_some_iff.2 (.inl ⟨.minus, _, _, rfl, h, rfl⟩), hwide⟩⟩
    | marked hx h =>
      exact ⟨_, rfl, wideInteger?_eq_some_iff.2
        ⟨number?_eq_some_iff.2 (.inr ⟨_, .minus, _, _, hx, rfl, h, rfl⟩), hwide⟩⟩
  · rintro ⟨rest, rfl, hread⟩
    -- a negative number was written with a minus
    have hminus : ∀ {t : Sign} {m : Nat}, -(2 ^ 127 : Int) = t.apply m →
        t = .minus ∧ m = 2 ^ 127 := fun {t m} h => by
      cases t with
      | minus => exact ⟨rfl, by simp only [Sign.apply] at h; omega⟩
      | bare | plus => simp only [Sign.apply] at h; omega
    rcases number?_eq_some_iff.1 (wideInteger?_eq_some_iff.1 hread).1 with
      ⟨t, ds, m, rfl, hm, ht⟩ | ⟨x, t, ds, m, hx, rfl, hm, ht⟩
    · obtain ⟨rfl, rfl⟩ := hminus ht
      exact .decimal hm
    · obtain ⟨rfl, rfl⟩ := hminus ht
      exact .marked hx hm

/-- Only a build with checks stops at a negation, and only at that of the least integer. -/
theorem Build.negate_eq_error_iff (hn : FitsSigned 128 n) :
    b.negate n = .error o ↔ b = .checked ∧ n = -(2 ^ 127) ∧ o = ⟨2 ^ 127⟩ := by
  obtain ⟨hlow, hhigh⟩ := hn
  cases b with
  | wrapping =>
    constructor
    · intro h
      cases h
    · rintro ⟨hb, -⟩
      cases hb
  | checked =>
    rw [negate]
    split
    · rename_i hwide
      have hne : n ≠ -(2 ^ 127) := fun h => absurd hwide (h ▸ by decide)
      constructor
      · intro h
        cases h
      · rintro ⟨-, hn, -⟩
        exact absurd hn hne
    · rename_i hwide
      have hleast : n = -(2 ^ 127) := by
        by_contra hne
        exact hwide ⟨by omega, by omega⟩
      subst hleast
      simp [eq_comm]

/-- Reading the integer of a word stops just in a build with checks at a word that negates the least
    integer. -/
theorem integer?_eq_error_iff :
    integer? b cs = .error o ↔ b = .checked ∧ NegatesLeast cs ∧ o = ⟨2 ^ 127⟩ := by
  rw [negatesLeast_iff]
  by_cases hminus : ∃ rest, cs = '-' :: rest
  · obtain ⟨rest, rfl⟩ := hminus
    rw [integer?]
    cases hread : wideInteger? rest with
    | none => simp [hread]
    | some n =>
      have hwide := (wideInteger?_eq_some_iff.1 hread).2
      simp [Except.map_eq_error_iff, Build.negate_eq_error_iff hwide, hread]
  · have hminus : ∀ rest, cs ≠ '-' :: rest := fun rest he => hminus ⟨rest, he⟩
    simp [integer?_of_ne_minus b hminus, hminus]

/-- Every build reads the integer of any other word alike. -/
theorem integer?_eq_of_not_negatesLeast (h : ¬ NegatesLeast cs) (b b' : Build) :
    integer? b cs = integer? b' cs := by
  by_cases hminus : ∃ rest, cs = '-' :: rest
  · obtain ⟨rest, rfl⟩ := hminus
    rw [integer?, integer?]
    cases hread : wideInteger? rest with
    | none => rfl
    | some n =>
      have hwide := (wideInteger?_eq_some_iff.1 hread).2
      have hne : n ≠ -(2 ^ 127) := fun hn => h (negatesLeast_iff.2 ⟨rest, rfl, hn ▸ hread⟩)
      have hneg : ∀ b : Build, b.negate n = .ok (-n) := fun b => by
        obtain ⟨hlow, hhigh⟩ := hwide
        exact (Build.negate_eq_ok_iff ⟨hlow, hhigh⟩ (by omega) (by omega)).2 rfl
      simp only [hneg]
  · have hminus : ∀ rest, cs ≠ '-' :: rest := fun rest he => hminus ⟨rest, he⟩
    rw [integer?_of_ne_minus b hminus, integer?_of_ne_minus b' hminus]

/-! ### Words -/

theorem NegatesLeast.ne_null (h : NegatesLeast text.toList) : text ≠ "null" := by
  rintro rfl
  obtain ⟨rest, hrest, -⟩ := negatesLeast_iff.1 h
  cases hrest

/-- Fitting what a word says does not stop the build. -/
theorem fit_ne_stopped (v : Option Value) :
    ((taken text k index v).bind fun v => (v.coerce k index).mapError .refused) ≠
      .error (.stopped o) := by
  intro h
  rcases Except.bind_eq_error_iff.1 h with h | ⟨v, -, h⟩
  · cases (taken_eq_error_iff.1 h).2
  · obtain ⟨_, -, ⟨⟩⟩ := Except.mapError_eq_error_iff.1 h

/-- A word stops the build just where its integer does. -/
theorem readWord_eq_stopped_iff :
    readWord b text k index = .error (.stopped o) ↔
      ReadAsInteger k ∧ (k = .pointer → text ≠ "null") ∧ integer? b text.toList = .error o := by
  by_cases hk : ReadAsInteger k
  · by_cases hnull : k = .pointer → text ≠ "null"
    · rw [readWord_counted hk hnull]
      cases integer? b text.toList with
      | error o' =>
        constructor
        · rintro ⟨⟩
          exact ⟨hk, hnull, rfl⟩
        · rintro ⟨-, -, ⟨⟩⟩
          rfl
      | ok n => simpa [Except.mapError, Except.bind, hk] using fit_ne_stopped (n.bind widest?)
    · obtain ⟨rfl, rfl⟩ : k = .pointer ∧ text = "null" := by simpa using hnull
      exact ⟨nofun, fun h => absurd rfl (h.2.1 rfl)⟩
  · refine ⟨fun h => ?_, fun h => absurd h.1 hk⟩
    cases k with
    | void | integer _ | pointer => exact absurd trivial hk
    | bool | float | double => exact absurd h (fit_ne_stopped _)
    | string =>
      rw [readWord, rawWord] at h
      split at h
      · cases h
      · rcases Except.bind_eq_error_iff.1 h with h | ⟨v, -, h⟩ <;>
          obtain ⟨_, -, ⟨⟩⟩ := Except.mapError_eq_error_iff.1 h

/-- Every build reads any other word alike. -/
theorem readWord_eq_of_not_negatesLeast (h : ¬ (ReadAsInteger k ∧ NegatesLeast text.toList))
    (b b' : Build) (index : Nat) : readWord b text k index = readWord b' text k index := by
  by_cases hk : ReadAsInteger k
  · by_cases hnull : k = .pointer → text ≠ "null"
    · rw [readWord_counted hk hnull, readWord_counted hk hnull,
        integer?_eq_of_not_negatesLeast (fun hleast => h ⟨hk, hleast⟩) b b']
    · obtain ⟨rfl, rfl⟩ : k = .pointer ∧ text = "null" := by simpa using hnull
      rfl
  · cases k with
    | bool | float | double | string => rfl
    | void | integer _ | pointer => exact absurd trivial hk

/-- The integer that the negation goes round to is too small for every type, so the word is
    refused. -/
theorem wrapping_refuses_negatesLeast (hk : ReadAsInteger k) (h : NegatesLeast text.toList)
    (index : Nat) :
    readWord .wrapping text k index =
      .error (.refused (.argumentType index k (.word text))) := by
  obtain ⟨rest, hrest, hread⟩ := negatesLeast_iff.1 h
  have hround : integer? .wrapping text.toList = .ok (some (-(2 ^ 127))) := by
    rw [hrest, integer?, hread]
    rfl
  have hwidest : widest? (-(2 ^ 127)) = none := widest?_eq_none_iff.2 (.inl (by decide))
  rw [readWord_counted hk fun _ => h.ne_null, hround]
  simp only [Except.mapError, Except.bind, Option.bind_some, hwidest, taken]

/-- Where reading a word overflows. A build with checks for overflow stops at a word just when the
    word is to be read as an integer and negates the least integer of 128 bits, which its digits
    write with a minus of their own; the result that does not fit is the power of two. A build
    without checks never stops. It reads every other word as the build with checks does, and words
    that negate the least integer are refused there. -/
theorem checked_reading_stops_at_least (text : String) (k : Kind) (index : Nat) :
    (∀ o, readWord .checked text k index = .error (.stopped o) ↔
      ReadAsInteger k ∧ NegatesLeast text.toList ∧ o = ⟨2 ^ 127⟩) ∧
    (∀ o, readWord .wrapping text k index ≠ .error (.stopped o)) ∧
    (¬ (ReadAsInteger k ∧ NegatesLeast text.toList) →
      readWord .checked text k index = readWord .wrapping text k index) ∧
    (ReadAsInteger k → NegatesLeast text.toList →
      readWord .wrapping text k index =
        .error (.refused (.argumentType index k (.word text)))) := by
  refine ⟨fun o => ?_, fun o h => ?_, fun h => readWord_eq_of_not_negatesLeast h _ _ index,
    fun hk h => wrapping_refuses_negatesLeast hk h index⟩
  · rw [readWord_eq_stopped_iff, integer?_eq_error_iff]
    constructor
    · rintro ⟨hk, -, -, hleast, ho⟩
      exact ⟨hk, hleast, ho⟩
    · rintro ⟨hk, hleast, ho⟩
      exact ⟨hk, fun _ => hleast.ne_null, rfl, hleast, ho⟩
  · cases (integer?_eq_error_iff.1 (readWord_eq_stopped_iff.1 h).2.2).1

/-- Two minus signs before the least integer stop a build with checks at a number of 129 bits. -/
theorem least_integer_negated_twice :
    readWord .checked "--170141183460469231731687303715884105728" (.integer .int) 0 =
        .error (.stopped ⟨170141183460469231731687303715884105728⟩) ∧
      ¬ FitsSigned 128 170141183460469231731687303715884105728 := by
  decide

end

end NativeGate.CommandLine
