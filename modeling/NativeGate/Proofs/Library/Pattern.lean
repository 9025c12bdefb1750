import NativeGate.Library.Pattern
import NativeGate.Proofs.Text.Digits

/-!
The language of byte patterns. Blanks are deleted and what is left is cut into pairs. A pair should
be two hexadecimal digits (`HexPair`); but the reader of numbers takes a plus in front of what it
reads, so a plus and one digit are a byte too (`PlusPair`). No other texts are patterns, and without
a plus they are exactly the texts of an even number of digits (`byte_pattern_language`).
-/

namespace NativeGate.Pattern
open Text

/-! ### Pairs -/

/-- Two hexadecimal digits and the byte that they write, the high digit first. -/
inductive HexPair : Char → Char → UInt8 → Prop
  | intro {a b : Char} {d e : Nat} (hd : d < 16) (ha : Stands a d) (he : e < 16)
      (hb : Stands b e) : HexPair a b (.ofNat (16 * d + e))

/-- A plus before one digit, which is taken for the byte of the digit alone. -/
inductive PlusPair : Char → Char → UInt8 → Prop
  | intro {b : Char} {e : Nat} (he : e < 16) (hb : Stands b e) : PlusPair '+' b (.ofNat e)

/-- The pairs that are read. -/
def ReadPair (a b : Char) (x : UInt8) : Prop := HexPair a b x ∨ PlusPair a b x

/-- The characters are pairs of one sort, one for each byte. -/
inductive Spells (P : Char → Char → UInt8 → Prop) : List Char → List UInt8 → Prop
  | nil : Spells P [] []
  | pair {a b : Char} {x : UInt8} {cs : List Char} {bytes : List UInt8} (h : P a b x)
      (rest : Spells P cs bytes) : Spells P (a :: b :: cs) (x :: bytes)

/-- The character is a hexadecimal digit, in either case. -/
def IsDigit (c : Char) : Prop := ∃ d < 16, Stands c d

section
variable {a b c : Char} {d e n : Nat} {x : UInt8} {cs : List Char} {bytes : List UInt8}
  {P Q : Char → Char → UInt8 → Prop}

theorem digit?_eq_some_iff : digit? 16 c = some d ↔ d < 16 ∧ Stands c d :=
  ⟨stands_of_digit?, fun h => digit?_of_stands (by decide) h.1 h.2⟩

theorem natural?_one : natural? 16 [b] = some n ↔ n < 16 ∧ Stands b n := by
  rw [natural?_of_ne_nil 16 (by simp), accumulate?, Option.bind_eq_some_iff]
  constructor
  · rintro ⟨e, he, hn⟩
    obtain rfl : e = n := by simpa [accumulate?] using hn
    exact digit?_eq_some_iff.1 he
  · intro h
    exact ⟨n, digit?_eq_some_iff.2 h, by simp [accumulate?]⟩

theorem natural?_two :
    natural? 16 [a, b] = some n ↔
      ∃ d e, (d < 16 ∧ Stands a d) ∧ (e < 16 ∧ Stands b e) ∧ n = 16 * d + e := by
  rw [natural?_of_ne_nil 16 (by simp)]
  simp only [accumulate?, Option.bind_eq_some_iff, digit?_eq_some_iff, Option.some.injEq,
    Nat.zero_mul, Nat.zero_add]
  constructor
  · rintro ⟨d, hd, e, he, rfl⟩
    exact ⟨d, e, hd, he, by rw [Nat.mul_comm]⟩
  · rintro ⟨d, e, hd, he, rfl⟩
    exact ⟨d, hd, e, he, by rw [Nat.mul_comm]⟩

/-- A plus is no digit. -/
theorem not_isDigit_plus : ¬ IsDigit '+' := by
  rintro ⟨d, hd, hplus⟩
  have h : digit? 16 '+' = some d := digit?_eq_some_iff.2 ⟨hd, hplus⟩
  cases h

/-- Two characters are read as a number of one byte just when they are a pair that is read. -/
theorem readPair_iff :
    ReadPair a b x ↔ ∃ n, unsigned? 16 [a, b] = some n ∧ UInt8.ofNat n = x := by
  constructor
  · rintro (⟨hd, ha, he, hb⟩ | ⟨he, hb⟩)
    · have hplus : a ≠ '+' := by
        rintro rfl
        exact not_isDigit_plus ⟨_, hd, ha⟩
      refine ⟨_, ?_, rfl⟩
      rw [unsigned?, natural?_two]
      · exact ⟨_, _, ⟨hd, ha⟩, ⟨he, hb⟩, rfl⟩
      · rintro rest ⟨⟩
        exact hplus rfl
    · exact ⟨_, natural?_one.2 ⟨he, hb⟩, rfl⟩
  · rintro ⟨n, h, rfl⟩
    unfold unsigned? at h
    split at h
    · rename_i hcs
      cases hcs
      obtain ⟨he, hb⟩ := natural?_one.1 h
      exact .inr (.intro he hb)
    · obtain ⟨d, e, ⟨hd, ha⟩, ⟨he, hb⟩, rfl⟩ := natural?_two.1 h
      exact .inl (.intro hd ha he hb)

/-! ### Sequences of pairs -/

/-- Characters are read as bytes just when they are pairs that are read. -/
theorem pairs?_eq_some_iff : pairs? cs = some bytes ↔ Spells ReadPair cs bytes := by
  induction cs using pairs?.induct generalizing bytes with
  | case1 =>
    constructor
    · rintro ⟨⟩
      exact .nil
    · rintro ⟨⟩
      rfl
  | case2 c =>
    constructor <;> rintro ⟨⟩
  | case3 a b rest ih =>
    rw [pairs?, Option.bind_eq_some_iff]
    constructor
    · rintro ⟨n, hn, h⟩
      obtain ⟨bytes, hrest, rfl⟩ := Option.map_eq_some_iff.1 h
      exact .pair (readPair_iff.2 ⟨n, hn, rfl⟩) (ih.1 hrest)
    · rintro (_ | ⟨h, hrest⟩)
      obtain ⟨n, hn, rfl⟩ := readPair_iff.1 h
      exact ⟨n, hn, by rw [ih.2 hrest, Option.map_some]⟩

theorem Spells.mono (h : Spells P cs bytes)
    (hPQ : ∀ a ∈ cs, ∀ b x, P a b x → Q a b x) : Spells Q cs bytes := by
  induction h with
  | nil => exact .nil
  | pair hpair rest ih =>
    refine .pair (hPQ _ List.mem_cons_self _ _ hpair) (ih fun a ha => hPQ a ?_)
    exact List.mem_cons_of_mem _ (List.mem_cons_of_mem _ ha)

/-- Where no plus stands, the pairs that are read are digits. -/
theorem spells_readPair_iff (hplus : '+' ∉ cs) :
    Spells ReadPair cs bytes ↔ Spells HexPair cs bytes := by
  refine ⟨fun h => h.mono ?_, fun h => h.mono fun _ _ _ _ => .inl⟩
  rintro a ha b x (h | ⟨-, -⟩)
  · exact h
  · exact absurd ha hplus

/-- Characters are pairs of digits just when they are digits, and an even number of them. -/
theorem exists_spells_hexPair_iff :
    (∃ bytes, Spells HexPair cs bytes) ↔ cs.length % 2 = 0 ∧ ∀ c ∈ cs, IsDigit c := by
  induction cs using pairs?.induct with
  | case1 => exact ⟨fun _ => ⟨rfl, nofun⟩, fun _ => ⟨[], .nil⟩⟩
  | case2 c =>
    constructor
    · rintro ⟨_, ⟨⟩⟩
    · rintro ⟨⟨⟩, -⟩
  | case3 a b rest ih =>
    simp only [List.length_cons, List.forall_mem_cons, Nat.add_assoc, Nat.add_mod_right]
    constructor
    · rintro ⟨_, _ | ⟨⟨hd, ha, he, hb⟩, hrest⟩⟩
      obtain ⟨heven, hdigits⟩ := ih.1 ⟨_, hrest⟩
      exact ⟨heven, ⟨_, hd, ha⟩, ⟨_, he, hb⟩, hdigits⟩
    · rintro ⟨heven, ⟨d, hd, ha⟩, ⟨e, he, hb⟩, hdigits⟩
      obtain ⟨bytes, hrest⟩ := ih.2 ⟨heven, hdigits⟩
      exact ⟨_, .pair (.intro hd ha he hb) hrest⟩

end

/-! ### Identifiers -/

section
variable {identifier : String} {bytes : List UInt8}

/-- What is left of a text when its blanks are deleted. -/
def unblanked (text : String) : List Char := text.toList.filter fun c => !isBlank c

theorem parse_of_no_space (h : ' ' ∉ identifier.toList) : parse identifier = .ok none := by
  rw [parse, if_pos h]

/-- A text with a space in it is read as bytes, or refused. -/
theorem parse_of_space (h : ' ' ∈ identifier.toList) :
    parse identifier =
      match unblanked identifier, pairs? (unblanked identifier) with
      | _ :: _, some bytes => .ok (some bytes)
      | _, _ => .error (.library (.invalidPattern identifier)) := by
  rw [parse, if_neg (not_not.2 h)]
  rfl

theorem parse_eq_ok_some_iff (h : ' ' ∈ identifier.toList) :
    parse identifier = .ok (some bytes) ↔
      unblanked identifier ≠ [] ∧ Spells ReadPair (unblanked identifier) bytes := by
  rw [parse_of_space h, ← pairs?_eq_some_iff]
  cases unblanked identifier with
  | nil => simp
  | cons c cs =>
    cases pairs? (c :: cs) with
    | none => simp
    | some bytes' => simp

theorem parse_eq_error_iff (h : ' ' ∈ identifier.toList) :
    parse identifier = .error (.library (.invalidPattern identifier)) ↔
      ∀ bytes, parse identifier ≠ .ok (some bytes) := by
  rw [parse_of_space h]
  cases unblanked identifier with
  | nil => simp
  | cons c cs => cases pairs? (c :: cs) <;> simp

/-- The language of byte patterns. An identifier without a space is the name of a symbol. One with a
    space is a pattern just when something is left of it without its blanks, and that is pairs, each
    of two hexadecimal digits or of a plus and one digit; the bytes are those of the pairs in order.
    Every other one is refused. Where no plus is left, the patterns are the texts of an even number
    of hexadecimal digits, and the bytes are the values of the successive pairs. -/
theorem byte_pattern_language (identifier : String) :
    let digits := identifier.toList.filter fun c => !isBlank c
    (' ' ∉ identifier.toList → parse identifier = .ok none) ∧
    (' ' ∈ identifier.toList →
      (∀ bytes, parse identifier = .ok (some bytes) ↔
        digits ≠ [] ∧ Spells (fun a b x => HexPair a b x ∨ PlusPair a b x) digits bytes) ∧
      (parse identifier = .error (.library (.invalidPattern identifier)) ↔
        ∀ bytes, parse identifier ≠ .ok (some bytes)) ∧
      ('+' ∉ digits →
        (∀ bytes, parse identifier = .ok (some bytes) ↔
          digits ≠ [] ∧ Spells HexPair digits bytes) ∧
        ((∃ bytes, parse identifier = .ok (some bytes)) ↔
          digits ≠ [] ∧ digits.length % 2 = 0 ∧ ∀ c ∈ digits, IsDigit c))) := by
  intro digits
  refine ⟨parse_of_no_space, fun h => ⟨fun _ => parse_eq_ok_some_iff h, parse_eq_error_iff h,
    fun hplus => ?_⟩⟩
  have hread : ∀ bytes, parse identifier = .ok (some bytes) ↔
      digits ≠ [] ∧ Spells HexPair digits bytes := fun bytes => by
    rw [parse_eq_ok_some_iff h]
    exact and_congr_right fun _ => spells_readPair_iff hplus
  refine ⟨hread, ?_⟩
  simp only [hread, exists_and_left, exists_spells_hexPair_iff]

/-- A plus and a digit are read as a byte, though they are not two digits. -/
theorem pattern_with_plus :
    parse "55 +8" = .ok (some [0x55, 0x08]) ∧
      ¬ ∀ c ∈ "55 +8".toList.filter fun c => !isBlank c, IsDigit c := by
  refine ⟨by decide, fun h => not_isDigit_plus (h '+' (by decide))⟩

end

end NativeGate.Pattern
