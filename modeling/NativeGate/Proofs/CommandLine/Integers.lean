import NativeGate.CommandLine.Words
import NativeGate.Proofs.Coercion.Integers
import NativeGate.Proofs.Outcome
import NativeGate.Proofs.Text.Digits

/-!
Words of a command line that are read as integers. A word should write an integer as `Literal` says:
digits in base ten, or in base sixteen behind a mark, and at most one sign in front of all. Every
such word whose integer is in range is read as that integer, unless a plus stands before the mark.
But a minus is taken off before the digits are read, and these may bring a sign of their own, as
they may behind the mark; such words are read too, and no others (`integer_word_language`).
-/

namespace NativeGate.CommandLine
open Text

/-! ### Words that write integers -/

/-- Digits without a sign, in base ten, or in base sixteen behind the mark. -/
inductive Unsigned : List Char → Nat → Prop
  | decimal {ds : List Char} {m : Nat} (h : Numeral 10 ds m) : Unsigned ds m
  | marked {x : Char} {ds : List Char} {m : Nat} (hx : x = 'x' ∨ x = 'X') (h : Numeral 16 ds m) :
      Unsigned ('0' :: x :: ds) m

/-- An integer as it should be written, with at most one sign in front. -/
inductive Literal : List Char → Int → Prop
  | intro {cs : List Char} {m : Nat} (s : Sign) (h : Unsigned cs m) :
      Literal (s.chars ++ cs) (s.apply m)

/-- A plus stands before the mark of base sixteen. -/
def PlusMarked (cs : List Char) : Prop :=
  ∃ x rest, (x = 'x' ∨ x = 'X') ∧ cs = '+' :: '0' :: x :: rest

/-- A sign stands before the digits that are behind a minus already, or behind the mark. -/
inductive Missigned : List Char → Int → Prop
  | decimal {ds : List Char} {m : Nat} (t : Sign) (ht : t ≠ .bare) (h : Numeral 10 ds m) :
      Missigned ('-' :: (t.chars ++ ds)) (-t.apply m)
  | marked {x : Char} {ds : List Char} {m : Nat} (s t : Sign) (hs : s ≠ .plus) (ht : t ≠ .bare)
      (hx : x = 'x' ∨ x = 'X') (h : Numeral 16 ds m) :
      Missigned (s.chars ++ '0' :: x :: (t.chars ++ ds)) (s.apply (t.apply m))

/-- The words that are read as an integer. -/
def Readable (cs : List Char) (n : Int) : Prop :=
  Literal cs n ∧ ¬ PlusMarked cs ∨ Missigned cs n

/-- No sign stands in front. -/
def Unled (cs : List Char) : Prop :=
  ∀ (s : Sign) (rest : List Char), cs = s.chars ++ rest → s = .bare

section
variable {x : Char} {b m m' : Nat} {n n' : Int} {cs cs' ds : List Char} {s s' t : Sign}

theorem unled_of_numeral (hb : b ≤ 16) (h : Numeral b ds m) : Unled ds := by
  have hplus : '+' ∉ ds := h.not_mem hb (by simp [digit?])
  have hminus : '-' ∉ ds := h.not_mem hb (by simp [digit?])
  rintro (_ | _ | _) rest rfl
  · rfl
  · exact absurd List.mem_cons_self hplus
  · exact absurd List.mem_cons_self hminus

theorem unled_marked : Unled ('0' :: x :: cs) := by
  rintro (_ | _ | _) rest h
  · rfl
  · cases h
  · cases h

theorem Unsigned.unled (h : Unsigned cs m) : Unled cs := by
  cases h with
  | decimal h => exact unled_of_numeral (by decide) h
  | marked => exact unled_marked

/-- What stands behind the sign is known, and so is the sign. -/
theorem Unled.append_inj (h : Unled cs) (h' : Unled cs')
    (he : s.chars ++ cs = s'.chars ++ cs') : s = s' ∧ cs = cs' := by
  cases s with
  | bare =>
    cases h s' cs' he
    exact ⟨rfl, he⟩
  | plus | minus =>
    cases s' with
    | bare => cases h' _ cs he.symm
    | plus | minus => cases he <;> exact ⟨rfl, rfl⟩

/-- The letter of the mark is no decimal digit. -/
theorem not_numeral_marked (hx : x = 'x' ∨ x = 'X') : ¬ Numeral 10 ('0' :: x :: cs) m := by
  intro h
  refine h.not_mem (c := x) (by decide) ?_ (List.mem_cons_of_mem _ List.mem_cons_self)
  rcases hx with rfl | rfl <;> rfl

theorem Unsigned.unique (h : Unsigned cs m) (h' : Unsigned cs m') : m = m' := by
  cases h with
  | decimal h =>
    cases h' with
    | decimal h' => exact h.unique (by decide) h'
    | marked hx => exact absurd h (not_numeral_marked hx)
  | marked hx h =>
    cases h' with
    | decimal h' => exact absurd h' (not_numeral_marked hx)
    | marked _ h' => exact h.unique (by decide) h'

theorem literal_iff :
    Literal cs n ↔ ∃ (s : Sign) (ds : List Char) (m : Nat), cs = s.chars ++ ds ∧ Unsigned ds m ∧
      n = s.apply m := by
  constructor
  · rintro ⟨s, h⟩
    exact ⟨s, _, _, rfl, h, rfl⟩
  · rintro ⟨s, ds, m, rfl, h, rfl⟩
    exact .intro s h

/-- A word writes one integer at most. -/
theorem Literal.unique (h : Literal cs n) (h' : Literal cs n') : n = n' := by
  obtain ⟨s, hu⟩ := h
  obtain ⟨s', ds, m, he, hu', rfl⟩ := literal_iff.1 h'
  obtain ⟨rfl, rfl⟩ := hu.unled.append_inj hu'.unled he
  rw [hu.unique hu']

/-- A word with a sign where none belongs does not write an integer. -/
theorem Missigned.not_literal (h : Missigned cs n) : ¬ Literal cs n' := by
  rw [literal_iff]
  rintro ⟨s', ds', m', he, hu, -⟩
  cases h with
  | decimal t ht _ =>
    -- behind the minus the digits begin with the other sign
    cases s' with
    | bare => cases hu.unled .minus _ he.symm
    | plus => cases he
    | minus => exact ht (hu.unled t _ (List.cons.inj he).2.symm)
  | marked s t _ ht hx h =>
    obtain ⟨-, rfl⟩ := unled_marked.append_inj hu.unled he
    cases hu with
    | decimal h' => exact not_numeral_marked hx h'
    | marked _ h' => exact ht (unled_of_numeral (by decide) h' t _ rfl)

/-! ### Reading -/

/-- The digits of a word as they are read behind a minus, before their size is looked at. -/
def number? (cs : List Char) : Option Int :=
  match cs with
  | '0' :: 'x' :: rest | '0' :: 'X' :: rest => signed? 16 rest
  | _ => signed? 10 cs

theorem wideInteger?_eq_some_iff :
    wideInteger? cs = some n ↔ number? cs = some n ∧ FitsSigned 128 n := by
  have hfilter : wideInteger? cs = (number? cs).filter (FitsSigned 128 ·) := rfl
  rw [hfilter, Option.filter_eq_some_iff, decide_eq_true_iff]

theorem number?_marked (hx : x = 'x' ∨ x = 'X') (cs : List Char) :
    number? ('0' :: x :: cs) = signed? 16 cs := by
  rcases hx with rfl | rfl <;> rfl

theorem number?_of_not_marked (h : ∀ x rest, x = 'x' ∨ x = 'X' → cs ≠ '0' :: x :: rest) :
    number? cs = signed? 10 cs := by
  unfold number?
  split
  · exact absurd rfl (h 'x' _ (.inl rfl))
  · exact absurd rfl (h 'X' _ (.inr rfl))
  · rfl

/-- Digits in base ten behind a sign are not marked. -/
theorem ne_marked_of_numeral (h : Numeral 10 ds m) (t : Sign) (x : Char) (rest : List Char)
    (hx : x = 'x' ∨ x = 'X') : t.chars ++ ds ≠ '0' :: x :: rest := by
  intro he
  cases t with
  | bare =>
    rw [Sign.chars, List.nil_append] at he
    exact not_numeral_marked hx (he ▸ h)
  | plus => cases he
  | minus => cases he

theorem number?_eq_some_iff :
    number? cs = some n ↔
      (∃ (t : Sign) (ds : List Char) (m : Nat), cs = t.chars ++ ds ∧ Numeral 10 ds m ∧
        n = t.apply m) ∨
      ∃ (x : Char) (t : Sign) (ds : List Char) (m : Nat), (x = 'x' ∨ x = 'X') ∧
        cs = '0' :: x :: (t.chars ++ ds) ∧ Numeral 16 ds m ∧ n = t.apply m := by
  constructor
  · intro h
    by_cases hmark : ∃ x rest, (x = 'x' ∨ x = 'X') ∧ cs = '0' :: x :: rest
    · obtain ⟨x, rest, hx, rfl⟩ := hmark
      rw [number?_marked hx, signed?_eq_some_iff (by decide)] at h
      obtain ⟨t, ds, m, rfl, hm, rfl⟩ := h
      exact .inr ⟨x, t, ds, m, hx, rfl, hm, rfl⟩
    · rw [number?_of_not_marked fun x rest hx he => hmark ⟨x, rest, hx, he⟩,
        signed?_eq_some_iff (by decide)] at h
      exact .inl h
  · rintro (⟨t, ds, m, rfl, hm, rfl⟩ | ⟨x, t, ds, m, hx, rfl, hm, rfl⟩)
    · rw [number?_of_not_marked (ne_marked_of_numeral hm t), signed?_eq_some_iff (by decide)]
      exact ⟨t, ds, m, rfl, hm, rfl⟩
    · rw [number?_marked hx, signed?_eq_some_iff (by decide)]
      exact ⟨t, ds, m, rfl, hm, rfl⟩

/-- What is read behind a minus makes the word one that is read, with a minus or without. -/
theorem readable_of_number? (h : number? cs = some n) :
    Readable ('-' :: cs) (-n) ∧ ((∀ rest, cs ≠ '-' :: rest) → Readable cs n) := by
  rcases number?_eq_some_iff.1 h with
    ⟨t, ds, m, rfl, hm, rfl⟩ | ⟨x, t, ds, m, hx, rfl, hm, rfl⟩
  · constructor
    · by_cases ht : t = .bare
      · subst ht
        exact .inl ⟨.intro .minus (.decimal hm), nofun⟩
      · exact .inr (.decimal t ht hm)
    · intro hminus
      refine .inl ⟨.intro t (.decimal hm), ?_⟩
      rintro ⟨x, rest, hx, he⟩
      cases t with
      | bare => cases unled_of_numeral (by decide) hm .plus _ he
      | plus =>
        obtain rfl : ds = '0' :: x :: rest := (List.cons.inj he).2
        exact not_numeral_marked hx hm
      | minus => exact hminus _ rfl
  · by_cases ht : t = .bare
    · subst ht
      exact ⟨.inl ⟨.intro .minus (.marked hx hm), nofun⟩,
        fun _ => .inl ⟨.intro .bare (.marked hx hm), nofun⟩⟩
    · exact ⟨.inr (.marked .minus t (by decide) ht hx hm),
        fun _ => .inr (.marked .bare t (by decide) ht hx hm)⟩

/-- A word that is read is read as `number?` does, behind a minus or without one. -/
theorem number?_of_readable (h : Readable cs n) :
    (∃ rest, cs = '-' :: rest ∧ number? rest = some (-n)) ∨
      (∀ rest, cs ≠ '-' :: rest) ∧ number? cs = some n := by
  have hled : ∀ {ds : List Char}, Unled ds → ∀ rest, ds ≠ '-' :: rest := fun h rest he => by
    cases h .minus rest he
  rcases h with ⟨⟨s, hu⟩, hplus⟩ | hm
  · cases s with
    | bare =>
      refine .inr ⟨hled hu.unled, number?_eq_some_iff.2 ?_⟩
      cases hu with
      | decimal hm => exact .inl ⟨.bare, _, _, rfl, hm, rfl⟩
      | marked hx hm => exact .inr ⟨_, .bare, _, _, hx, rfl, hm, rfl⟩
    | plus =>
      refine .inr ⟨nofun, number?_eq_some_iff.2 ?_⟩
      cases hu with
      | decimal hm => exact .inl ⟨.plus, _, _, rfl, hm, rfl⟩
      | marked hx hm => exact absurd ⟨_, _, hx, rfl⟩ hplus
    | minus =>
      refine .inl ⟨_, rfl, number?_eq_some_iff.2 ?_⟩
      rw [Sign.apply, Int.neg_neg]
      cases hu with
      | decimal hm => exact .inl ⟨.bare, _, _, rfl, hm, rfl⟩
      | marked hx hm => exact .inr ⟨_, .bare, _, _, hx, rfl, hm, rfl⟩
  · cases hm with
    | decimal t ht hm =>
      refine .inl ⟨_, rfl, number?_eq_some_iff.2 (.inl ⟨t, _, _, rfl, hm, ?_⟩)⟩
      exact Int.neg_neg _
    | marked s t hs ht hx hm =>
      cases s with
      | bare =>
        exact .inr ⟨nofun, number?_eq_some_iff.2 (.inr ⟨_, t, _, _, hx, rfl, hm, rfl⟩)⟩
      | plus => exact absurd rfl hs
      | minus =>
        refine .inl ⟨_, rfl, number?_eq_some_iff.2 (.inr ⟨_, t, _, _, hx, rfl, hm, ?_⟩)⟩
        exact Int.neg_neg _

end

/-! ### Builds -/

section
variable {b : Build} {n m : Int} {cs : List Char}

/-- Where the negation fits, but for the least integer, every build negates alike. -/
theorem Build.negate_eq_ok_iff (hn : FitsSigned 128 n) (hlow : -(2 ^ 127) < m)
    (hhigh : m < 2 ^ 127) : b.negate n = .ok m ↔ m = -n := by
  cases b with
  | checked =>
    rw [negate]
    split
    · rw [Except.ok.injEq, eq_comm]
    · rename_i hwide
      constructor
      · rintro ⟨⟩
      · rintro rfl
        exact absurd ⟨hlow.le, hhigh⟩ hwide
  | wrapping =>
    obtain ⟨hn, hn'⟩ := hn
    rw [negate, Except.ok.injEq, Int.bmod]
    omega

theorem integer?_minus_eq_some_iff {rest : List Char} :
    integer? b ('-' :: rest) = .ok (some n) ↔
      ∃ m, wideInteger? rest = some m ∧ b.negate m = .ok n := by
  rw [integer?]
  cases wideInteger? rest with
  | none => simp
  | some m => simp [Except.map_eq_ok_iff]

theorem integer?_of_ne_minus (b : Build) (h : ∀ rest, cs ≠ '-' :: rest) :
    integer? b cs = .ok (wideInteger? cs) := by
  unfold integer?
  split
  · exact absurd rfl (h _)
  · rfl

/-- Only words that are read as an integer are, but for the least integer, which a negation may have
    gone round to. -/
theorem readable_of_integer? (h : integer? b cs = .ok (some n)) (hlow : -(2 ^ 127) < n)
    (hhigh : n < 2 ^ 127) : Readable cs n := by
  by_cases hminus : ∃ rest, cs = '-' :: rest
  · obtain ⟨rest, rfl⟩ := hminus
    obtain ⟨m, hread, hneg⟩ := integer?_minus_eq_some_iff.1 h
    obtain ⟨hnumber, hwide⟩ := wideInteger?_eq_some_iff.1 hread
    obtain rfl := (Build.negate_eq_ok_iff hwide hlow hhigh).1 hneg
    exact (readable_of_number? hnumber).1
  · have hminus : ∀ rest, cs ≠ '-' :: rest := fun rest he => hminus ⟨rest, he⟩
    rw [integer?_of_ne_minus b hminus, Except.ok.injEq] at h
    exact (readable_of_number? (wideInteger?_eq_some_iff.1 h).1).2 hminus

/-- The words of integers that are not too wide are read. -/
theorem integer?_of_readable (h : Readable cs n) (hlow : -(2 ^ 127) < n) (hhigh : n < 2 ^ 127) :
    integer? b cs = .ok (some n) := by
  have hwide : FitsSigned 128 n := ⟨hlow.le, hhigh⟩
  have hwide' : FitsSigned 128 (-n) := ⟨by omega, by omega⟩
  rcases number?_of_readable h with ⟨rest, rfl, hread⟩ | ⟨hminus, hread⟩
  · exact integer?_minus_eq_some_iff.2 ⟨-n, wideInteger?_eq_some_iff.2 ⟨hread, hwide'⟩,
      (Build.negate_eq_ok_iff hwide' hlow hhigh).2 (Int.neg_neg n).symm⟩
  · rw [integer?_of_ne_minus b hminus, wideInteger?_eq_some_iff.2 ⟨hread, hwide⟩]

end

/-! ### Values -/

/-- The kinds whose words are read as integers, but for the name of the null pointer. -/
def ReadAsInteger : Kind → Prop
  | .bool | .float | .double | .string => False
  | .void | .integer _ | .pointer => True

section
variable {b : Build} {text : String} {k : Kind} {index : Nat} {n : Int} {v w : Value}

/-- The widest types hold what some type holds. -/
theorem bounds_of_spans {k : IntKind} (h : k.Spans n) : -(2 ^ 63) ≤ n ∧ n < 2 ^ 64 := by
  cases k <;> simp only [IntKind.Spans, IntKind.signed, IntKind.bytes, if_true, if_false,
    Bool.false_eq_true] at h <;> omega

theorem carries_of_widest? (h : widest? n = some v) : v.Carries n ∧ ∀ b, v ≠ .bool b := by
  obtain ⟨w, hw, rfl⟩ := Option.map_eq_some_iff.1 h
  have hval : w.val = n := by
    rcases Option.or_eq_some_iff.1 hw with hw | ⟨-, hw⟩
    · exact (NativeInt.of?_eq_some_iff.1 hw).2
    · exact (NativeInt.of?_eq_some_iff.1 hw).2
  exact ⟨hval ▸ .integer w, nofun⟩

theorem widest?_eq_none_iff : widest? n = none ↔ n < -(2 ^ 63) ∨ 2 ^ 64 ≤ n := by
  rw [widest?, Option.map_eq_none_iff, Option.or_eq_none_iff, NativeInt.of?_eq_none_iff,
    NativeInt.of?_eq_none_iff]
  simp only [IntKind.Holds, IntKind.least, IntKind.greatest, IntKind.signed, IntKind.bits,
    if_true, if_false, Bool.false_eq_true]
  omega

theorem exists_widest? (hlow : -(2 ^ 63) ≤ n) (hhigh : n < 2 ^ 64) : ∃ v, widest? n = some v := by
  refine Option.ne_none_iff_exists'.1 fun hnone => ?_
  rcases widest?_eq_none_iff.1 hnone with h | h <;> omega

/-- A word for a kind that is read as an integer is read so and then fitted, unless it names the
    null pointer. -/
theorem readWord_counted (hk : ReadAsInteger k) (hnull : k = .pointer → text ≠ "null") :
    readWord b text k index =
      ((integer? b text.toList).mapError .stopped).bind fun n =>
        (taken text k index (n.bind widest?)).bind fun v =>
          (v.coerce k index).mapError .refused := by
  have hraw : rawWord b text k index =
      ((integer? b text.toList).mapError .stopped).bind fun n =>
        taken text k index (n.bind widest?) := by
    cases k with
    | bool | float | double | string => exact hk.elim
    | void | integer t => rfl
    | pointer => exact if_neg (hnull rfl)
  rw [readWord, hraw]
  cases integer? b text.toList <;> rfl

theorem readWord_counts (hk : k.Counts) (hnull : k = .pointer → text ≠ "null") :
    readWord b text k index = .ok w ↔
      ∃ n v, integer? b text.toList = .ok (some n) ∧ widest? n = some v ∧
        v.coerce k index = .ok w := by
  have hk : ReadAsInteger k := by cases hk <;> trivial
  rw [readWord_counted hk hnull]
  simp only [Except.bind_eq_ok_iff, Except.mapError_eq_ok_iff, taken_eq_ok_iff]
  constructor
  · rintro ⟨o, ho, v, hv, hw⟩
    obtain ⟨n, rfl, hv⟩ := Option.bind_eq_some_iff.1 hv
    exact ⟨n, v, ho, hv, hw⟩
  · rintro ⟨n, v, hn, hv, hw⟩
    exact ⟨some n, hn, v, hv, hw⟩

/-- A word is read as an integer of a type when it is read as an integer that the type can hold. -/
theorem readWord_integer_eq_ok_iff {k : IntKind} :
    readWord b text (.integer k) index = .ok w ↔
      ∃ n, Readable text.toList n ∧ w.kind = .integer k ∧ w.Carries n := by
  rw [readWord_counts (.integer k) nofun]
  constructor
  · rintro ⟨n, v, hn, hv, hw⟩
    obtain ⟨n', hn', hspans, hkind, hcarries⟩ := Value.coerce_integer_eq_ok_iff.1 hw
    have hsame := Value.carries_iff.1 (carries_of_widest? hv).1
    rw [Value.carries_iff.1 hn', Option.some.injEq] at hsame
    obtain ⟨hlow, hhigh⟩ := bounds_of_spans (hsame ▸ hspans)
    exact ⟨n, readable_of_integer? hn (by omega) (by omega), hkind, hsame ▸ hcarries⟩
  · rintro ⟨n, hread, hkind, hcarries⟩
    have hspans : k.Spans n := by
      obtain ⟨m, rfl, rfl⟩ := Value.carries_of_kind hkind
      cases hcarries
      exact IntKind.spans_iff_holds.2 m.holds
    obtain ⟨hlow, hhigh⟩ := bounds_of_spans hspans
    obtain ⟨v, hv⟩ := exists_widest? hlow hhigh
    exact ⟨n, v, integer?_of_readable hread (by omega) (by omega), hv,
      Value.coerce_integer_eq_ok_iff.2 ⟨n, (carries_of_widest? hv).1, hspans, hkind, hcarries⟩⟩

/-- The language of words for an integer type. A word is read just when it writes an integer that
    the type can hold, with at most one sign in front and no plus before the mark, or when it has
    one sign more, before digits that stand behind a minus or behind the mark; both signs count
    then. No word of the second sort writes an integer. A word that writes an integer is never read
    as another, and without a plus it is read whenever the type can hold it. So it is in every
    build. -/
theorem integer_word_language (b : Build) (text : String) (k : IntKind) (index : Nat) :
    (∀ v, readWord b text (.integer k) index = .ok v ↔ ∃ n, v.kind = .integer k ∧ v.Carries n ∧
      (Literal text.toList n ∧ ¬ PlusMarked text.toList ∨ Missigned text.toList n)) ∧
    (∀ n n', Missigned text.toList n → ¬ Literal text.toList n') ∧
    (∀ n v, Literal text.toList n → readWord b text (.integer k) index = .ok v → v.Carries n) ∧
    ∀ n, Literal text.toList n → '+' ∉ text.toList → k.Spans n →
      ∃ v, readWord b text (.integer k) index = .ok v ∧ v.kind = .integer k ∧ v.Carries n := by
  have hread : ∀ v, readWord b text (.integer k) index = .ok v ↔ ∃ n, v.kind = .integer k ∧
      v.Carries n ∧ Readable text.toList n := fun v => by
    rw [readWord_integer_eq_ok_iff]
    exact exists_congr fun n => by rw [and_comm, and_assoc]
  refine ⟨hread, fun n n' h => h.not_literal, fun n v hn hv => ?_, fun n hn hplus hspans => ?_⟩
  · obtain ⟨n', -, hcarries, ⟨hn', -⟩ | hmissigned⟩ := (hread v).1 hv
    · exact hn.unique hn' ▸ hcarries
    · exact absurd hn hmissigned.not_literal
  · have hunmarked : ¬ PlusMarked text.toList := by
      rintro ⟨x, rest, -, he⟩
      rw [he] at hplus
      exact hplus List.mem_cons_self
    let v : Value := .integer ⟨k, n, IntKind.spans_iff_holds.1 hspans⟩
    have hcarries : v.Carries n := .integer _
    exact ⟨v, (hread v).2 ⟨n, rfl, hcarries, .inl ⟨hn, hunmarked⟩⟩, rfl, hcarries⟩

/-- Two minus signs write no integer, and are read. -/
theorem word_with_two_signs :
    readWord .checked "--5" (.integer .int) 0 = .ok (.ofInt .int 5) ∧
      ¬ ∃ n, Literal "--5".toList n := by
  have hchars : "--5".toList = '-' :: (Sign.minus.chars ++ ['5']) := rfl
  have hfive : Numeral 10 ['5'] 5 := .digit (by decide) (.inl rfl)
  have hsigns : Missigned "--5".toList 5 := hchars ▸ .decimal .minus (by decide) hfive
  refine ⟨readWord_integer_eq_ok_iff.2 ⟨5, .inr hsigns, rfl, .integer _⟩, ?_⟩
  rintro ⟨n, h⟩
  exact hsigns.not_literal h

end

end NativeGate.CommandLine
