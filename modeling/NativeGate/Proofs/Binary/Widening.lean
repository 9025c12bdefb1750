import Mathlib.Algebra.Order.Field.Power
import Mathlib.Algebra.Order.Field.Rat
import Mathlib.Tactic.FieldSimp
import Mathlib.Tactic.Positivity
import NativeGate.Proofs.Binary.Datum

/-!
Rounding gives back what a format can represent: a quotient that is exactly `m * 2 ^ q` in canonical
form is rounded to the bits of that datum (`round_exact`). So a 32-bit number that is widened to 64
bits and narrowed again is the number it was (`toSingle_toDouble`), and a NaN stays a NaN. What was
narrowed once has no NaN that would change (`toSingle_toDouble_toSingle`).
-/

namespace NativeGate.Binary

/-- A power of two with its negative part moved to the other side. -/
theorem zpow_mul_pow_neg (q : Int) : (2 : ℚ) ^ q * 2 ^ (-q).toNat = 2 ^ q.toNat := by
  rw [← zpow_natCast, ← zpow_natCast, ← zpow_add₀ (by norm_num)]
  congr 1
  omega

theorem quotient_value (m : Nat) (q : Int) :
    ((quotient m q).1 : ℚ) / (quotient m q).2 = m * 2 ^ q := by
  have hden : (0 : ℚ) < 2 ^ (-q).toNat := by positivity
  rw [quotient, Nat.cast_mul, Nat.cast_pow, Nat.cast_pow, Nat.cast_ofNat,
    div_eq_iff hden.ne', mul_assoc, zpow_mul_pow_neg]

theorem quotient_den_pos (m : Nat) (q : Int) : 0 < (quotient m q).2 := Nat.two_pow_pos _

/-- A positive number lies between two neighbouring powers of two. -/
theorem log2_bounds {n : Nat} (hn : 0 < n) :
    (2 : ℚ) ^ (n.log2 : Int) ≤ n ∧ (n : ℚ) < 2 ^ ((n.log2 : Int) + 1) := by
  have hlow : 2 ^ n.log2 ≤ n := Nat.log2_self_le hn.ne'
  have hhigh : n < 2 ^ (n.log2 + 1) := Nat.lt_log2_self
  constructor
  · rw [zpow_natCast]
    exact_mod_cast hlow
  · have hcast : ((n.log2 : Int) + 1) = ((n.log2 + 1 : Nat) : Int) := by push_cast; rfl
    rw [hcast, zpow_natCast]
    exact_mod_cast hhigh

namespace Format
variable (f : Format)

theorem divideHalfEven_mul (m : Nat) {d : Nat} (hd : 0 < d) : divideHalfEven (m * d) d = m := by
  unfold divideHalfEven
  rw [Nat.mul_mod_left, Nat.mul_div_cancel _ hd]
  simp [hd]

/-- The comparison by which rounding corrects its guess of the exponent, as one of quotients. -/
theorem short_iff {num den : Nat} (hden : 0 < den) (g : Int) :
    num * 2 ^ (-g).toNat < 2 ^ f.fraction * (den * 2 ^ g.toNat) ↔
      (num / den : ℚ) < 2 ^ ((f.fraction : Int) + g) := by
  have hB : (0 : ℚ) < 2 ^ (-g).toNat := by positivity
  have hd : (0 : ℚ) < den := by exact_mod_cast hden
  rw [← Nat.cast_lt (α := ℚ)]
  push_cast
  rw [← zpow_mul_pow_neg g, div_lt_iff₀ hd, zpow_add₀ (by norm_num), zpow_natCast]
  constructor
  · intro h
    refine lt_of_mul_lt_mul_right ?_ hB.le
    linarith
  · intro h
    have := mul_lt_mul_of_pos_right h hB
    linarith

/-- The exponent that rounding guesses from the lengths of numerator and denominator, corrected by
    one comparison, is the exponent of the quotient. -/
theorem guess_bounds {num den : Nat} (hnum : 0 < num) (hden : 0 < den) {g : Int}
    (hg : g = (Nat.log2 num : Int) - Nat.log2 den - f.fraction) :
    let p := if num * 2 ^ (-g).toNat < 2 ^ f.fraction * (den * 2 ^ g.toNat) then g - 1 else g
    (2 : ℚ) ^ ((f.fraction : Int) + p) ≤ num / den ∧
      (num / den : ℚ) < 2 ^ ((f.fraction : Int) + p + 1) := by
  intro p
  obtain ⟨hnl, hnh⟩ := log2_bounds hnum
  obtain ⟨hdl, hdh⟩ := log2_bounds hden
  have hd : (0 : ℚ) < den := by exact_mod_cast hden
  have hlow : (2 : ℚ) ^ ((f.fraction : Int) + g - 1) ≤ num / den := by
    rw [le_div_iff₀ hd]
    calc (2 : ℚ) ^ ((f.fraction : Int) + g - 1) * den
        ≤ 2 ^ ((f.fraction : Int) + g - 1) * 2 ^ ((den.log2 : Int) + 1) :=
          mul_le_mul_of_nonneg_left hdh.le (by positivity)
      _ = 2 ^ (num.log2 : Int) := by
          rw [← zpow_add₀ (by norm_num)]
          congr 1
          omega
      _ ≤ num := hnl
  have hhigh : (num / den : ℚ) < 2 ^ ((f.fraction : Int) + g + 1) := by
    rw [div_lt_iff₀ hd]
    calc (num : ℚ) < 2 ^ ((num.log2 : Int) + 1) := hnh
      _ = 2 ^ ((f.fraction : Int) + g + 1) * 2 ^ (den.log2 : Int) := by
          rw [← zpow_add₀ (by norm_num)]
          congr 1
          omega
      _ ≤ 2 ^ ((f.fraction : Int) + g + 1) * den :=
          mul_le_mul_of_nonneg_left hdl (by positivity)
  by_cases hs : num * 2 ^ (-g).toNat < 2 ^ f.fraction * (den * 2 ^ g.toNat)
  · have hp : p = g - 1 := if_pos hs
    rw [hp]
    refine ⟨by convert hlow using 2; ring, ?_⟩
    convert (f.short_iff hden g).1 hs using 2
    ring
  · have hp : p = g := if_neg hs
    rw [hp]
    exact ⟨not_lt.1 fun h => hs ((f.short_iff hden g).2 h), hhigh⟩

/-- The place of the last digit of a canonical datum is the one that rounding chooses. -/
theorem place_eq {m : Nat} {p q : Int} (hc : f.Canonical m q)
    (hlow : (2 : ℚ) ^ ((f.fraction : Int) + p) ≤ m * 2 ^ q)
    (hhigh : (m * 2 ^ q : ℚ) < 2 ^ ((f.fraction : Int) + p + 1)) : max f.leastPlace p = q := by
  have hle : p ≤ q := by
    have hsmall : (m : ℚ) < 2 ^ ((f.fraction : Int) + 1) := by
      have := hc.small
      rw [← pow_succ'] at this
      exact_mod_cast this
    have hlt : (2 : ℚ) ^ ((f.fraction : Int) + p) < 2 ^ ((f.fraction : Int) + 1 + q) := by
      rw [zpow_add₀ (by norm_num) _ q]
      exact lt_of_le_of_lt hlow (mul_lt_mul_of_pos_right hsmall (by positivity))
    rw [zpow_lt_zpow_iff_right₀ (by norm_num)] at hlt
    omega
  rcases hc.full with hfull | hleast
  · have hge : q ≤ p := by
      have hfull : (2 : ℚ) ^ (f.fraction : Int) ≤ m := by
        rw [zpow_natCast]
        exact_mod_cast hfull
      have hlt : (2 : ℚ) ^ ((f.fraction : Int) + q) < 2 ^ ((f.fraction : Int) + p + 1) := by
        rw [zpow_add₀ (by norm_num) _ q]
        exact lt_of_le_of_lt (mul_le_mul_of_nonneg_right hfull (by positivity)) hhigh
      rw [zpow_lt_zpow_iff_right₀ (by norm_num)] at hlt
      omega
    rw [le_antisymm hle hge]
    exact max_eq_right hc.least
  · rw [hleast] at hle ⊢
    exact max_eq_left hle

/-- A quotient that the format represents is rounded to its bits. -/
theorem round_exact (s : Bool) {num den m : Nat} {q : Int} (hden : 0 < den) (hm : 0 < m)
    (hc : f.Canonical m q) (hvalue : (num : ℚ) / den = m * 2 ^ q) :
    f.round s num den = f.pack (.finite s m q) := by
  have hd : (0 : ℚ) < den := by exact_mod_cast hden
  have hnum : 0 < num := by
    have hpos : (0 : ℚ) < num / den := by
      rw [hvalue]
      have : (0 : ℚ) < m := by exact_mod_cast hm
      positivity
    rw [div_pos_iff_of_pos_right hd] at hpos
    exact_mod_cast hpos
  obtain ⟨hlow, hhigh⟩ := f.guess_bounds hnum hden rfl
  rw [hvalue] at hlow hhigh
  have hplace := f.place_eq hc hlow hhigh
  -- at this place the quotient is `m` without a rest
  have hexact : num * 2 ^ (-q).toNat = m * (den * 2 ^ q.toNat) := by
    rw [div_eq_iff hd.ne'] at hvalue
    rw [← Nat.cast_inj (R := ℚ)]
    push_cast
    rw [hvalue, ← zpow_mul_pow_neg q]
    ring
  have hfits : (q - f.leastPlace).toNat * 2 ^ f.fraction + m ≤ f.infinity := by
    have hsmall := hc.small
    have hrange : (q - f.leastPlace).toNat + 2 ≤ 2 ^ f.exponent - 1 := by
      have := hc.range
      omega
    have := Nat.mul_le_mul_right (2 ^ f.fraction) hrange
    rw [infinity]
    nlinarith
  unfold round
  rw [if_neg hnum.ne']
  dsimp only
  rw [hplace, hexact, divideHalfEven_mul m (Nat.mul_pos hden (Nat.two_pow_pos _)),
    min_eq_right hfits, pack]

theorem convert_finite (g : Format) {bits m : Nat} {s : Bool} {q : Int}
    (h : g.datum bits = .finite s m q) :
    f.convert g bits = f.round s (quotient m q).1 (quotient m q).2 := by
  rw [convert, h]

theorem convert_infinite (g : Format) {bits : Nat} {s : Bool} (h : g.datum bits = .infinite s) :
    f.convert g bits = f.signBit s + f.infinity := by
  rw [convert, h]

/-- A zero is converted to the zero with its sign. -/
theorem convert_zero (g : Format) {bits : Nat} {s : Bool} {q : Int}
    (h : g.datum bits = .finite s 0 q) : f.convert g bits = f.signBit s := by
  rw [convert_finite f g h, round, if_pos (by simp [quotient])]

theorem datum_infinite (s : Bool) : f.datum (f.signBit s + f.infinity) = .infinite s := by
  have h := f.datum_fields s (e := 2 ^ f.exponent - 1) (r := 0)
    (Nat.sub_lt (Nat.two_pow_pos _) Nat.one_pos) (Nat.two_pow_pos _)
  rw [add_zero, if_pos rfl, if_pos rfl] at h
  exact h

theorem two_mul_quiet (hf : 0 < f.fraction) : 2 * f.quiet = 2 ^ f.fraction := by
  rw [quiet, ← pow_succ']
  congr 1
  omega

/-- The bits of a NaN stand for a NaN whose payload is quiet. -/
theorem datum_nanBits (hf : 0 < f.fraction) (s : Bool) (payload : Nat) :
    f.datum (f.nanBits s payload) = .nan s (f.quiet + payload % f.quiet) := by
  have hquiet := f.two_mul_quiet hf
  have hpos : 0 < f.quiet := Nat.two_pow_pos _
  have hkept : payload % f.quiet < f.quiet := Nat.mod_lt _ hpos
  have h := f.datum_fields s (e := 2 ^ f.exponent - 1) (r := f.quiet + payload % f.quiet)
    (Nat.sub_lt (Nat.two_pow_pos _) Nat.one_pos) (by omega)
  rw [if_pos rfl, if_neg (by omega), ← infinity, ← add_assoc, ← add_assoc] at h
  exact h

theorem isNan_nanBits (hf : 0 < f.fraction) (s : Bool) (payload : Nat) :
    f.isNan (f.nanBits s payload) = true := by
  rw [isNan, f.datum_nanBits hf]

/-- Bits up to infinity stand for no NaN. -/
theorem isNan_of_le_infinity (s : Bool) {n : Nat} (h : n ≤ f.infinity) :
    f.isNan (f.signBit s + n) = false := by
  have hF : 0 < 2 ^ f.fraction := Nat.two_pow_pos _
  have hE : 0 < 2 ^ f.exponent := Nat.two_pow_pos _
  have hfields : n / 2 ^ f.fraction * 2 ^ f.fraction + n % 2 ^ f.fraction = n := Nat.div_add_mod' ..
  have he : n / 2 ^ f.fraction ≤ 2 ^ f.exponent - 1 :=
    (Nat.div_le_div_right h).trans_eq (Nat.mul_div_cancel _ hF)
  have hd := f.datum_fields s (e := n / 2 ^ f.fraction) (by omega) (Nat.mod_lt n hF)
  rw [hfields] at hd
  rw [isNan, hd]
  split_ifs with hmax hzero
  · rfl
  · -- past the bits of infinity
    rw [hmax, ← infinity] at hfields
    omega
  · rfl
  · rfl

/-- Rounding gives a number. -/
theorem isNan_round (s : Bool) (num den : Nat) : f.isNan (f.round s num den) = false := by
  unfold round
  split
  · exact f.isNan_of_le_infinity s (Nat.zero_le _)
  · exact f.isNan_of_le_infinity s (Nat.min_le_left _ _)

theorem nanBits_congr (s : Bool) {payload other : Nat}
    (h : payload % f.quiet = other % f.quiet) : f.nanBits s payload = f.nanBits s other := by
  rw [nanBits, nanBits, h]

/-- The bits of a NaN, and those up to infinity, leave no bit above the sign. -/
theorem infinity_add_lt (s : Bool) {n : Nat} (h : n < 2 ^ f.fraction) :
    f.signBit s + (f.infinity + n) < 2 ^ (f.fraction + f.exponent + 1) := by
  have hsign : f.signBit s ≤ 2 ^ (f.fraction + f.exponent) := by
    cases s <;> simp [signBit]
  have hsplit : 2 ^ (f.fraction + f.exponent) = f.infinity + 2 ^ f.fraction := by
    have hE : 0 < 2 ^ f.exponent := Nat.two_pow_pos _
    rw [infinity, ← Nat.succ_mul, Nat.succ_eq_add_one, Nat.sub_add_cancel hE, pow_add, mul_comm]
  rw [pow_succ]
  omega

theorem nanBits_lt (hf : 0 < f.fraction) (s : Bool) (payload : Nat) :
    f.nanBits s payload < 2 ^ (f.fraction + f.exponent + 1) := by
  have hquiet := f.two_mul_quiet hf
  have hkept : payload % f.quiet < f.quiet := Nat.mod_lt _ (Nat.two_pow_pos _)
  have h := f.infinity_add_lt s (n := f.quiet + payload % f.quiet) (by omega)
  rwa [← add_assoc, ← add_assoc] at h

theorem round_lt (s : Bool) (num den : Nat) :
    f.round s num den < 2 ^ (f.fraction + f.exponent + 1) := by
  have h := f.infinity_add_lt s (n := 0) (Nat.two_pow_pos _)
  rw [add_zero] at h
  refine lt_of_le_of_lt ?_ h
  unfold round
  split
  · exact Nat.le_add_right _ _
  · exact Nat.add_le_add_left (Nat.min_le_left _ _) _

/-- A NaN is converted to a NaN. -/
theorem convert_nan (g : Format) {bits : Nat} (h : g.isNan bits = true) :
    ∃ s payload, f.convert g bits = f.nanBits s payload := by
  unfold isNan at h
  unfold convert
  cases hd : g.datum bits with
  | nan s payload => exact ⟨s, _, rfl⟩
  | infinite s => rw [hd] at h; cases h
  | finite s m q => rw [hd] at h; cases h

end Format

/-! ### Between the two formats -/

/-- A 32-bit number with all 53 places of a 64-bit number. -/
theorem canonical_widen {m : Nat} {q : Int} (hm : 0 < m) (hc : single.Canonical m q) :
    double.Canonical (m * 2 ^ (52 - m.log2)) (q - (52 - m.log2 : Nat)) := by
  have hsmall : m < 2 ^ 24 := hc.small
  have hleast : -149 ≤ q := hc.least
  have hrange : (q - (-149)).toNat + 2 < 256 := hc.range
  have hlog : m.log2 < 24 := (Nat.log2_lt hm.ne').2 hsmall
  have hlow : 2 ^ 52 ≤ m * 2 ^ (52 - m.log2) := by
    calc 2 ^ 52 = 2 ^ m.log2 * 2 ^ (52 - m.log2) := by rw [← pow_add]; congr 1; omega
      _ ≤ m * 2 ^ (52 - m.log2) := Nat.mul_le_mul_right _ (Nat.log2_self_le hm.ne')
  have hhigh : m * 2 ^ (52 - m.log2) < 2 * 2 ^ 52 := by
    calc m * 2 ^ (52 - m.log2) < 2 ^ (m.log2 + 1) * 2 ^ (52 - m.log2) :=
          Nat.mul_lt_mul_of_pos_right Nat.lt_log2_self (Nat.two_pow_pos _)
      _ = 2 * 2 ^ 52 := by rw [← pow_add, ← pow_succ']; congr 1; omega
  have hplace : double.leastPlace = -1074 := rfl
  refine ⟨hhigh, ?_, .inl hlow, ?_⟩
  · rw [hplace]; omega
  · rw [hplace]
    change _ < 2048
    omega

theorem widen_value {m k : Nat} (q : Int) :
    ((m * 2 ^ k : Nat) : ℚ) * 2 ^ (q - (k : Int)) = m * 2 ^ q := by
  rw [zpow_sub₀ (by norm_num), Nat.cast_mul, Nat.cast_pow, zpow_natCast, Nat.cast_ofNat]
  field_simp

/-- Widening a finite 32-bit number gives the bits of the same number with more places. -/
theorem convert_double {bits : Nat} {s : Bool} {m : Nat} {q : Int} (hm : 0 < m)
    (h : single.datum bits = .finite s m q) :
    double.convert single bits =
      double.pack (.finite s (m * 2 ^ (52 - m.log2)) (q - (52 - m.log2 : Nat))) := by
  have hc := single.canonical_datum (by decide) h
  rw [double.convert_finite single h]
  refine double.round_exact s (quotient_den_pos m q) (Nat.mul_pos hm (Nat.two_pow_pos _))
    (canonical_widen hm hc) ?_
  rw [quotient_value, widen_value]

/-- Narrowing takes the added places away again. -/
theorem convert_single {s : Bool} {m : Nat} {q : Int} (hm : 0 < m) (hc : single.Canonical m q) :
    single.convert double
        (double.pack (.finite s (m * 2 ^ (52 - m.log2)) (q - (52 - m.log2 : Nat)))) =
      single.pack (.finite s m q) := by
  rw [single.convert_finite double (double.datum_pack (canonical_widen hm hc))]
  refine single.round_exact s (quotient_den_pos _ _) hm hc ?_
  rw [quotient_value, widen_value]

end NativeGate.Binary

namespace NativeGate
open Binary

theorem toNat_ofBits_double {n : Nat} (h : n < 2 ^ 64) : (Double.ofBits n).bits.toNat = n :=
  UInt64.toNat_ofNat_of_lt' h

theorem toNat_ofBits_single {n : Nat} (h : n < 2 ^ 32) : (Single.ofBits n).bits.toNat = n :=
  UInt32.toNat_ofNat_of_lt' h

namespace Single

theorem toSingle_toDouble_of_convert {x : Single} {n : Nat} (hn : n < 2 ^ 64)
    (hwide : double.convert single x.bits.toNat = n)
    (hnarrow : single.convert double n = x.bits.toNat) : x.toDouble.toSingle = x := by
  rw [toDouble, hwide, Double.toSingle, toNat_ofBits_double hn, hnarrow, ofBits,
    UInt32.ofNat_toNat]

/-- A 32-bit number that is no NaN is itself again after widening and narrowing. -/
theorem toSingle_toDouble {x : Single} (h : x.isNan = false) : x.toDouble.toSingle = x := by
  have hbits := single.pack_datum x.bits.toNat_lt
  cases hd : single.datum x.bits.toNat with
  | nan s payload =>
    unfold isNan Format.isNan at h
    rw [hd] at h
    cases h
  | infinite s =>
    rw [hd] at hbits
    refine toSingle_toDouble_of_convert ?_ (double.convert_infinite single hd) ?_
    · cases s <;> decide
    · rw [single.convert_infinite double (double.datum_infinite s), ← hbits, Format.pack]
  | finite s m q =>
    have hc := single.canonical_datum (by decide) hd
    rw [hd] at hbits
    rcases Nat.eq_zero_or_pos m with rfl | hm
    · refine toSingle_toDouble_of_convert ?_ (double.convert_zero single hd) ?_
      · cases s <;> decide
      · rw [single.convert_zero double (double.datum_zero (by decide) s)]
        exact (single.eq_signBit_of_datum (by decide) x.bits.toNat_lt hd).symm
    · exact toSingle_toDouble_of_convert (double.pack_lt (canonical_widen hm hc))
        (convert_double hm hd) ((convert_single hm hc).trans hbits)

/-- A NaN stays a NaN. -/
theorem isNan_toSingle_toDouble {x : Single} (h : x.isNan = true) :
    x.toDouble.toSingle.isNan = true := by
  obtain ⟨s, p, hwide⟩ := double.convert_nan single h
  have hnan : double.isNan (double.nanBits s p) = true := double.isNan_nanBits (by decide) s p
  obtain ⟨t, r, hnarrow⟩ := single.convert_nan double hnan
  rw [toDouble, hwide, Double.toSingle, toNat_ofBits_double (double.nanBits_lt (by decide) s p),
    hnarrow, isNan, toNat_ofBits_single (single.nanBits_lt (by decide) t r)]
  exact single.isNan_nanBits (by decide) t r

/-- A quiet NaN is itself again after widening and narrowing. -/
theorem toSingle_toDouble_nanBits (s : Bool) (payload : Nat) :
    (ofBits (single.nanBits s payload)).toDouble.toSingle = ofBits (single.nanBits s payload) := by
  have hwide := double.datum_nanBits (by decide) s
    ((single.quiet + payload % single.quiet) * 2 ^ 29)
  have hlt := double.nanBits_lt (by decide) s ((single.quiet + payload % single.quiet) * 2 ^ 29)
  refine toSingle_toDouble_of_convert hlt ?_ ?_
  · rw [toNat_ofBits_single (single.nanBits_lt (by decide) s payload), Format.convert,
      single.datum_nanBits (by decide)]
    rfl
  · rw [toNat_ofBits_single (single.nanBits_lt (by decide) s payload), Format.convert, hwide]
    refine single.nanBits_congr s ?_
    have hq : single.quiet = 4194304 := rfl
    have hQ : double.quiet = 2251799813685248 := rfl
    have hle : ¬ double.fraction ≤ single.fraction := by decide
    have hplaces : 2 ^ (double.fraction - single.fraction) = 536870912 := rfl
    rw [if_neg hle, hplaces, hq, hQ]
    omega

end Single

/-- A 64-bit number that is narrowed is the same 32-bit number again after widening. -/
theorem Double.toSingle_toDouble_toSingle (x : Double) :
    x.toSingle.toDouble.toSingle = x.toSingle := by
  cases hd : double.datum x.bits.toNat with
  | nan s payload =>
    have hnan : double.isNan x.bits.toNat = true := by rw [Format.isNan, hd]
    obtain ⟨t, p, hconvert⟩ := single.convert_nan double hnan
    have hx : x.toSingle = .ofBits (single.nanBits t p) := congrArg Single.ofBits hconvert
    rw [hx]
    exact Single.toSingle_toDouble_nanBits t p
  | infinite s =>
    refine Single.toSingle_toDouble ?_
    rw [toSingle, single.convert_infinite double hd]
    cases s <;> decide
  | finite s m q =>
    refine Single.toSingle_toDouble ?_
    rw [toSingle, single.convert_finite double hd, Single.isNan,
      toNat_ofBits_single (single.round_lt ..)]
    exact single.isNan_round ..

end NativeGate
