import Mathlib.Algebra.Order.Ring.Nat
import Mathlib.Tactic.Linarith
import Mathlib.Tactic.Ring
import NativeGate.Binary.Number

/-!
Bits and data of binary formats. `Format.pack` gives the bits that stand for a datum, so that bits
are known by their datum (`pack_datum`). From that, two bit patterns are equal numbers exactly when
they are the same and no NaN, or when they are the two zeros (`same_iff`).
-/

namespace NativeGate.Binary.Format
variable (f : Format)

/-! ### Fields -/

/-- The bits that stand for a datum. -/
def pack : Datum → Nat
  | .nan s payload => f.signBit s + (f.infinity + payload)
  | .infinite s => f.signBit s + f.infinity
  | .finite s m q => f.signBit s + ((q - f.leastPlace).toNat * 2 ^ f.fraction + m)

/-- A finite datum in the only form that bits give it: with all its places, or at the least
    place. -/
structure Canonical (m : Nat) (q : Int) : Prop where
  small : m < 2 * 2 ^ f.fraction
  least : f.leastPlace ≤ q
  full : 2 ^ f.fraction ≤ m ∨ q = f.leastPlace
  range : (q - f.leastPlace).toNat + 2 < 2 ^ f.exponent

/-- The datum of a sign, an exponent field and a fraction field. -/
theorem datum_fields (s : Bool) {e r : Nat} (he : e < 2 ^ f.exponent) (hr : r < 2 ^ f.fraction) :
    f.datum (f.signBit s + (e * 2 ^ f.fraction + r)) =
      if e = 2 ^ f.exponent - 1 then if r = 0 then .infinite s else .nan s r
      else if e = 0 then .finite s r f.leastPlace
      else .finite s (2 ^ f.fraction + r) (f.leastPlace + e - 1) := by
  have hF : 0 < 2 ^ f.fraction := by positivity
  have hE : 0 < 2 ^ f.exponent := by positivity
  have hlow : e * 2 ^ f.fraction + r < 2 ^ f.fraction * 2 ^ f.exponent := by nlinarith
  have hsign : f.signBit s = (if s then 1 else 0) * (2 ^ f.fraction * 2 ^ f.exponent) := by
    cases s <;> simp [signBit, pow_add]
  have htop : (f.signBit s + (e * 2 ^ f.fraction + r)) / (2 ^ f.fraction * 2 ^ f.exponent) =
      if s then 1 else 0 := by
    rw [hsign, add_comm, Nat.add_mul_div_right _ _ (Nat.mul_pos hF hE), Nat.div_eq_of_lt hlow,
      zero_add]
  -- sign, exponent and fraction as the digits of a number
  have hsum : f.signBit s + (e * 2 ^ f.fraction + r) =
      r + ((if s then 1 else 0) * 2 ^ f.exponent + e) * 2 ^ f.fraction := by
    rw [hsign]; ring
  have hexp : (f.signBit s + (e * 2 ^ f.fraction + r)) / 2 ^ f.fraction % 2 ^ f.exponent = e := by
    rw [hsum, Nat.add_mul_div_right _ _ hF, Nat.div_eq_of_lt hr, zero_add, Nat.mul_add_mod',
      Nat.mod_eq_of_lt he]
  have hfrac : (f.signBit s + (e * 2 ^ f.fraction + r)) % 2 ^ f.fraction = r := by
    rw [hsum, Nat.add_mul_mod_self_right, Nat.mod_eq_of_lt hr]
  unfold datum
  rw [pow_add, htop, hexp, hfrac]
  cases s <;> simp

/-- Bits are their three fields. -/
theorem eq_fields {bits : Nat} (h : bits < 2 ^ (f.fraction + f.exponent + 1)) :
    bits = f.signBit (bits / 2 ^ (f.fraction + f.exponent) % 2 = 1) +
      (bits / 2 ^ f.fraction % 2 ^ f.exponent * 2 ^ f.fraction + bits % 2 ^ f.fraction) := by
  have hS : 0 < 2 ^ (f.fraction + f.exponent) := by positivity
  have htop : bits / 2 ^ (f.fraction + f.exponent) < 2 := by
    rw [Nat.div_lt_iff_lt_mul hS, ← pow_succ']
    exact h
  have hlow : bits % 2 ^ (f.fraction + f.exponent) =
      bits / 2 ^ f.fraction % 2 ^ f.exponent * 2 ^ f.fraction + bits % 2 ^ f.fraction := by
    rw [pow_add, Nat.mod_mul]; ring
  have hsign : f.signBit (bits / 2 ^ (f.fraction + f.exponent) % 2 = 1) =
      2 ^ (f.fraction + f.exponent) * (bits / 2 ^ (f.fraction + f.exponent)) := by
    rw [signBit, Nat.mod_eq_of_lt htop]
    rcases Nat.le_one_iff_eq_zero_or_eq_one.1 (Nat.lt_succ_iff.1 htop) with h0 | h1
    · rw [h0]; simp
    · rw [h1]; simp
  rw [hsign, ← hlow, Nat.div_add_mod]

/-- The bits that stand for a datum are the bits it was read from. -/
theorem pack_datum {bits : Nat} (h : bits < 2 ^ (f.fraction + f.exponent + 1)) :
    f.pack (f.datum bits) = bits := by
  have hbits := f.eq_fields h
  have he : bits / 2 ^ f.fraction % 2 ^ f.exponent < 2 ^ f.exponent :=
    Nat.mod_lt _ (by positivity)
  have hr : bits % 2 ^ f.fraction < 2 ^ f.fraction := Nat.mod_lt _ (by positivity)
  generalize bits / 2 ^ f.fraction % 2 ^ f.exponent = e at hbits he
  generalize bits % 2 ^ f.fraction = r at hbits hr
  generalize decide (bits / 2 ^ (f.fraction + f.exponent) % 2 = 1) = s at hbits
  rw [hbits, datum_fields f s he hr]
  split
  · rename_i hmax
    split
    · rename_i hzero
      rw [pack, infinity, ← hmax, hzero, add_zero]
    · rw [pack, infinity, ← hmax]
  · split
    · rename_i hzero
      rw [pack, hzero, sub_self]
      rfl
    · rename_i hpos
      have hplace : (f.leastPlace + e - 1 - f.leastPlace).toNat = e - 1 := by omega
      obtain ⟨d, rfl⟩ : ∃ d, e = d + 1 := ⟨e - 1, by omega⟩
      rw [pack, hplace, Nat.add_sub_cancel]
      ring

/-- Bits are known by their datum. -/
theorem datum_injective {a b : Nat} (ha : a < 2 ^ (f.fraction + f.exponent + 1))
    (hb : b < 2 ^ (f.fraction + f.exponent + 1)) (h : f.datum a = f.datum b) : a = b := by
  rw [← f.pack_datum ha, h, f.pack_datum hb]

/-- A finite datum that is read from bits is in canonical form. -/
theorem canonical_datum (hE : 2 < 2 ^ f.exponent) {bits : Nat} {s : Bool} {m : Nat} {q : Int}
    (h : f.datum bits = .finite s m q) : f.Canonical m q := by
  have hF : 0 < 2 ^ f.fraction := by positivity
  have he : bits / 2 ^ f.fraction % 2 ^ f.exponent < 2 ^ f.exponent :=
    Nat.mod_lt _ (by positivity)
  have hr : bits % 2 ^ f.fraction < 2 ^ f.fraction := Nat.mod_lt _ hF
  unfold datum at h
  dsimp only at h
  split at h
  · split at h <;> cases h
  · split at h
    · cases h
      exact ⟨by omega, le_refl _, .inr rfl, by omega⟩
    · cases h
      exact ⟨by omega, by omega, .inl (Nat.le_add_right _ _), by omega⟩

/-- The bits of a canonical datum stand for it. -/
theorem datum_pack {s : Bool} {m : Nat} {q : Int} (h : f.Canonical m q) :
    f.datum (f.pack (.finite s m q)) = .finite s m q := by
  have hE := h.range
  have hq := h.least
  by_cases hm : 2 ^ f.fraction ≤ m
  · obtain ⟨r, rfl⟩ := Nat.exists_eq_add_of_le hm
    have hr : r < 2 ^ f.fraction := by have := h.small; omega
    have hbits : f.pack (.finite s (2 ^ f.fraction + r) q) =
        f.signBit s + (((q - f.leastPlace).toNat + 1) * 2 ^ f.fraction + r) := by
      rw [pack]; ring
    rw [hbits, datum_fields f s (by omega) hr, if_neg (by omega), if_neg (by omega)]
    congr 1
    omega
  · have hleast : q = f.leastPlace := h.full.resolve_left hm
    rw [pack, hleast, sub_self, Int.toNat_zero, datum_fields f s (by omega) (by omega),
      if_neg (by omega), if_pos rfl]

theorem pack_lt {s : Bool} {m : Nat} {q : Int} (h : f.Canonical m q) :
    f.pack (.finite s m q) < 2 ^ (f.fraction + f.exponent + 1) := by
  have hrange : (q - f.leastPlace).toNat + 2 ≤ 2 ^ f.exponent := h.range.le
  have hlow : ((q - f.leastPlace).toNat + 2) * 2 ^ f.fraction ≤
      2 ^ f.exponent * 2 ^ f.fraction := Nat.mul_le_mul_right _ hrange
  have hpow : 2 ^ (f.fraction + f.exponent) = 2 ^ f.exponent * 2 ^ f.fraction := by
    rw [pow_add]; ring
  have hsign : f.signBit s ≤ 2 ^ (f.fraction + f.exponent) := by
    cases s <;> simp [signBit]
  have hsmall := h.small
  rw [pack, pow_succ]
  nlinarith

/-! ### Equality of numbers -/

theorem datum_zero (hE : 2 < 2 ^ f.exponent) (s : Bool) :
    f.datum (f.signBit s) = .finite s 0 f.leastPlace := by
  have h := f.datum_fields s (e := 0) (r := 0) (by omega) (by positivity)
  rw [zero_mul, zero_add, add_zero, if_neg (by omega), if_pos rfl] at h
  exact h

/-- A zero is its sign bit. -/
theorem eq_signBit_of_datum (hE : 2 < 2 ^ f.exponent) {a : Nat} {s : Bool} {q : Int}
    (ha : a < 2 ^ (f.fraction + f.exponent + 1)) (h : f.datum a = .finite s 0 q) :
    a = f.signBit s := by
  have hF : 0 < 2 ^ f.fraction := by positivity
  have hq : q = f.leastPlace := (f.canonical_datum hE h).full.resolve_left (by omega)
  rw [hq, ← f.datum_zero hE s] at h
  refine f.datum_injective ha ?_ h
  have hS : 2 ^ (f.fraction + f.exponent) < 2 ^ (f.fraction + f.exponent + 1) :=
    Nat.pow_lt_pow_succ (by norm_num)
  cases s
  · simp [signBit]
  · simpa [signBit] using hS

/-- Two bit patterns are equal as numbers when they are the same and no NaN, or the two zeros. -/
theorem same_iff (hE : 2 < 2 ^ f.exponent) {a b : Nat}
    (ha : a < 2 ^ (f.fraction + f.exponent + 1)) (hb : b < 2 ^ (f.fraction + f.exponent + 1)) :
    f.same a b = true ↔
      a = b ∧ f.isNan a = false ∨ ∃ s, a = f.signBit s ∧ b = f.signBit !s := by
  constructor
  · intro h
    have heq : f.datum a = f.datum b → f.isNan a = false →
        a = b ∧ f.isNan a = false ∨ ∃ s, a = f.signBit s ∧ b = f.signBit !s :=
      fun hd hn => .inl ⟨f.datum_injective ha hb hd, hn⟩
    unfold same at h
    cases hda : f.datum a with
    | nan => rw [hda] at h; cases h
    | infinite s =>
      cases hdb : f.datum b with
      | nan => rw [hda, hdb] at h; cases h
      | finite => rw [hda, hdb] at h; cases h
      | infinite t =>
        rw [hda, hdb] at h
        rw [eq_of_beq h] at hda
        exact heq (hda.trans hdb.symm) (by rw [isNan, hda])
    | finite s m q =>
      cases hdb : f.datum b with
      | nan => rw [hda, hdb] at h; cases h
      | infinite => rw [hda, hdb] at h; cases h
      | finite t n r =>
        rw [hda, hdb] at h
        simp only [Bool.or_eq_true, Bool.and_eq_true, beq_iff_eq] at h
        rcases h with ⟨rfl, rfl⟩ | ⟨⟨rfl, rfl⟩, rfl⟩
        · have hza := f.eq_signBit_of_datum hE ha hda
          have hzb := f.eq_signBit_of_datum hE hb hdb
          by_cases hst : s = t
          · exact .inl ⟨by rw [hza, hzb, hst], by rw [isNan, hda]⟩
          · exact .inr ⟨s, hza, by rw [hzb, Bool.eq_not_of_ne (Ne.symm hst)]⟩
        · exact heq (hda.trans hdb.symm) (by rw [isNan, hda])
  · rintro (⟨rfl, hn⟩ | ⟨s, rfl, rfl⟩)
    · unfold same
      unfold isNan at hn
      cases hda : f.datum a with
      | nan => rw [hda] at hn; cases hn
      | infinite => simp
      | finite => simp
    · rw [same, f.datum_zero hE, f.datum_zero hE]
      rfl

end NativeGate.Binary.Format

namespace NativeGate

/-- The two zeros, in either order. -/
def Single.OppositeZeros (x y : Single) : Prop :=
  x.bits = 0 ∧ y.bits = 0x80000000 ∨ x.bits = 0x80000000 ∧ y.bits = 0

/-- The two zeros, in either order. -/
def Double.OppositeZeros (x y : Double) : Prop :=
  x.bits = 0 ∧ y.bits = 0x8000000000000000 ∨ x.bits = 0x8000000000000000 ∧ y.bits = 0

theorem Single.same_iff {x y : Single} :
    x.same y = true ↔ x = y ∧ x.isNan = false ∨ x.OppositeZeros y := by
  have heq : x.bits.toNat = y.bits.toNat ↔ x = y := by
    rw [UInt32.toNat_inj]
    exact ⟨fun h => by cases x; cases y; exact congrArg _ h, fun h => by rw [h]⟩
  have hzeros : (∃ s, x.bits.toNat = Binary.single.signBit s ∧
      y.bits.toNat = Binary.single.signBit !s) ↔ x.OppositeZeros y := by
    have hpos : Binary.single.signBit false = (0 : UInt32).toNat := rfl
    have hneg : Binary.single.signBit true = (0x80000000 : UInt32).toNat := rfl
    simp only [Bool.exists_bool, Bool.not_false, Bool.not_true, hpos, hneg, UInt32.toNat_inj,
      OppositeZeros]
  rw [same, Binary.single.same_iff (by decide) x.bits.toNat_lt y.bits.toNat_lt, heq, hzeros]
  rfl

theorem Double.same_iff {x y : Double} :
    x.same y = true ↔ x = y ∧ x.isNan = false ∨ x.OppositeZeros y := by
  have heq : x.bits.toNat = y.bits.toNat ↔ x = y := by
    rw [UInt64.toNat_inj]
    exact ⟨fun h => by cases x; cases y; exact congrArg _ h, fun h => by rw [h]⟩
  have hzeros : (∃ s, x.bits.toNat = Binary.double.signBit s ∧
      y.bits.toNat = Binary.double.signBit !s) ↔ x.OppositeZeros y := by
    have hpos : Binary.double.signBit false = (0 : UInt64).toNat := rfl
    have hneg : Binary.double.signBit true = (0x8000000000000000 : UInt64).toNat := rfl
    simp only [Bool.exists_bool, Bool.not_false, Bool.not_true, hpos, hneg, UInt64.toNat_inj,
      OppositeZeros]
  rw [same, Binary.double.same_iff (by decide) x.bits.toNat_lt y.bits.toNat_lt, heq, hzeros]
  rfl

end NativeGate
