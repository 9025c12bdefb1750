import NativeGate.Proofs.Coercion

/-!
Integers among kinds. An integer type takes exactly the integers that its bytes can hold, and takes
them as they are; an address is taken from a pointer, from nothing, and from an integer that is a
word (`integer_coercion_exact`). What is refused is refused by one error, which names the parameter,
the kind asked for, and the integer or else the type that was found. As nothing but the integer
counts, going through another integer type on the way changes no later outcome.
-/

namespace NativeGate

/-- The integers that the bytes of a type can hold, in two's complement where the type has a
    sign. -/
def IntKind.Spans (k : IntKind) (n : Int) : Prop :=
  if k.signed then -(2 ^ (8 * k.bytes - 1)) ≤ n ∧ n < 2 ^ (8 * k.bytes - 1)
  else 0 ≤ n ∧ n < 2 ^ (8 * k.bytes)

/-- The range of a type, kept as its least and its greatest integer, is what its bytes can hold. -/
theorem IntKind.spans_iff_holds {k : IntKind} {n : Int} : k.Spans n ↔ k.Holds n := by
  cases k <;> simp only [Spans, Holds, least, greatest, signed, bits, bytes, if_true, if_false,
    Bool.false_eq_true] <;> omega

/-- The kinds that integers are counted into: the integer types, and addresses. -/
inductive Kind.Counts : Kind → Prop
  | integer (k : IntKind) : Counts (.integer k)
  | pointer : Counts .pointer

namespace Value

/-- The integer that a value carries; a truth value carries one or zero. -/
inductive Carries : Value → Int → Prop
  | yes : Carries (.bool true) 1
  | no : Carries (.bool false) 0
  | integer (n : NativeInt) : Carries (.integer n) n.val

/-- What a refusal says that was found: an integer as one that is out of range, and anything else by
    the name of its type. -/
def foundInstead : Value → String
  | .integer n => "out-of-range integer " ++ toString n.val
  | .none => "None"
  | .bool _ => "bool"
  | .float _ | .double _ => "float"
  | .pointer _ => "Pointer"
  | .string _ => "str"

theorem carries_iff {v : Value} {n : Int} : v.Carries n ↔ v.integer? = some n := by
  constructor
  · rintro (_ | _ | _) <;> rfl
  · intro h
    cases v with
    | bool b => cases b <;> cases h <;> constructor
    | integer m => cases h; exact .integer m
    | _ => cases h

theorem carries_of_kind {v : Value} {k : IntKind} (h : v.kind = .integer k) :
    ∃ n, v = .integer n ∧ n.kind = k := by
  cases v with
  | integer n => exact ⟨n, rfl, by simpa [kind] using h⟩
  | _ => cases h

theorem coerce_eq_ok_iff {v w : Value} {k : Kind} {i : Nat} :
    v.coerce k i = .ok w ↔ v.fit? k = some w := by
  refine ⟨coerce_eq_ok, fun h => ?_⟩
  simp only [coerce, h]

/-- An integer type takes the integers in its range, and keeps them. -/
theorem coerce_integer_eq_ok_iff {v w : Value} {k : IntKind} {i : Nat} :
    v.coerce (.integer k) i = .ok w ↔
      ∃ n, v.Carries n ∧ k.Spans n ∧ w.kind = .integer k ∧ w.Carries n := by
  simp only [coerce_eq_ok_iff, fit?, Option.map_eq_some_iff, Option.bind_eq_some_iff,
    carries_iff, IntKind.spans_iff_holds, NativeInt.of?_eq_some_iff]
  constructor
  · rintro ⟨m, ⟨n, hn, rfl, rfl⟩, rfl⟩
    exact ⟨m.val, hn, m.holds, rfl, rfl⟩
  · rintro ⟨n, hn, -, hk, hw⟩
    obtain ⟨m, rfl, rfl⟩ := carries_of_kind hk
    exact ⟨m, ⟨n, hn, rfl, by simpa [integer?] using hw⟩, rfl⟩

/-- Addresses are taken from pointers, from nothing and from integers that are words. -/
theorem coerce_pointer_eq_ok_iff {v w : Value} {i : Nat} :
    v.coerce .pointer i = .ok w ↔
      (∃ p, v = .pointer p ∧ w = v) ∨ v = .none ∧ w = .pointer .null ∨
      ∃ n p, v = .integer n ∧ 0 ≤ n.val ∧ n.val < 2 ^ 64 ∧ w = .pointer p ∧ p.toNat = n.val := by
  rw [coerce_eq_ok_iff, fit?, Option.map_eq_some_iff]
  cases v with
  | integer n =>
    constructor
    · rintro ⟨p, hp, rfl⟩
      simp only [address?, Option.ite_none_right_eq_some, Option.some.injEq] at hp
      obtain ⟨⟨h0, h64⟩, rfl⟩ := hp
      have hword : n.val.toNat < 2 ^ 64 := by omega
      refine .inr (.inr ⟨n, _, rfl, h0, h64, rfl, ?_⟩)
      rw [Address.ofNat, Address.toNat, UInt64.toNat_ofNat_of_lt' hword]
      omega
    · rintro (⟨p, hp, _⟩ | ⟨hn, _⟩ | ⟨n, p, ⟨⟩, h0, h64, rfl, hp⟩)
      · cases hp
      · cases hn
      · refine ⟨p, ?_, rfl⟩
        rw [address?, if_pos ⟨h0, h64⟩, ← hp, Int.toNat_natCast, Address.ofNat, Address.toNat,
          UInt64.ofNat_toNat]
  | _ => simp [address?, eq_comm]

/-- What is refused is refused by one error. -/
theorem found_of_coerce_eq_error {v : Value} {k : Kind} {i : Nat} {e : Error} (hk : k.Counts)
    (h : v.coerce k i = .error e) :
    ∃ found, e = .argumentType i k found ∧ found.describe = v.foundInstead := by
  have hmisfit : v.misfit k i = e := by
    unfold coerce at h
    split at h
    · cases h
    · cases hk <;> exact Except.error.inj h
  refine ⟨_, hmisfit.symm, ?_⟩
  cases v <;> rfl

/-- Two values other than truth values that carry one integer have the same outcomes. -/
theorem coerce_congr {v w : Value} {n : Int} {k : Kind} (hk : k.Counts) (hv : v.Carries n)
    (hw : w.Carries n) (hbool : ∀ b, v ≠ .bool b) (hbool' : ∀ b, w ≠ .bool b) (i : Nat) :
    v.coerce k i = w.coerce k i := by
  cases hv with
  | yes | no => exact absurd rfl (hbool _)
  | integer m =>
    generalize hn : m.val = n at hw
    cases hw with
    | yes | no => exact absurd rfl (hbool' _)
    | integer m' => cases hk <;> simp [coerce, fit?, integer?, address?, misfit, hn]

/-- Integer coercion is exact. An integer type takes a value just when it carries an integer that
    the bytes of the type can hold, and gives that integer in that type. An address is taken from a
    pointer as it is, from nothing as the null address, and from an integer of an integer type that
    is a word. Everything else is refused, by an error that names the parameter, the kind asked for
    and what was found. A value other than a truth value that went through an integer type has every
    later outcome that it has without. -/
theorem integer_coercion_exact (v : Value) (index : Nat) :
    (∀ (k : IntKind) (w : Value), v.coerce (.integer k) index = .ok w ↔
      ∃ n, v.Carries n ∧ k.Spans n ∧ w.kind = .integer k ∧ w.Carries n) ∧
    (∀ w : Value, v.coerce .pointer index = .ok w ↔
      (∃ p, v = .pointer p ∧ w = v) ∨ v = .none ∧ w = .pointer .null ∨
      ∃ n p, v = .integer n ∧ 0 ≤ n.val ∧ n.val < 2 ^ 64 ∧ w = .pointer p ∧ p.toNat = n.val) ∧
    (∀ (k : Kind) (e : Error), k.Counts → v.coerce k index = .error e →
      ∃ found, e = .argumentType index k found ∧ found.describe = v.foundInstead) ∧
    ∀ (k : IntKind) (w : Value), (∀ b, v ≠ .bool b) → v.coerce (.integer k) index = .ok w →
      ∀ (k' : Kind) (later : Nat), k'.Counts → w.coerce k' later = v.coerce k' later := by
  refine ⟨fun _ _ => coerce_integer_eq_ok_iff, fun _ => coerce_pointer_eq_ok_iff,
    fun _ _ => found_of_coerce_eq_error, fun k w hbool hw k' later hk' => ?_⟩
  obtain ⟨n, hv, _, hkind, hn⟩ := coerce_integer_eq_ok_iff.1 hw
  obtain ⟨m, rfl, _⟩ := carries_of_kind hkind
  refine coerce_congr hk' hn hv ?_ hbool later
  rintro b ⟨⟩

/-- The greatest word is an address, and one more than the greatest `int` is no `int`. -/
example :
    (Value.ofInt .ulong (2 ^ 64 - 1)).coerce .pointer 0 = .ok (.pointer ⟨0xffffffffffffffff⟩) ∧
    (Value.ofInt .uint (2 ^ 31)).coerce (.integer .int) 3 =
      .error (.argumentType 3 (.integer .int) (.outOfRange 2147483648)) := by decide

end Value

end NativeGate
