import NativeGate.Call.Gate
import NativeGate.Proofs.Binary.Widening

/-!
Values between words and kinds. A word carries a value of its kind, a string by its address; such a
value fits its kind, passes unchanged but for the payload of a NaN, and has a word that carries it
again. `Value.Alike` is equality of values up to the payload of NaNs. Equality of the numbers behind
values, `Value.same`, is coarser on zeros and finer on NaNs (`Value.same_iff`).
-/

namespace NativeGate

/-- The kind of the values that words of a kind carry. -/
def Kind.carried : Kind → Kind
  | .string => .pointer
  | k => k

namespace Value

/-! ### Equality of values -/

/-- The positive and the negative zero of one floating-point kind, in either order. -/
def OppositeZeros : Value → Value → Prop
  | float x, float y => x.OppositeZeros y
  | double x, double y => x.OppositeZeros y
  | _, _ => False

def isNan : Value → Bool
  | float x => x.isNan
  | double x => x.isNan
  | _ => false

/-- Equal, or both a NaN of one kind. -/
def Alike (v w : Value) : Prop := v = w ∨ v.kind = w.kind ∧ v.isNan = true ∧ w.isNan = true

theorem Alike.refl (v : Value) : v.Alike v := .inl rfl

theorem Alike.symm {v w : Value} (h : v.Alike w) : w.Alike v := by
  rcases h with rfl | ⟨hk, hv, hw⟩
  · exact .refl _
  · exact .inr ⟨hk.symm, hw, hv⟩

theorem Alike.trans {u v w : Value} (h : u.Alike v) (h' : v.Alike w) : u.Alike w := by
  rcases h with rfl | ⟨hk, hu, hv⟩
  · exact h'
  · rcases h' with rfl | ⟨hk', _, hw⟩
    · exact .inr ⟨hk, hu, hv⟩
    · exact .inr ⟨hk.trans hk', hu, hw⟩

/-- Two values count as the same when they are equal and no NaN, and when they are the two zeros. -/
theorem same_iff {v w : Value} :
    v.same w = true ↔ v = w ∧ v.isNan = false ∨ v.OppositeZeros w := by
  cases v <;> cases w
  case float.float => simp [same, OppositeZeros, isNan, Single.same_iff]
  case double.double => simp [same, OppositeZeros, isNan, Double.same_iff]
  all_goals simp [same, OppositeZeros, isNan]

/-- Opposite zeros are different words. -/
theorem OppositeZeros.word_ne {v w : Value} (h : v.OppositeZeros w) : v.word ≠ w.word := by
  cases v <;> cases w <;> try exact h.elim
  case float.float x y =>
    rcases h with ⟨hx, hy⟩ | ⟨hx, hy⟩ <;> simp only [word, hx, hy] <;> decide
  case double.double x y =>
    rcases h with ⟨hx, hy⟩ | ⟨hx, hy⟩ <;> simp only [word, hx, hy] <;> decide

theorem OppositeZeros.kind_eq {v w : Value} (h : v.OppositeZeros w) : v.kind = w.kind := by
  cases v <;> cases w <;> first | rfl | exact h.elim

theorem OppositeZeros.symm {v w : Value} (h : v.OppositeZeros w) : w.OppositeZeros v := by
  cases v <;> cases w <;> try exact h.elim
  case float.float => exact h.elim (fun h => .inr h.symm) fun h => .inl h.symm
  case double.double => exact h.elim (fun h => .inr h.symm) fun h => .inl h.symm

theorem OppositeZeros.isNan_eq {v w : Value} (h : v.OppositeZeros w) : v.isNan = false := by
  cases v <;> cases w <;> try exact h.elim
  case float.float x y =>
    rcases h with ⟨hx, _⟩ | ⟨hx, _⟩ <;> simp only [isNan, Single.isNan, hx] <;> decide
  case double.double x y =>
    rcases h with ⟨hx, _⟩ | ⟨hx, _⟩ <;> simp only [isNan, Double.isNan, hx] <;> decide

/-! ### Values that words carry -/

/-- The value as it passes for a parameter of its own kind: a `float` goes through 64 bits. -/
def settled : Value → Value
  | float x => .float x.toDouble.toSingle
  | v => v

theorem kind_settled (v : Value) : v.settled.kind = v.kind := by cases v <;> rfl

theorem settled_of_not_nan {v : Value} (h : v.isNan = false) : v.settled = v := by
  cases v with
  | float x => exact congrArg float (Single.toSingle_toDouble h)
  | _ => rfl

/-- Passing for a parameter changes at most the payload of a NaN. -/
theorem alike_settled (v : Value) : v.settled.Alike v := by
  cases h : v.isNan with
  | false => exact .inl (settled_of_not_nan h)
  | true =>
    cases v with
    | float x => exact .inr ⟨rfl, Single.isNan_toSingle_toDouble h, h⟩
    | _ => exact .inl rfl

theorem settled_of_pointer {v : Value} (h : v.kind = .pointer) : v.settled = v := by
  cases v <;> first | rfl | cases h

theorem kind_ofWord (k : Kind) (x : UInt64) : (ofWord k x).kind = k.carried := by
  cases k <;> rfl

/-- A value fits the kind that its word is carried under. -/
theorem coerce_carried {v : Value} {k : Kind} (hk : k ≠ .void) (h : v.kind = k.carried) (i : Nat) :
    v.coerce k i = .ok v.settled := by
  cases k with
  | void => exact absurd rfl hk
  | integer t =>
    cases v <;> try cases h
    case integer n =>
      have hn : NativeInt.of? n.kind n.val = some n := NativeInt.of?_eq_some_iff.2 ⟨rfl, rfl⟩
      simp [coerce, fit?, integer?, hn, settled]
  | _ =>
    cases v <;> first | cases h; rfl | cases h

end Value

/-- The low bits of an integer that its type holds, in 64 bits, give the integer back. -/
theorem IntKind.wrap_word {t : IntKind} {n : Int} (h : t.Holds n) :
    t.wrap ((n % 2 ^ 64).toNat : Nat) = n := by
  rw [Int.toNat_of_nonneg (Int.emod_nonneg n (by decide))]
  cases t <;> simp only [Holds, least, greatest, wrap, signed, bits, if_true, if_false,
    Bool.false_eq_true, Int.bmod] at * <;> omega

namespace Value

/-- The word of a value carries the value. -/
theorem ofWord_word {v : Value} {k : Kind} (h : v.kind = k.carried) : ofWord k v.word = v := by
  cases v <;> cases k <;> cases h
  case bool b =>
    cases b <;> rfl
  case integer n =>
    obtain ⟨t, n, hn⟩ := n
    have hbits : (UInt64.ofInt n).toNat = (n % 2 ^ 64).toNat := by
      rw [UInt64.ofInt, UInt64.toNat_ofNat']
      omega
    simp only [ofWord, word, hbits, ofBits, ofInt, NativeInt.wrapping, IntKind.wrap_word hn]
  case float x =>
    have hx : x.bits.toUInt64.toNat % 2 ^ 32 = x.bits.toNat := by
      rw [UInt32.toNat_toUInt64]
      exact Nat.mod_eq_of_lt x.bits.toNat_lt
    simp only [ofWord, word, ofBits, hx, Single.ofBits, UInt32.ofNat_toNat]
  case double x => simp only [ofWord, word, ofBits, Double.ofBits, UInt64.ofNat_toNat]
  all_goals simp [ofWord, word, ofBits, Address.ofNat]

/-- An address crosses as it is, whether it stands for a pointer or for a string. -/
theorem word_ofWord {k : Kind} (hk : k.carried = .pointer) (x : UInt64) :
    (ofWord k x).word = x := by
  cases k <;> cases hk <;> simp [ofWord, word, ofBits, Address.ofNat]

theorem coerce_eq_ok {v w : Value} {k : Kind} {i : Nat} (h : v.coerce k i = .ok w) :
    v.fit? k = some w := by
  unfold coerce at h
  split at h
  · rename_i u hu
    cases h
    exact hu
  · cases h

/-- What passes for a parameter other than a string has the kind of the parameter. -/
theorem kind_of_coerce {v w : Value} {k : Kind} {i : Nat} (hk : k ≠ .string)
    (h : v.coerce k i = .ok w) : w.kind = k := by
  have hfit := coerce_eq_ok h
  cases k with
  | void => cases hfit
  | string => exact absurd rfl hk
  | bool => cases v <;> cases hfit; rfl
  | integer t =>
    obtain ⟨n, hn, rfl⟩ := Option.map_eq_some_iff.1 hfit
    obtain ⟨m, _, hm⟩ := Option.bind_eq_some_iff.1 hn
    exact congrArg Kind.integer (NativeInt.of?_eq_some_iff.1 hm).1
  | _ =>
    obtain ⟨x, _, rfl⟩ := Option.map_eq_some_iff.1 hfit
    rfl

/-- What passes for a string is a string or an address. -/
theorem kind_of_coerce_string {v w : Value} {i : Nat} (h : v.coerce .string i = .ok w) :
    (∃ s, w = .string s) ∨ w.kind = .pointer := by
  have hfit := coerce_eq_ok h
  cases v <;> cases hfit
  case string s => exact .inl ⟨s, rfl⟩
  all_goals exact .inr rfl

theorem not_string_of_carried {v : Value} {k : Kind} (h : v.kind = k.carried) (s : CString) :
    v ≠ .string s := by
  rintro rfl
  cases k <;> cases h

/-! ### Results -/

/-- Only a string is received in another form than it was carried in. -/
theorem received_carried {v : Value} {k : Kind} (hk : k ≠ .string) (h : v.kind = k.carried)
    (m : Memory) : v.received m k = v := by
  cases k with
  | void => cases v <;> first | rfl | cases h
  | string => exact absurd rfl hk
  | _ => rfl

theorem received_eq_self {k : Kind} (hvoid : k ≠ .void) (hstring : k ≠ .string) (m : Memory)
    (v : Value) : v.received m k = v := by
  cases k with
  | void => exact absurd rfl hvoid
  | string => exact absurd rfl hstring
  | _ => rfl

/-- An address that is returned for a string is received as the string there. -/
theorem received_pointer_of_ne {p : Address} (hp : p ≠ .null) (m : Memory) :
    (pointer p).received m .string = .string (m.cstring p) :=
  if_neg fun hnull => hp (Address.isNull_iff.1 hnull)

theorem received_string {v : Value} (h : v.kind = .pointer) (m : Memory) :
    v.received m .string = .none ∨ ∃ s, v.received m .string = .string s := by
  cases v <;> try cases h
  case pointer p =>
    by_cases hp : p = .null
    · subst hp
      exact .inl rfl
    · exact .inr ⟨_, received_pointer_of_ne hp m⟩

/-- A received text counts as the same as itself alone. -/
theorem same_received_string {v : Value} (h : v.kind = .pointer) (m : Memory) (a : Value) :
    a.same (v.received m .string) = true ↔ a = v.received m .string := by
  rw [same_iff]
  rcases received_string h m with hr | ⟨s, hr⟩ <;> rw [hr]
  all_goals
    constructor
    · rintro (⟨ha, _⟩ | ho)
      · exact ha
      · exact ho.symm.elim
    · rintro rfl
      exact .inl ⟨rfl, rfl⟩

/-- Values that are alike are received alike. -/
theorem Alike.received {v w : Value} {k : Kind} (hv : v.kind = k.carried) (hw : w.kind = k.carried)
    (h : v.Alike w) (m : Memory) : (v.received m k).Alike (w.received m k) := by
  rcases h with rfl | ⟨hk, hnan, hnan'⟩
  · exact .refl _
  · have hstring : k ≠ .string := by
      rintro rfl
      cases v <;> first | cases hnan | cases hv
    rw [received_carried hstring hv, received_carried hstring hw]
    exact .inr ⟨hk, hnan, hnan'⟩

end Value

end NativeGate
