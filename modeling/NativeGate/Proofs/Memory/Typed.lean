import NativeGate.Memory.Access
import NativeGate.Proofs.Coercion
import NativeGate.Proofs.Memory.Store

/-!
Typed memory. A value of a kind is stored in as many bytes as the kind takes and decoded from them
again (`length_stored`, `decode_stored`). So a value that was written at an offset is read back
there, and what lies elsewhere is neither changed nor seen (`typed_memory_faithful`). Memory has a
byte at every address, so nothing is asked of a place but that the pointer is not null.
-/

namespace NativeGate

/-! ### Numbers in bytes -/

theorem length_littleEndian (count n : Nat) : (littleEndian count n).length = count := by
  induction count generalizing n with
  | zero => rfl
  | succ count ih => rw [littleEndian, List.length_cons, ih]

theorem ofLittleEndian_littleEndian (count n : Nat) :
    ofLittleEndian (littleEndian count n) = n % 256 ^ count := by
  induction count generalizing n with
  | zero => rw [littleEndian, ofLittleEndian, Nat.pow_zero, Nat.mod_one]
  | succ count ih =>
    have hbyte : (UInt8.ofNat (n % 256)).toNat = n % 256 := by
      rw [UInt8.toNat_ofNat']
      omega
    rw [littleEndian, ofLittleEndian, ih, hbyte, Nat.pow_succ', Nat.mod_mul]

/-- The low bits of an integer that its type holds give the integer back. -/
theorem IntKind.wrap_low {t : IntKind} {n : Int} (h : t.Holds n) :
    t.wrap ((n % 2 ^ t.bits).toNat % 256 ^ t.bytes : Nat) = n := by
  cases t <;> simp only [Holds, least, greatest, wrap, signed, bits, bytes, if_true, if_false,
    Bool.false_eq_true, Int.bmod] at * <;> omega

theorem Kind.size_le (k : Kind) : k.size ≤ 8 := by
  rcases k with _ | _ | k | _ | _ | _ | _
  case integer => cases k <;> decide
  all_goals decide

namespace Value

/-- A stored value takes the bytes of its kind. -/
theorem length_stored {w : Value} {k : Kind} (hk : k ≠ .string) (h : w.kind = k) :
    w.stored.length = k.size := by
  subst h
  cases w with
  | string s => exact absurd rfl hk
  | none | bool b => rfl
  | integer n => exact length_littleEndian ..
  | _ => exact length_littleEndian ..

/-- A value is decoded from the bytes that it is stored in. -/
theorem decode_stored {w : Value} {k : Kind} (hk : k ≠ .string) (h : w.kind = k) :
    decode k w.stored = w := by
  subst h
  cases w with
  | string s => exact absurd rfl hk
  | none => rfl
  | bool b => cases b <;> rfl
  | integer n =>
    obtain ⟨t, n, hn⟩ := n
    simp only [decode, kind, stored, NativeInt.bits, ofLittleEndian_littleEndian, ofBits, ofInt,
      NativeInt.wrapping, IntKind.wrap_low hn]
  | float x =>
    have hx := x.bits.toNat_lt
    have hbits : x.bits.toNat % 256 ^ 4 % 2 ^ 32 = x.bits.toNat := by omega
    simp only [decode, kind, stored, ofLittleEndian_littleEndian, ofBits, hbits, Single.ofBits,
      UInt32.ofNat_toNat]
  | double x =>
    have hx := x.bits.toNat_lt
    have hbits : x.bits.toNat % 256 ^ 8 = x.bits.toNat := by omega
    simp only [decode, kind, stored, ofLittleEndian_littleEndian, ofBits, hbits, Double.ofBits,
      UInt64.ofNat_toNat]
  | pointer p =>
    have hp := p.toNat_lt
    have hbits : p.toNat % 256 ^ 8 = p.toNat := by omega
    simp only [decode, kind, stored, ofLittleEndian_littleEndian, ofBits, hbits,
      Address.ofNat_toNat]

end Value

namespace Memory

/-! ### Ranges -/

/-- `x` is one of the `n` bytes from `a` on. -/
def Covers (a : Address) (n : Nat) (x : Address) : Prop := reach a x < n

/-- No byte is in both ranges. -/
def Apart (a : Address) (n : Nat) (b : Address) (n' : Nat) : Prop :=
  ∀ x, Covers a n x → ¬ Covers b n' x

theorem Apart.symm {a b : Address} {n n' : Nat} (h : Apart a n b n') : Apart b n' a n :=
  fun x hx hx' => h x hx' hx

theorem byte_store_of_not_covers (m : Memory) {a x : Address} {bytes : List UInt8}
    (h : ¬ Covers a bytes.length x) : (m.store a bytes).byte x = m.byte x :=
  m.byte_store_of_le (Nat.le_of_not_lt h)

/-- A load looks at the bytes of its range. -/
theorem load_eq_of_covers {m m' : Memory} {a : Address} {n : Nat} (hn : n ≤ 2 ^ 64)
    (h : ∀ x, Covers a n x → m'.byte x = m.byte x) : m'.load a n = m.load a n := by
  apply load_congr
  intro i hi
  apply h
  rw [Covers, reach_add a (by omega)]
  exact hi

/-- A load does not see a store elsewhere. -/
theorem load_store_of_apart (m : Memory) {a b : Address} {bytes : List UInt8} {n : Nat}
    (hn : n ≤ 2 ^ 64) (h : Apart a bytes.length b n) : (m.store a bytes).load b n = m.load b n :=
  load_eq_of_covers hn fun x hx => m.byte_store_of_not_covers (h.symm x hx)

/-- Stores in ranges apart may change places. -/
theorem store_comm (m : Memory) {a b : Address} {xs ys : List UInt8}
    (h : Apart a xs.length b ys.length) :
    (m.store a xs).store b ys = (m.store b ys).store a xs := by
  have hbyte : ((m.store a xs).store b ys).byte = ((m.store b ys).store a xs).byte := by
    funext x
    by_cases hx : Covers a xs.length x
    · rw [byte_store_of_not_covers _ (h x hx), byte_store, byte_store, List.getElem?_eq_getElem hx]
      rfl
    · rw [byte_store_of_not_covers _ hx, byte_store (m.store a xs), byte_store m b,
        byte_store_of_not_covers m hx]
  exact congrArg (fun byte => { m with byte }) hbyte

/-! ### Values at offsets -/

theorem requireNonNull_of_ne {p : Address} (h : p ≠ .null) (site : NullSite) :
    requireNonNull p site = .ok () := by
  rw [requireNonNull, if_neg fun hp => h (Address.isNull_iff.1 hp)]

theorem requireNonNull_null (site : NullSite) :
    requireNonNull .null site = .error (.nullPointer site) := rfl

/-- Writing is fitting, then looking at the pointer, then storing. -/
theorem setValue_eq (m : Memory) (p : Address) {k : Kind} (hvoid : k ≠ .void)
    (hstring : k ≠ .string) (v : Value) (offset : Int) :
    m.setValue p k v offset = (v.coerce k 0).bind fun w =>
      (requireNonNull p .pointer).map fun _ => m.store (p.add offset) w.stored := by
  cases k with
  | void => exact absurd rfl hvoid
  | string => exact absurd rfl hstring
  | _ => rfl

theorem getValue_eq (m : Memory) (p : Address) {k : Kind} (hvoid : k ≠ .void)
    (hstring : k ≠ .string) (offset : Int) :
    m.getValue p k offset =
      (requireNonNull p .pointer).map fun _ => Value.decode k (m.load (p.add offset) k.size) := by
  cases k with
  | void => exact absurd rfl hvoid
  | string => exact absurd rfl hstring
  | _ => rfl

/-- What a write takes, and what it leaves. -/
theorem setValue_eq_ok_iff {m m' : Memory} {p : Address} {k : Kind} {v : Value} {offset : Int} :
    m.setValue p k v offset = .ok m' ↔
      k ≠ .void ∧ k ≠ .string ∧ p ≠ .null ∧
        ∃ w, v.coerce k 0 = .ok w ∧ m' = m.store (p.add offset) w.stored := by
  by_cases hvoid : k = .void
  · subst hvoid
    simp [setValue]
  by_cases hstring : k = .string
  · subst hstring
    simp [setValue]
  rw [setValue_eq m p hvoid hstring]
  by_cases hp : p = .null
  · subst hp
    cases v.coerce k 0 <;> simp [Except.bind, Except.map, requireNonNull_null]
  · cases v.coerce k 0 <;>
      simp [Except.bind, Except.map, requireNonNull_of_ne hp, hvoid, hstring, hp, eq_comm]

/-- A write that is refused leaves no memory behind it; an unfit value is refused before the pointer
    is looked at. -/
theorem setValue_eq_error (m : Memory) {p : Address} {k : Kind} {v : Value} {offset : Int}
    (h : k = .void ∨ k = .string ∨ p = .null ∨ ∃ e, v.coerce k 0 = .error e) :
    ∃ e, m.setValue p k v offset = .error e := by
  cases hset : m.setValue p k v offset with
  | error e => exact ⟨e, rfl⟩
  | ok m' =>
    obtain ⟨hvoid, hstring, hp, w, hw, _⟩ := setValue_eq_ok_iff.1 hset
    rcases h with h | h | h | ⟨e, h⟩
    · exact absurd h hvoid
    · exact absurd h hstring
    · exact absurd h hp
    · rw [hw] at h
      cases h

/-- The bytes that a write stores are as many as its kind takes. -/
theorem length_stored_of_coerce {v w : Value} {k : Kind} (hstring : k ≠ .string)
    (h : v.coerce k 0 = .ok w) : w.stored.length = k.size :=
  Value.length_stored hstring (Value.kind_of_coerce hstring h)

/-- A read of a kind that is no string sees the bytes of its own range alone. -/
theorem getValue_eq_of_covers {m m' : Memory} {q : Address} {k : Kind} {offset : Int}
    (hk : k ≠ .string) (h : ∀ x, Covers (q.add offset) k.size x → m'.byte x = m.byte x) :
    m'.getValue q k offset = m.getValue q k offset := by
  by_cases hvoid : k = .void
  · subst hvoid
    rfl
  · have hsize : k.size ≤ 2 ^ 64 := Nat.le_trans k.size_le (by decide)
    rw [getValue_eq _ q hvoid hk, getValue_eq _ q hvoid hk, load_eq_of_covers hsize h]

theorem getValue_store_of_apart (m : Memory) {a q : Address} {bytes : List UInt8} {k : Kind}
    {offset : Int} (hk : k ≠ .string) (h : Apart a bytes.length (q.add offset) k.size) :
    (m.store a bytes).getValue q k offset = m.getValue q k offset :=
  getValue_eq_of_covers hk fun x hx => m.byte_store_of_not_covers (h.symm x hx)

/-- What was written is read back. -/
theorem getValue_store (m : Memory) {p : Address} {k : Kind} {v w : Value} {offset : Int}
    (hvoid : k ≠ .void) (hstring : k ≠ .string) (hp : p ≠ .null) (h : v.coerce k 0 = .ok w) :
    (m.store (p.add offset) w.stored).getValue p k offset = .ok w := by
  have hlen := length_stored_of_coerce hstring h
  have hload := m.load_store (p.add offset) w.stored (by have := k.size_le; omega)
  rw [hlen] at hload
  rw [getValue_eq _ p hvoid hstring, requireNonNull_of_ne hp, hload,
    Value.decode_stored hstring (Value.kind_of_coerce hstring h)]
  rfl

/-- Typed memory is a faithful store. A value that fits a kind of fixed size is written through any
    pointer but null, and the read that follows gives back the value as it was fitted. Such a write
    changes the bytes of its own range alone, so it is not seen by a read of another range and may
    change places with a write to another range. Everything else is refused: kinds without a stored
    form, values that do not fit, and the null pointer. -/
theorem typed_memory_faithful (m : Memory) (p : Address) (k : Kind) (v : Value) (offset : Int) :
    (∀ w, k ≠ .void → k ≠ .string → p ≠ .null → v.coerce k 0 = .ok w →
      ∃ m', m.setValue p k v offset = .ok m' ∧ m'.getValue p k offset = .ok w) ∧
    (∀ m', m.setValue p k v offset = .ok m' →
      (∀ x, ¬ Covers (p.add offset) k.size x → m'.byte x = m.byte x) ∧
      m'.heap = m.heap ∧ m'.frontier = m.frontier ∧
      (∀ q k' offset', k' ≠ .string → Apart (p.add offset) k.size (q.add offset') k'.size →
        m'.getValue q k' offset' = m.getValue q k' offset') ∧
      ∀ q k' v' offset' m'', Apart (p.add offset) k.size (q.add offset') k'.size →
        m.setValue q k' v' offset' = .ok m'' →
        ∃ both, m'.setValue q k' v' offset' = .ok both ∧ m''.setValue p k v offset = .ok both) ∧
    (k = .void ∨ k = .string ∨ p = .null ∨ (∃ e, v.coerce k 0 = .error e) →
      ∃ e, m.setValue p k v offset = .error e) := by
  refine ⟨fun w hvoid hstring hp hw => ?_, fun m' hset => ?_, setValue_eq_error m⟩
  · exact ⟨_, setValue_eq_ok_iff.2 ⟨hvoid, hstring, hp, w, hw, rfl⟩,
      m.getValue_store hvoid hstring hp hw⟩
  · obtain ⟨hvoid, hstring, hp, w, hw, rfl⟩ := setValue_eq_ok_iff.1 hset
    have hlen := length_stored_of_coerce hstring hw
    rw [← hlen]
    refine ⟨fun x hx => m.byte_store_of_not_covers hx, rfl, rfl,
      fun q k' offset' hk' hapart => m.getValue_store_of_apart hk' hapart,
      fun q k' v' offset' m'' hapart hset' => ?_⟩
    obtain ⟨hvoid', hstring', hq, w', hw', rfl⟩ := setValue_eq_ok_iff.1 hset'
    rw [← length_stored_of_coerce hstring' hw'] at hapart
    exact ⟨_, setValue_eq_ok_iff.2 ⟨hvoid', hstring', hq, w', hw', rfl⟩,
      setValue_eq_ok_iff.2 ⟨hvoid, hstring, hp, w, hw, m.store_comm hapart⟩⟩

end Memory

end NativeGate
