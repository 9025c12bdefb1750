import Mathlib.Algebra.Group.Int.Defs
import Mathlib.Algebra.Group.Nat.Defs
import Mathlib.Data.List.TakeWhile
import NativeGate.Memory

/-!
Bytes after a store. Storing changes the bytes of its range and no other, and what was stored is
read back. Bytes that are put into memory take room behind everything handed out before, so later
bytes leave earlier ones alone as long as the room does not run round the address space.
-/

namespace NativeGate

namespace Address

@[simp] theorem toNat_ofNat {n : Nat} (h : n < 2 ^ 64) : (ofNat n).toNat = n :=
  UInt64.toNat_ofNat_of_lt' h

@[simp] theorem ofNat_toNat (a : Address) : ofNat a.toNat = a := by
  rw [ofNat, toNat, UInt64.ofNat_toNat]

theorem toNat_lt (a : Address) : a.toNat < 2 ^ 64 := a.word.toNat_lt

theorem toNat_injective {a b : Address} (h : a.toNat = b.toNat) : a = b := by
  rw [← a.ofNat_toNat, h, b.ofNat_toNat]

/-- An offset in words is its remainder. -/
theorem toNat_ofInt (n : Int) : (UInt64.ofInt n).toNat = (n % 2 ^ 64).toNat := by
  rw [UInt64.ofInt, UInt64.toNat_ofNat']
  omega

theorem toNat_add (a : Address) (i : Nat) : (a.add i).toNat = (a.toNat + i) % 2 ^ 64 := by
  have hi : (UInt64.ofInt i).toNat = i % 2 ^ 64 := by
    rw [toNat_ofInt]
    omega
  rw [toNat, add, UInt64.toNat_add, hi, Nat.add_mod_mod]
  rfl

theorem add_zero (a : Address) : a.add 0 = a := by
  have ha := a.toNat_lt
  apply toNat_injective
  have h : (a.add (0 : Nat)).toNat = (a.toNat + 0) % 2 ^ 64 := a.toNat_add 0
  rw [Nat.add_zero, Nat.mod_eq_of_lt ha] at h
  exact h

theorem add_one_add (a : Address) (i : Nat) : (a.add 1).add i = a.add (i + 1 : Nat) := by
  apply toNat_injective
  have h1 : (a.add 1).toNat = (a.toNat + 1) % 2 ^ 64 := a.toNat_add 1
  rw [toNat_add, toNat_add, h1]
  omega

end Address

namespace Memory

/-- Bytes from one address to another, as a remainder. -/
theorem reach_eq (a x : Address) : reach a x = (2 ^ 64 - a.toNat + x.toNat) % 2 ^ 64 := by
  rw [reach, UInt64.toNat_sub]
  rfl

theorem reach_add (a : Address) {i : Nat} (h : i < 2 ^ 64) : reach a (a.add i) = i := by
  have ha := a.toNat_lt
  rw [reach_eq, Address.toNat_add]
  omega

theorem byte_store (m : Memory) (a : Address) (bytes : List UInt8) (x : Address) :
    (m.store a bytes).byte x = (bytes[reach a x]?).getD (m.byte x) := by
  simp [store, overlay]

/-- A store leaves every byte outside its range. -/
theorem byte_store_of_le (m : Memory) {a x : Address} {bytes : List UInt8}
    (h : bytes.length ≤ reach a x) : (m.store a bytes).byte x = m.byte x := by
  rw [byte_store, List.getElem?_eq_none h, Option.getD_none]

/-- What was stored is read back. -/
theorem load_store (m : Memory) (a : Address) (bytes : List UInt8) (h : bytes.length ≤ 2 ^ 64) :
    (m.store a bytes).load a bytes.length = bytes := by
  apply List.ext_getElem
  · rw [load, List.length_map, List.length_range]
  · intro i hi hi'
    simp only [load, List.getElem_map, List.getElem_range]
    rw [byte_store, reach_add a (by omega), List.getElem?_eq_getElem hi', Option.getD_some]

theorem load_congr {m m' : Memory} {a : Address} {n : Nat}
    (h : ∀ i < n, m.byte (a.add i) = m'.byte (a.add i)) : m.load a n = m'.load a n := by
  unfold load
  apply List.map_congr_left
  intro i hi
  exact h i (List.mem_range.1 hi)

theorem load_succ (m : Memory) (a : Address) (n : Nat) :
    m.load a (n + 1) = m.byte a :: m.load (a.add 1) n := by
  have hzero : a.add (0 : Nat) = a := a.add_zero
  unfold load
  rw [List.range_succ_eq_map, List.map_cons, hzero, List.map_map]
  congr 1
  apply List.map_congr_left
  intro i _
  exact congrArg m.byte (a.add_one_add i).symm

/-! ### Strings in memory -/

theorem bytesUpToNul_of_load {m : Memory} {a : Address} {bytes : List UInt8} {n : Nat}
    (h : m.load a (bytes.length + 1) = bytes ++ [0]) (hnul : (0 : UInt8) ∉ bytes)
    (hn : bytes.length < n) : m.bytesUpToNul a n = bytes := by
  induction bytes generalizing a n with
  | nil =>
    obtain ⟨n, rfl⟩ := Nat.exists_eq_add_of_lt hn
    rw [List.length_nil, load_succ, List.nil_append, List.cons.injEq] at h
    rw [bytesUpToNul]
    simp [h.1]
  | cons b rest ih =>
    obtain ⟨n, rfl⟩ : ∃ n', n = n' + 1 := ⟨n - 1, by omega⟩
    rw [List.length_cons, load_succ, List.cons_append, List.cons.injEq] at h
    rw [List.mem_cons, not_or] at hnul
    have hrest := ih h.2 hnul.2 (by simpa using hn)
    have hb : b ≠ 0 := fun hb => hnul.1 hb.symm
    simp only [bytesUpToNul, h.1, if_neg hb, hrest]

theorem upToNul_of_noNul {bytes : List UInt8} (h : (0 : UInt8) ∉ bytes) :
    CString.upToNul bytes = ⟨bytes, h⟩ := by
  simp only [CString.upToNul, CString.mk.injEq]
  rw [List.takeWhile_eq_self_iff]
  intro b hb
  simp only [ne_eq, decide_not, Bool.not_eq_true', decide_eq_false_iff_not]
  rintro rfl
  exact h hb

/-- A string is read where its bytes and a terminator stand. -/
theorem cstring_of_load {m : Memory} {a : Address} {s : CString}
    (h : m.load a (s.bytes.length + 1) = s.bytes ++ [0]) (hlen : s.bytes.length < 2 ^ 64) :
    m.cstring a = s := by
  have hround : s.bytes.length < wordCount := hlen
  rw [cstring, bytesUpToNul_of_load h s.noNul hround, upToNul_of_noNul s.noNul]

theorem zero_notMem_bytesUpToNul (m : Memory) (a : Address) (n : Nat) :
    (0 : UInt8) ∉ m.bytesUpToNul a n := by
  induction n generalizing a with
  | zero => exact List.not_mem_nil
  | succ n ih =>
    simp only [bytesUpToNul]
    split
    · exact List.not_mem_nil
    · rename_i hb
      exact fun h => (List.mem_cons.1 h).elim (fun h => hb h.symm) (ih _)

theorem bytes_cstring (m : Memory) (a : Address) :
    (m.cstring a).bytes = m.bytesUpToNul a wordCount := by
  rw [cstring, upToNul_of_noNul (m.zero_notMem_bytesUpToNul a _)]

/-- Reading up to a zero byte looks at the bytes up to that byte. -/
theorem bytesUpToNul_eq {m m' : Memory} {a : Address} {n : Nat}
    (h : ∀ i : Nat, i < n → i ≤ (m.bytesUpToNul a n).length →
      m'.byte (a.add i) = m.byte (a.add i)) : m'.bytesUpToNul a n = m.bytesUpToNul a n := by
  induction n generalizing a with
  | zero => rfl
  | succ n ih =>
    have hfirst : m'.byte a = m.byte a := by
      have := h 0 (Nat.succ_pos n) (Nat.zero_le _)
      rwa [Int.natCast_zero, a.add_zero] at this
    simp only [bytesUpToNul, hfirst] at h ⊢
    split
    · rfl
    · rename_i hb
      rw [if_neg hb] at h
      rw [ih fun i hi hlen => ?_]
      have hlen : i + 1 ≤ (m.byte a :: m.bytesUpToNul (a.add 1) n).length :=
        Nat.succ_le_succ hlen
      rw [a.add_one_add]
      exact h (i + 1) (Nat.succ_lt_succ hi) hlen

theorem bytesUpToNul_congr {m m' : Memory} (h : m.byte = m'.byte) (a : Address) (n : Nat) :
    m.bytesUpToNul a n = m'.bytesUpToNul a n := by
  induction n generalizing a with
  | zero => rfl
  | succ n ih => simp only [bytesUpToNul, h, ih]

/-- What string is at an address is a matter of the bytes alone. -/
theorem cstring_congr {m m' : Memory} (h : m.byte = m'.byte) (a : Address) :
    m.cstring a = m'.cstring a := by
  rw [cstring, cstring, bytesUpToNul_congr h]

/-! ### Placing bytes -/

theorem frontier_place (m : Memory) (bytes : List UInt8) :
    m.frontier + bytes.length + 1 ≤ (m.place bytes).2.frontier := by
  simp only [place, advance, store]
  omega

/-- Placing bytes leaves everything below the frontier. -/
theorem byte_place {m : Memory} {bytes : List UInt8} (h : (m.place bytes).2.frontier ≤ 2 ^ 64)
    {x : Address} (hx : x.toNat < m.frontier) : (m.place bytes).2.byte x = m.byte x := by
  have hroom := m.frontier_place bytes
  have hbase : (Address.ofNat m.frontier).toNat = m.frontier := Address.toNat_ofNat (by omega)
  refine byte_store_of_le (m.advance (bytes.length + 1)).2 ?_
  rw [reach_eq, List.length_append, List.length_singleton]
  simp only [hbase]
  omega

/-- Bytes that were placed stand where they were placed, below the new frontier. -/
theorem load_place {m : Memory} {bytes : List UInt8} (h : (m.place bytes).2.frontier ≤ 2 ^ 64) :
    (m.place bytes).2.load (m.place bytes).1 (bytes.length + 1) = bytes ++ [0] := by
  have hroom := m.frontier_place bytes
  have hlen : (bytes ++ [0]).length = bytes.length + 1 := List.length_append
  have hload := load_store (m.advance (bytes.length + 1)).2 (m.place bytes).1 (bytes ++ [0])
    (by omega)
  rw [hlen] at hload
  exact hload

theorem cstring_of_place {m m' : Memory} {s : CString}
    (hspace : (m.place s.bytes).2.frontier ≤ 2 ^ 64)
    (h : ∀ x : Address, x.toNat < (m.place s.bytes).2.frontier →
      m'.byte x = (m.place s.bytes).2.byte x) :
    m'.cstring (m.place s.bytes).1 = s := by
  have hroom := m.frontier_place s.bytes
  have hbase : (m.place s.bytes).1.toNat = m.frontier := Address.toNat_ofNat (by omega)
  have hload : m'.load (m.place s.bytes).1 (s.bytes.length + 1) =
      (m.place s.bytes).2.load (m.place s.bytes).1 (s.bytes.length + 1) := by
    apply load_congr
    intro i hi
    apply h
    rw [Address.toNat_add, hbase]
    omega
  exact cstring_of_load (hload.trans (load_place hspace)) (by omega)

end Memory

end NativeGate
