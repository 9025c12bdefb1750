import NativeGate.Proofs.Coercion
import NativeGate.Proofs.Memory.Strings

/-!
Two readers of strings. A string that native code leaves is read through a slot in memory or taken
as the result of a call. The result keeps the bytes as they are; the reader of the slot makes a
text of them, with the replacement character for what is ill-formed, and then a string of the text
(`CString.mended`). Mending changes the bytes that are ill-formed and no others
(`mended_eq_self_iff`), and it never shows (`display_mended`). So the two readers give different
values for ill-formed bytes alone, and their values are always shown alike
(`string_readers_agree`).
-/

namespace NativeGate

/-! ### Mended strings -/

namespace CString

theorem zero_notMem_lossyText (s : CString) : (0 : UInt8) ∉ Text.utf8 s.lossyText := by
  rw [Text.zero_mem_utf8_iff, lossyText, String.toList_ofList]
  exact fun h => s.noNul (Text.Utf8.zero_mem_of_decodeLossy h)

/-- The string of the text that is made of a string. -/
def mended (s : CString) : CString := ⟨Text.utf8 s.lossyText, s.zero_notMem_lossyText⟩

theorem bytes_mended (s : CString) :
    s.mended.bytes = Text.Utf8.encode (Text.Utf8.decodeLossy s.bytes) :=
  congrArg Text.Utf8.encode String.toList_ofList

/-- Mending leaves a string just when its bytes are well-formed. -/
theorem mended_eq_self_iff {s : CString} : s.mended = s ↔ s.bytes.toByteArray.IsValidUTF8 := by
  rw [← Text.Utf8.encode_decodeLossy_eq_iff, ← bytes_mended]
  constructor
  · intro h
    rw [h]
  · intro h
    cases s
    simpa [mended] using h

end CString

namespace Value

/-- The text that is made of a string has no zero character, so it always is a value. -/
theorem ofText_lossyText (s : CString) : ofText s.lossyText = .ok (.string s.mended) := by
  rw [ofText, CString.of?, dif_neg s.zero_notMem_lossyText]
  rfl

/-- What mending replaces is shown as its replacement in any case. -/
theorem display_mended (s : CString) : (string s.mended).display = (string s).display := by
  rw [display, displayWith, displayWith, s.bytes_mended, Text.Utf8.decodeLossy_encode]

theorem same_string_iff {s t : CString} : (string s).same (string t) = true ↔ s = t := by
  simp [same]

end Value

namespace Memory
variable {m : Memory} {a p dest : Address} {s : CString} {offset : Int}

/-! ### Strings with a terminator -/

/-- A string and its terminator fit into the address space: past its end the addresses begin again,
    and the terminator would be one of the bytes before it. -/
theorem length_lt_of_load (h : m.load a (s.bytes.length + 1) = s.bytes ++ [0]) :
    s.bytes.length < 2 ^ 64 := by
  by_contra hlen
  have hbyte {i : Nat} (hi : i < s.bytes.length + 1) :
      (s.bytes ++ [0])[i]? = some (m.byte (a.add i)) := by
    rw [← h, load, List.getElem?_map, List.getElem?_range hi, Option.map_some]
  have hend : m.byte (a.add s.bytes.length) = 0 := by
    have hlast := hbyte (Nat.lt_succ_self _)
    rw [List.getElem?_concat_length, Option.some.injEq] at hlast
    exact hlast.symm
  have hround : a.add (s.bytes.length - 2 ^ 64 : Nat) = a.add s.bytes.length := by
    apply Address.toNat_injective
    rw [Address.toNat_add, Address.toNat_add]
    omega
  have hearly := hbyte (i := s.bytes.length - 2 ^ 64) (by omega)
  rw [hround, hend, List.getElem?_append_left (by omega)] at hearly
  exact s.noNul (List.mem_of_getElem? hearly)

theorem cstring_of_terminated (h : m.load a (s.bytes.length + 1) = s.bytes ++ [0]) :
    m.cstring a = s :=
  cstring_of_load h (length_lt_of_load h)

/-! ### The two readers -/

/-- A string that is the result of a call keeps its bytes. -/
theorem received_terminated (ha : a ≠ .null)
    (h : m.load a (s.bytes.length + 1) = s.bytes ++ [0]) :
    (Value.pointer a).received m .string = .string s := by
  rw [Value.received_pointer_of_ne ha, cstring_of_terminated h]

/-- A string that is read through a slot is mended. -/
theorem getValue_string_of_reaches (h : Reaches m p offset true dest) :
    m.getValue p .string offset = .ok (.string (m.cstring dest).mended) := by
  rw [getValue, getText_of_reaches h, Except.bind, textValue, Value.ofText_lossyText]

theorem getValue_string_of_null_slot (hp : p ≠ .null) (hs : p.add offset ≠ .null)
    (hd : m.addressAt (p.add offset) = .null) : m.getValue p .string offset = .ok .none := by
  rw [getValue, getText_of_null_slot hp hs hd]
  rfl

theorem getValue_string_of_null (h : p = .null ∨ p.add offset = .null) :
    m.getValue p .string offset = .error (.nullPointer .pointer) := by
  rw [getValue, getText_of_null (h.imp_right fun hs => ⟨rfl, hs⟩)]
  rfl

/-- A string is read through every slot, unless the pointer is null or the slot is at the null
    address. -/
theorem exists_getValue_string_iff :
    (∃ v, m.getValue p .string offset = .ok v) ↔ p ≠ .null ∧ p.add offset ≠ .null := by
  constructor
  · rintro ⟨v, hv⟩
    by_contra hnull
    rw [getValue_string_of_null ((not_and_or.1 hnull).imp not_not.1 not_not.1)] at hv
    cases hv
  · rintro ⟨hp, hs⟩
    by_cases hd : m.addressAt (p.add offset) = .null
    · exact ⟨_, getValue_string_of_null_slot hp hs hd⟩
    · exact ⟨_, getValue_string_of_reaches (.slot hp hs hd)⟩

/-- Two readers of one string. Where a slot holds the address of a string, the value that is read
    through the slot and the value of a call that returns the address are equal just when the bytes
    are well-formed, and they are shown alike in any case. Where the slot or the result is null,
    both are nothing. Through a pointer that is not null a read fails for no other reason than that
    the slot itself is at the null address, to which an offset may lead. -/
theorem string_readers_agree (m : Memory) (p : Address) (offset : Int) (hp : p ≠ .null) :
    (∀ (a : Address) (s : CString), p.add offset ≠ .null → m.addressAt (p.add offset) = a →
      a ≠ .null → m.load a (s.bytes.length + 1) = s.bytes ++ [0] →
      ∃ read, m.getValue p .string offset = .ok read ∧
        let result := (Value.pointer a).received m .string
        (read = result ↔ s.bytes.toByteArray.IsValidUTF8) ∧
        (read.same result = true ↔ s.bytes.toByteArray.IsValidUTF8) ∧
        read.display = result.display) ∧
    (p.add offset ≠ .null → m.addressAt (p.add offset) = .null →
      m.getValue p .string offset = .ok .none) ∧
    Value.null.received m .string = .none ∧
    ((∃ v, m.getValue p .string offset = .ok v) ↔ p.add offset ≠ .null) ∧
    (p.add offset = .null → m.getValue p .string offset = .error (.nullPointer .pointer)) := by
  refine ⟨?_, fun hs hd => getValue_string_of_null_slot hp hs hd, rfl, ?_,
    fun hs => getValue_string_of_null (.inr hs)⟩
  · rintro a s hs rfl ha hload
    have hread := getValue_string_of_reaches (.slot hp hs ha)
    rw [cstring_of_terminated hload] at hread
    refine ⟨_, hread, ?_⟩
    rw [received_terminated ha hload]
    refine ⟨?_, ?_, Value.display_mended s⟩
    · rw [Value.string.injEq, CString.mended_eq_self_iff]
    · rw [Value.same_string_iff, CString.mended_eq_self_iff]
  · rw [exists_getValue_string_iff]
    exact and_iff_right hp

/-- A slot holds the address of the bytes `63 61 66 e9`, and the slot behind it holds null. -/
theorem string_readers_agree_latin :
    ∃ m : Memory, ∃ p a : Address, ∃ s : CString, s.bytes = [0x63, 0x61, 0x66, 0xe9] ∧
      p ≠ .null ∧ p.add 0 ≠ .null ∧ m.addressAt (p.add 0) = a ∧ a ≠ .null ∧
      m.load a (s.bytes.length + 1) = s.bytes ++ [0] ∧
      p.add 8 ≠ .null ∧ m.addressAt (p.add 8) = .null ∧
      (∃ read, m.getValue p .string 0 = .ok read ∧ read ≠ (Value.pointer a).received m .string ∧
        read.display = ((Value.pointer a).received m .string).display) ∧
      m.getValue p .string 8 = .ok .none := by
  let p : Address := .ofNat 4096
  let a : Address := .ofNat 8192
  let s : CString := ⟨[0x63, 0x61, 0x66, 0xe9], by decide⟩
  let m := (Memory.empty.store p (Value.pointer a).stored).store a (s.bytes ++ [0])
  have hp : p ≠ .null := by decide
  have hslot : p.add 0 ≠ .null := by decide
  have hholds : m.addressAt (p.add 0) = a := by decide
  have ha : a ≠ .null := by decide
  have hload : m.load a (s.bytes.length + 1) = s.bytes ++ [0] := by decide
  have hslot' : p.add 8 ≠ .null := by decide
  have hnull : m.addressAt (p.add 8) = .null := by decide
  have hbad : ¬ s.bytes.toByteArray.IsValidUTF8 := by
    rw [← Text.Utf8.encode_decodeLossy_eq_iff]
    decide
  obtain ⟨read, hread, heq, -, hshown⟩ :=
    (string_readers_agree m p 0 hp).1 a s hslot hholds ha hload
  exact ⟨m, p, a, s, rfl, hp, hslot, hholds, ha, hload, hslot', hnull,
    ⟨read, hread, fun h => hbad (heq.1 h), hshown⟩,
    (string_readers_agree m p 8 hp).2.1 hslot' hnull⟩

end Memory

end NativeGate
