import NativeGate.Proofs.Library.Pattern

/-!
Patterns that are printed and read again. A byte is printed as two digits, so the printed text
without its blanks is pairs of digits for the bytes (`spells_text`). Blanks that are put in
(`Spread`) are deleted with those that were printed, wherever they stand, and leave the pairs as
they were. From two bytes on the text has a space in it and is a pattern, and it is read as the
bytes that it was printed for (`printed_pattern_read_back`).
-/

namespace NativeGate.Pattern
open Text

/-! ### Digits of a byte -/

/-- Two places are enough for the digits of a number below the square of the base. -/
theorem toList_padded_two {b n : Nat} (hb : 1 < b) (h : n < b * b) :
    (padded b 2 n).toList = [(n / b).digitChar, (n % b).digitChar] := by
  rw [padded, String.toList_ofList]
  by_cases hn : n < b
  · rw [Nat.toDigits_of_lt_base hn, Nat.div_eq_of_lt hn, Nat.mod_eq_of_lt hn]
    rfl
  · have hdiv : n / b < b := Nat.div_lt_of_lt_mul h
    rw [Nat.toDigits_of_base_le hb (Nat.le_of_not_lt hn), Nat.toDigits_of_lt_base hdiv]
    rfl

theorem toList_hexByte (x : UInt8) :
    (hexByte x).toList = [(x.toNat / 16).digitChar.toUpper, (x.toNat % 16).digitChar.toUpper] := by
  rw [hexByte, String.toUpper, String.toList_map, toList_padded_two (by decide) x.toNat_lt]
  rfl

/-- A byte is printed as its pair of digits. -/
theorem exists_hexPair (x : UInt8) : ∃ a b, (hexByte x).toList = [a, b] ∧ HexPair a b x := by
  have hx := x.toNat_lt
  have hpair : HexPair (x.toNat / 16).digitChar.toUpper (x.toNat % 16).digitChar.toUpper
      (.ofNat (16 * (x.toNat / 16) + x.toNat % 16)) :=
    .intro (by omega) (.inr rfl) (by omega) (.inr rfl)
  rw [Nat.div_add_mod, UInt8.ofNat_toNat] at hpair
  exact ⟨_, _, toList_hexByte x, hpair⟩

theorem HexPair.isDigit {a b : Char} {x : UInt8} (h : HexPair a b x) : IsDigit a ∧ IsDigit b := by
  cases h with
  | intro hd ha he hb => exact ⟨⟨_, hd, ha⟩, _, he, hb⟩

theorem isBlank_of_isDigit {c : Char} (h : IsDigit c) : isBlank c = false := by
  have hlower : ∀ d < 16, isBlank d.digitChar = false := by decide
  have hupper : ∀ d < 16, isBlank d.digitChar.toUpper = false := by decide
  obtain ⟨d, hd, rfl | rfl⟩ := h
  · exact hlower d hd
  · exact hupper d hd

/-! ### Printed patterns -/

section
variable {bytes : List UInt8}

theorem text_singleton (x : UInt8) : text [x] = hexByte x := by
  rw [text, hexPairs, List.map_singleton, String.intercalate_singleton]

theorem toList_text_cons_cons (x y : UInt8) (rest : List UInt8) :
    (text (x :: y :: rest)).toList = (hexByte x).toList ++ ' ' :: (text (y :: rest)).toList := by
  rw [text, hexPairs, List.map_cons, List.map_cons, String.intercalate_cons_cons,
    String.toList_append, String.toList_append, List.append_assoc]
  rfl

theorem filter_hexByte (x : UInt8) :
    ((hexByte x).toList.filter fun c => !isBlank c) = (hexByte x).toList := by
  obtain ⟨a, b, hx, hpair⟩ := exists_hexPair x
  have ha := isBlank_of_isDigit hpair.isDigit.1
  have hb := isBlank_of_isDigit hpair.isDigit.2
  simp [hx, ha, hb]

theorem unblanked_text_singleton (x : UInt8) : unblanked (text [x]) = (hexByte x).toList := by
  rw [unblanked, text_singleton, filter_hexByte]

theorem unblanked_text_cons_cons (x y : UInt8) (rest : List UInt8) :
    unblanked (text (x :: y :: rest)) = (hexByte x).toList ++ unblanked (text (y :: rest)) := by
  rw [unblanked, toList_text_cons_cons, List.filter_append, filter_hexByte]
  rfl

/-- The printed text without its blanks is the pairs of digits of the bytes. -/
theorem spells_text : ∀ bytes : List UInt8, Spells HexPair (unblanked (text bytes)) bytes
  | [] => .nil
  | [x] => by
    obtain ⟨a, b, hx, hpair⟩ := exists_hexPair x
    rw [unblanked_text_singleton, hx]
    exact .pair hpair .nil
  | x :: y :: rest => by
    obtain ⟨a, b, hx, hpair⟩ := exists_hexPair x
    rw [unblanked_text_cons_cons, hx]
    exact .pair hpair (spells_text (y :: rest))

/-- One byte is printed without a space, and so is none. -/
theorem space_mem_text_iff : ' ' ∈ (text bytes).toList ↔ 2 ≤ bytes.length := by
  match bytes with
  | [] => exact ⟨nofun, nofun⟩
  | [x] =>
    obtain ⟨a, b, hx, hpair⟩ := exists_hexPair x
    have hspace : ∀ c, IsDigit c → ' ' ≠ c := by
      rintro c hc rfl
      cases isBlank_of_isDigit hc
    simp [text_singleton, hx, hspace a hpair.isDigit.1, hspace b hpair.isDigit.2]
  | x :: y :: rest => simp [toList_text_cons_cons]

end

/-! ### Further blanks -/

/-- The second text is the first with further blanks put in anywhere, between the two digits of a
    pair as well. -/
inductive Spread : List Char → List Char → Prop
  | nil : Spread [] []
  | keep (c : Char) {cs ds : List Char} (h : Spread cs ds) : Spread (c :: cs) (c :: ds)
  | blank {c : Char} {cs ds : List Char} (hc : c ∈ [' ', '\t', '\n', '\x0c', '\r'])
      (h : Spread cs ds) : Spread cs (c :: ds)

section
variable {bytes : List UInt8} {cs ds : List Char} {identifier : String}

theorem Spread.refl : ∀ cs : List Char, Spread cs cs
  | [] => .nil
  | c :: cs => .keep c (.refl cs)

/-- Nothing that was there is taken away. -/
theorem Spread.subset (h : Spread cs ds) : cs ⊆ ds := by
  induction h with
  | nil => exact List.Subset.refl []
  | keep c _ ih => exact List.cons_subset_cons c ih
  | blank _ _ ih => exact List.subset_cons_of_subset _ ih

/-- The blanks that were put in are deleted again. -/
theorem Spread.filter_eq (h : Spread cs ds) :
    ds.filter (fun c => !isBlank c) = cs.filter fun c => !isBlank c := by
  have hblank : ∀ c ∈ [' ', '\t', '\n', '\x0c', '\r'], isBlank c = true := by simp [isBlank]
  induction h with
  | nil => rfl
  | keep c _ ih => rw [List.filter_cons, List.filter_cons, ih]
  | blank hc _ ih => rw [List.filter_cons, hblank _ hc, ih]; rfl

/-- However blanks are put into a printed text, it is read as the bytes once there is a space. -/
theorem parse_of_spread (hne : bytes ≠ [])
    (h : Spread (text bytes).toList identifier.toList) (hspace : ' ' ∈ identifier.toList) :
    parse identifier = .ok (some bytes) := by
  have hspells := spells_text bytes
  have hleft : unblanked identifier = unblanked (text bytes) := h.filter_eq
  rw [parse_eq_ok_some_iff hspace, hleft]
  refine ⟨fun hnil => ?_, hspells.mono fun _ _ _ _ => .inl⟩
  rw [hnil] at hspells
  cases hspells
  exact hne rfl

end

/-- A pattern is read back from its printed text just when it has two bytes or more; one byte is
    printed without a space, as a name would be. Further blanks, wherever they are put into the
    text, change nothing. -/
theorem printed_pattern_read_back (bytes : List UInt8) :
    (parse (text bytes) = .ok (some bytes) ↔ 2 ≤ bytes.length) ∧
    ∀ identifier : String, 2 ≤ bytes.length → Spread (text bytes).toList identifier.toList →
      parse identifier = .ok (some bytes) := by
  have hread : ∀ identifier : String, 2 ≤ bytes.length →
      Spread (text bytes).toList identifier.toList → parse identifier = .ok (some bytes) := by
    intro identifier hlen h
    have hne : bytes ≠ [] := List.ne_nil_of_length_pos (by omega)
    exact parse_of_spread hne h (h.subset (space_mem_text_iff.2 hlen))
  refine ⟨⟨fun h => ?_, fun hlen => hread _ hlen (.refl _)⟩, hread⟩
  by_contra hlen
  rw [parse_of_no_space fun hspace => hlen (space_mem_text_iff.1 hspace)] at h
  cases h

/-- Two bytes are read back, with a tab within the first pair and a line end behind the second. -/
theorem printed_pattern_read_back_spread :
    2 ≤ [0x0F, (0xA0 : UInt8)].length ∧
      Spread (text [0x0F, 0xA0]).toList "0\tF A0\n".toList ∧
      parse "0\tF A0\n" = .ok (some [0x0F, 0xA0]) := by
  have hlen : 2 ≤ [0x0F, (0xA0 : UInt8)].length := by decide
  have hspread : Spread (text [0x0F, 0xA0]).toList "0\tF A0\n".toList := by
    have htext : (text [0x0F, 0xA0]).toList = ['0', 'F', ' ', 'A', '0'] := by
      rw [toList_text_cons_cons, text_singleton, toList_hexByte, toList_hexByte]
      rfl
    rw [htext]
    exact .keep _ (.blank (by decide) (.keep _ (.keep _ (.keep _ (.keep _
      (.blank (by decide) .nil))))))
  exact ⟨hlen, hspread, (printed_pattern_read_back _).2 _ hlen hspread⟩

end NativeGate.Pattern
