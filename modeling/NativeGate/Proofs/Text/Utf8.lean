import Mathlib.Data.List.Basic
import NativeGate.Value

/-!
Characters through bytes. The bytes of a character are scanned as one piece, that character,
whatever follows (`pieces_encodeChar`), so a text is what its own bytes decode to
(`decodeLossy_encode`), and no other bytes are well-formed (`decode?_eq_some_iff`). A piece that is
ill-formed takes some of the bytes and leaves the scan as if it began behind them, so every
character of a text that was mended stands among the bytes (`encodeChar_within`). A text takes as
many bytes as its size says (`length_utf8`), and a zero byte comes from the zero character alone
(`zero_mem_utf8_iff`).
-/

namespace NativeGate.Text

namespace Utf8

theorem toNat_byte {n : Nat} (h : n < 256) : (UInt8.ofNat n).toNat = n :=
  UInt8.toNat_ofNat_of_lt' h

/-! ### Scanning -/

theorem pieces_ends {b : UInt8} {piece : Option Char} (h : lead b = .ends piece)
    (rest : List UInt8) : pieces none (b :: rest) = piece :: pieces none rest := by
  simp only [pieces, h]

theorem pieces_begins {b : UInt8} {p : Pending} (h : lead b = .begins p) (rest : List UInt8) :
    pieces none (b :: rest) = pieces (some p) rest := by
  simp only [pieces, h]

/-- The last byte of a character gives its low six bits. -/
theorem pieces_last {value low high r : Nat} (hr : r < 64) (hlow : low ≤ 0x80 + r)
    (hhigh : 0x80 + r ≤ high) (rest : List UInt8) :
    pieces (some ⟨value, 0, low, high⟩) (UInt8.ofNat (0x80 + r) :: rest) =
      some (Char.ofNat (value * 64 + r)) :: pieces none rest := by
  have hb : (UInt8.ofNat (0x80 + r)).toNat = 0x80 + r := toNat_byte (by omega)
  rw [pieces, hb, if_pos ⟨hlow, hhigh⟩, Nat.add_sub_cancel_left]

/-- A byte in the middle of a character gives six bits more. -/
theorem pieces_more {value more low high r : Nat} (hr : r < 64) (hlow : low ≤ 0x80 + r)
    (hhigh : 0x80 + r ≤ high) (rest : List UInt8) :
    pieces (some ⟨value, more + 1, low, high⟩) (UInt8.ofNat (0x80 + r) :: rest) =
      pieces (some ⟨value * 64 + r, more, 0x80, 0xBF⟩) rest := by
  have hb : (UInt8.ofNat (0x80 + r)).toNat = 0x80 + r := toNat_byte (by omega)
  rw [pieces, hb, if_pos ⟨hlow, hhigh⟩, Nat.add_sub_cancel_left]

theorem lead_two {r : Nat} (hlow : 2 ≤ r) (hhigh : r < 32) :
    lead (UInt8.ofNat (0xC0 + r)) = .begins ⟨r, 0, 0x80, 0xBF⟩ := by
  have hb : (UInt8.ofNat (0xC0 + r)).toNat = 0xC0 + r := toNat_byte (by omega)
  simp only [lead, hb]
  rw [if_neg (by omega), if_neg (by omega), if_pos (by omega), Nat.add_sub_cancel_left]

theorem lead_three {r : Nat} (h : r < 16) :
    lead (UInt8.ofNat (0xE0 + r)) =
      .begins ⟨r, 1, if r = 0 then 0xA0 else 0x80, if r = 13 then 0x9F else 0xBF⟩ := by
  have hb : (UInt8.ofNat (0xE0 + r)).toNat = 0xE0 + r := toNat_byte (by omega)
  have hfirst : 0xE0 + r = 0xE0 ↔ r = 0 := by omega
  have hlast : 0xE0 + r = 0xED ↔ r = 13 := by omega
  simp only [lead, hb, hfirst, hlast]
  rw [if_neg (by omega), if_neg (by omega), if_neg (by omega), if_pos (by omega),
    Nat.add_sub_cancel_left]

theorem lead_four {r : Nat} (h : r < 5) :
    lead (UInt8.ofNat (0xF0 + r)) =
      .begins ⟨r, 2, if r = 0 then 0x90 else 0x80, if r = 4 then 0x8F else 0xBF⟩ := by
  have hb : (UInt8.ofNat (0xF0 + r)).toNat = 0xF0 + r := toNat_byte (by omega)
  have hfirst : 0xF0 + r = 0xF0 ↔ r = 0 := by omega
  have hlast : 0xF0 + r = 0xF4 ↔ r = 4 := by omega
  simp only [lead, hb, hfirst, hlast]
  rw [if_neg (by omega), if_neg (by omega), if_neg (by omega), if_neg (by omega),
    if_pos (by omega), Nat.add_sub_cancel_left]

/-- The bytes of a character are scanned as that character, whatever follows. The ranges of the
    second byte hold for it, as a character is neither a surrogate nor past the last code point. -/
theorem pieces_encodeChar (c : Char) (rest : List UInt8) :
    pieces none (encodeChar c ++ rest) = some c :: pieces none rest := by
  have hvalid : c.toNat < 0xD800 ∨ 0xDFFF < c.toNat ∧ c.toNat < 0x110000 := c.valid
  have hback : Char.ofNat c.toNat = c := Char.ofNat_toNat c
  generalize hn : c.toNat = n at hvalid hback
  simp only [encodeChar, hn]
  split
  · rename_i h1
    have hb : (UInt8.ofNat n).toNat = n := toNat_byte (by omega)
    have hlead : lead (UInt8.ofNat n) = .ends (some c) := by
      simp only [lead, hb, if_pos h1, hback]
    exact pieces_ends hlead rest
  split
  · rename_i h1 h2
    have hsum : n / 64 * 64 + n % 64 = n := by omega
    simp only [List.cons_append, List.nil_append]
    rw [pieces_begins (lead_two (by omega) (by omega)),
      pieces_last (by omega) (by omega) (by omega), hsum, hback]
  split
  · rename_i h1 h2 h3
    have hsum : (n / 4096 * 64 + n / 64 % 64) * 64 + n % 64 = n := by omega
    simp only [List.cons_append, List.nil_append]
    rw [pieces_begins (lead_three (by omega)),
      pieces_more (by omega) (by split <;> omega) (by split <;> omega),
      pieces_last (by omega) (by omega) (by omega), hsum, hback]
  · rename_i h1 h2 h3
    have hsum : ((n / 262144 * 64 + n / 4096 % 64) * 64 + n / 64 % 64) * 64 + n % 64 = n := by
      omega
    simp only [List.cons_append, List.nil_append]
    rw [pieces_begins (lead_four (by omega)),
      pieces_more (by omega) (by split <;> omega) (by split <;> omega),
      pieces_more (by omega) (by omega) (by omega),
      pieces_last (by omega) (by omega) (by omega), hsum, hback]

theorem pieces_encode (cs : List Char) : pieces none (encode cs) = cs.map some := by
  induction cs with
  | nil => rfl
  | cons c cs ih =>
    rw [encode, List.flatMap_cons, pieces_encodeChar, ← encode, ih, List.map_cons]

/-- A text is what its bytes decode to; nothing in them is replaced. -/
theorem decodeLossy_encode (cs : List Char) : decodeLossy (encode cs) = cs := by
  rw [decodeLossy, pieces_encode, List.map_map]
  exact List.map_id cs

/-! ### Well-formed bytes -/

/-- Where one byte more makes a character, that byte is in the range. -/
theorem exists_of_pieces_last {value low high : Nat} {bytes : List UInt8} {c : Char}
    {ps : List (Option Char)} (h : pieces (some ⟨value, 0, low, high⟩) bytes = some c :: ps) :
    ∃ b rest, bytes = b :: rest ∧ low ≤ b.toNat ∧ b.toNat ≤ high ∧
      c = Char.ofNat (value * 64 + (b.toNat - 0x80)) ∧ pieces none rest = ps := by
  cases bytes with
  | nil => simp [pieces] at h
  | cons b rest =>
    rw [pieces] at h
    split at h
    · rename_i hb
      simp only [List.cons.injEq, Option.some.injEq] at h
      exact ⟨b, rest, rfl, hb.1, hb.2, h.1.symm, h.2⟩
    · split at h <;> cases h

theorem exists_of_pieces_more {value more low high : Nat} {bytes : List UInt8} {c : Char}
    {ps : List (Option Char)}
    (h : pieces (some ⟨value, more + 1, low, high⟩) bytes = some c :: ps) :
    ∃ b rest, bytes = b :: rest ∧ low ≤ b.toNat ∧ b.toNat ≤ high ∧
      pieces (some ⟨value * 64 + (b.toNat - 0x80), more, 0x80, 0xBF⟩) rest = some c :: ps := by
  cases bytes with
  | nil => simp [pieces] at h
  | cons b rest =>
    rw [pieces] at h
    split at h
    · rename_i hb
      exact ⟨b, rest, rfl, hb.1, hb.2, h⟩
    · split at h <;> cases h

theorem toNat_ofNat {n : Nat} (h : n < 0xD800 ∨ 0xDFFF < n ∧ n < 0x110000) :
    (Char.ofNat n).toNat = n := by
  rw [Char.ofNat, dif_pos h]
  rfl

theorem byte_eq {b : UInt8} {n : Nat} (h : n = b.toNat) : UInt8.ofNat n = b := by
  rw [h, UInt8.ofNat_toNat]

/-- A piece that is a character is made of the bytes of that character. The ranges of the second
    byte keep the number that the bytes give among the characters, and out of the numbers that
    fewer bytes give. -/
theorem exists_of_pieces {bytes : List UInt8} {c : Char} {ps : List (Option Char)}
    (h : pieces none bytes = some c :: ps) :
    ∃ rest, bytes = encodeChar c ++ rest ∧ pieces none rest = ps := by
  cases bytes with
  | nil => cases h
  | cons b rest =>
    have hbyte := b.toNat_lt
    simp only [pieces, lead] at h
    by_cases h1 : b.toNat < 0x80
    · simp only [h1, if_true, List.cons.injEq, Option.some.injEq] at h
      obtain ⟨rfl, h⟩ := h
      refine ⟨rest, ?_, h⟩
      rw [encodeChar, toNat_ofNat (by omega), if_pos h1, UInt8.ofNat_toNat]
      rfl
    by_cases h2 : b.toNat < 0xC2
    · simp only [h1, h2, if_true, if_false] at h
      cases h
    by_cases h3 : b.toNat < 0xE0
    · simp only [h1, h2, h3, if_true, if_false] at h
      obtain ⟨b₁, rest, rfl, hlow, hhigh, hc, h⟩ := exists_of_pieces_last h
      refine ⟨rest, ?_, h⟩
      rw [hc, encodeChar, toNat_ofNat (by omega), if_neg (by omega), if_pos (by omega),
        byte_eq (b := b) (by omega), byte_eq (b := b₁) (by omega)]
      rfl
    by_cases h4 : b.toNat < 0xF0
    · simp only [h1, h2, h3, h4, if_true, if_false] at h
      obtain ⟨b₁, rest, rfl, hlow, hhigh, h⟩ := exists_of_pieces_more h
      obtain ⟨b₂, rest, rfl, hlow₂, hhigh₂, hc, h⟩ := exists_of_pieces_last h
      have hlow : 0x80 ≤ b₁.toNat ∧ (b.toNat = 0xE0 → 0xA0 ≤ b₁.toNat) := by
        split at hlow <;> omega
      have hhigh : b₁.toNat ≤ 0xBF ∧ (b.toNat = 0xED → b₁.toNat ≤ 0x9F) := by
        split at hhigh <;> omega
      refine ⟨rest, ?_, h⟩
      rw [hc, encodeChar, toNat_ofNat (by omega), if_neg (by omega), if_neg (by omega),
        if_pos (by omega), byte_eq (b := b) (by omega), byte_eq (b := b₁) (by omega),
        byte_eq (b := b₂) (by omega)]
      rfl
    by_cases h5 : b.toNat < 0xF5
    · simp only [h1, h2, h3, h4, h5, if_true, if_false] at h
      obtain ⟨b₁, rest, rfl, hlow, hhigh, h⟩ := exists_of_pieces_more h
      obtain ⟨b₂, rest, rfl, hlow₂, hhigh₂, h⟩ := exists_of_pieces_more h
      obtain ⟨b₃, rest, rfl, hlow₃, hhigh₃, hc, h⟩ := exists_of_pieces_last h
      have hlow : 0x80 ≤ b₁.toNat ∧ (b.toNat = 0xF0 → 0x90 ≤ b₁.toNat) := by
        split at hlow <;> omega
      have hhigh : b₁.toNat ≤ 0xBF ∧ (b.toNat = 0xF4 → b₁.toNat ≤ 0x8F) := by
        split at hhigh <;> omega
      refine ⟨rest, ?_, h⟩
      rw [hc, encodeChar, toNat_ofNat (by omega), if_neg (by omega), if_neg (by omega),
        if_neg (by omega), byte_eq (b := b) (by omega), byte_eq (b := b₁) (by omega),
        byte_eq (b := b₂) (by omega), byte_eq (b := b₃) (by omega)]
      rfl
    · simp only [h1, h2, h3, h4, h5, if_false] at h
      cases h

theorem pieces_pending_ne_nil (p : Pending) (bytes : List UInt8) : pieces (some p) bytes ≠ [] := by
  induction bytes generalizing p with
  | nil => simp [pieces]
  | cons b rest ih =>
    rw [pieces]
    split
    · dsimp only
      split
      · simp
      · exact ih _
    · split <;> simp

theorem pieces_eq_nil {bytes : List UInt8} (h : pieces none bytes = []) : bytes = [] := by
  cases bytes with
  | nil => rfl
  | cons b rest =>
    rw [pieces] at h
    split at h
    · cases h
    · exact absurd h (pieces_pending_ne_nil _ rest)

/-- Bytes that are scanned as characters only are the bytes of these characters. -/
theorem encode_of_pieces {bytes : List UInt8} {cs : List Char}
    (h : pieces none bytes = cs.map some) : encode cs = bytes := by
  induction cs generalizing bytes with
  | nil => rw [pieces_eq_nil h]; rfl
  | cons c cs ih =>
    obtain ⟨rest, rfl, hrest⟩ := exists_of_pieces h
    rw [encode, List.flatMap_cons, ← encode, ih hrest]

theorem mapM_id_eq_some_iff {ps : List (Option Char)} {cs : List Char} :
    ps.mapM id = some cs ↔ ps = cs.map some := by
  induction ps generalizing cs with
  | nil => cases cs <;> simp
  | cons p ps ih => cases cs <;> cases p <;> simp [Option.bind_eq_some_iff, ih, and_left_comm]

/-- The well-formed byte strings are those that characters are written in, and decode to these. -/
theorem decode?_eq_some_iff {bytes : List UInt8} {cs : List Char} :
    decode? bytes = some cs ↔ bytes = encode cs := by
  rw [decode?, mapM_id_eq_some_iff]
  constructor
  · exact fun h => (encode_of_pieces h).symm
  · rintro rfl
    exact pieces_encode cs

/-! ### Sizes and zero bytes -/

/-- The bytes of a character are those that texts keep it in. -/
theorem encodeChar_eq (c : Char) : encodeChar c = String.utf8EncodeChar c := by
  have hvalid : c.toNat < 0xD800 ∨ 0xDFFF < c.toNat ∧ c.toNat < 0x110000 := c.valid
  have hval : c.val.toNat = c.toNat := rfl
  simp only [encodeChar, String.utf8EncodeChar, hval]
  generalize c.toNat = n at hvalid
  split
  · rw [if_pos (by omega)]
  split
  · rw [if_neg (by omega), if_pos (by omega), Nat.add_comm 0x80,
      show 0xC0 + n / 64 = n / 64 % 32 + 192 by omega]
  split
  · rw [if_neg (by omega), if_neg (by omega), if_pos (by omega), Nat.add_comm 0x80,
      Nat.add_comm 0x80, show 0xE0 + n / 4096 = n / 4096 % 16 + 224 by omega]
  · rw [if_neg (by omega), if_neg (by omega), if_neg (by omega), Nat.add_comm 0x80,
      Nat.add_comm 0x80, Nat.add_comm 0x80,
      show 0xF0 + n / 262144 = n / 262144 % 8 + 240 by omega]

theorem utf8Encode_eq (cs : List Char) : cs.utf8Encode = (encode cs).toByteArray := by
  rw [List.utf8Encode, encode, funext encodeChar_eq]

/-- A zero byte is a character of its own. -/
theorem zero_mem_encodeChar_iff (c : Char) : (0 : UInt8) ∈ encodeChar c ↔ c = '\x00' := by
  have hback : Char.ofNat c.toNat = c := Char.ofNat_toNat c
  have hzero {n : Nat} (h : n < 256) : (0 : UInt8) = UInt8.ofNat n ↔ n = 0 := by
    rw [← UInt8.toNat_inj, toNat_byte h]
    exact eq_comm
  have hvalid : c.toNat < 0xD800 ∨ 0xDFFF < c.toNat ∧ c.toNat < 0x110000 := c.valid
  have hc : c = '\x00' ↔ c.toNat = 0 := by
    rw [← Char.toNat_inj]
    rfl
  rw [hc]
  simp only [encodeChar]
  generalize c.toNat = n at hvalid
  split
  · simp only [List.mem_singleton]
    exact hzero (by omega)
  split
  · simp only [List.mem_cons, List.not_mem_nil, or_false]
    rw [hzero (by omega), hzero (by omega)]
    omega
  split
  · simp only [List.mem_cons, List.not_mem_nil, or_false]
    rw [hzero (by omega), hzero (by omega), hzero (by omega)]
    omega
  · simp only [List.mem_cons, List.not_mem_nil, or_false]
    rw [hzero (by omega), hzero (by omega), hzero (by omega), hzero (by omega)]
    omega

end Utf8

/-- The bytes of a text are those that it is kept in. -/
theorem toByteArray_utf8 (text : String) : (utf8 text).toByteArray = text.toByteArray := by
  rw [utf8, ← Utf8.utf8Encode_eq, String.utf8Encode_toList]

theorem length_utf8 (text : String) : (utf8 text).length = text.utf8ByteSize := by
  rw [← String.size_toByteArray, ← toByteArray_utf8, List.size_toByteArray]

theorem zero_mem_utf8_iff (text : String) : (0 : UInt8) ∈ utf8 text ↔ '\x00' ∈ text.toList := by
  simp [utf8, Utf8.encode, Utf8.zero_mem_encodeChar_iff]

/-! ### Ill-formed bytes -/

namespace Utf8

/-- A byte that does not go on with a character ends an ill-formed piece, and a character may begin
    with it. -/
theorem pieces_broken {p : Pending} {b : UInt8} (h : ¬(p.low ≤ b.toNat ∧ b.toNat ≤ p.high))
    (rest : List UInt8) : pieces (some p) (b :: rest) = none :: pieces none (b :: rest) := by
  simp only [pieces, if_neg h]
  cases lead b <;> rfl

/-- An ill-formed piece takes some of the bytes, and the others are scanned as if they stood
    alone. -/
theorem exists_of_pieces_broken {p : Pending} {bytes : List UInt8} {ps : List (Option Char)}
    (h : pieces (some p) bytes = none :: ps) :
    ∃ bad rest, bytes = bad ++ rest ∧ pieces none rest = ps := by
  induction bytes generalizing p with
  | nil =>
    cases h
    exact ⟨[], [], rfl, rfl⟩
  | cons b rest ih =>
    by_cases hb : p.low ≤ b.toNat ∧ b.toNat ≤ p.high
    · rw [pieces, if_pos hb] at h
      dsimp only at h
      split at h
      · cases h
      · obtain ⟨bad, rest, rfl, hrest⟩ := ih h
        exact ⟨b :: bad, rest, rfl, hrest⟩
    · rw [pieces_broken hb] at h
      exact ⟨[], b :: rest, rfl, (List.cons.inj h).2⟩

theorem exists_of_pieces_none {bytes : List UInt8} {ps : List (Option Char)}
    (h : pieces none bytes = none :: ps) :
    ∃ bad rest, bytes = bad ++ rest ∧ pieces none rest = ps := by
  cases bytes with
  | nil => cases h
  | cons b rest =>
    rw [pieces] at h
    split at h
    · cases h
      exact ⟨[b], rest, rfl, rfl⟩
    · obtain ⟨bad, rest, rfl, hrest⟩ := exists_of_pieces_broken h
      exact ⟨b :: bad, rest, rfl, hrest⟩

/-- The bytes of every character that is scanned stand together among the bytes. -/
theorem encodeChar_within {bytes : List UInt8} {c : Char} (h : some c ∈ pieces none bytes) :
    encodeChar c <:+: bytes := by
  generalize hps : pieces none bytes = ps at h
  induction ps generalizing bytes with
  | nil => cases h
  | cons piece ps ih =>
    cases piece with
    | none =>
      obtain ⟨bad, rest, rfl, hrest⟩ := exists_of_pieces_none hps
      have hlater : some c ∈ ps := (List.mem_cons.1 h).resolve_left nofun
      exact (ih hrest hlater).trans (List.suffix_append bad rest).isInfix
    | some c' =>
      obtain ⟨rest, rfl, hrest⟩ := exists_of_pieces hps
      rcases List.mem_cons.1 h with hfirst | hlater
      · cases hfirst
        exact (List.prefix_append (encodeChar c) rest).isInfix
      · exact (ih hrest hlater).trans (List.suffix_append (encodeChar c') rest).isInfix

/-- The replacement character is no zero character, so mending brings in none. -/
theorem zero_mem_of_decodeLossy {bytes : List UInt8} (h : '\x00' ∈ decodeLossy bytes) :
    (0 : UInt8) ∈ bytes := by
  obtain ⟨piece, hmem, hpiece⟩ := List.mem_map.1 h
  cases piece with
  | none => exact absurd hpiece (by decide)
  | some c =>
    obtain rfl : c = '\x00' := hpiece
    exact (encodeChar_within hmem).subset ((zero_mem_encodeChar_iff _).2 rfl)

/-- Bytes are those of the text that they decode to just when they are well-formed. -/
theorem encode_decodeLossy_eq_iff {bytes : List UInt8} :
    encode (decodeLossy bytes) = bytes ↔ bytes.toByteArray.IsValidUTF8 := by
  constructor
  · intro h
    exact .intro (decodeLossy bytes) (by rw [utf8Encode_eq, h])
  · rintro ⟨cs, h⟩
    rw [utf8Encode_eq, List.toByteArray_inj] at h
    rw [h, decodeLossy_encode]

end Utf8

end NativeGate.Text

/-! ### Strings that are texts -/

namespace NativeGate

/-- A string is the text whose bytes it has. -/
theorem CString.text?_eq_some_iff {s : CString} {text : String} :
    s.text? = some text ↔ s.bytes = Text.utf8 text := by
  rw [text?, Option.map_eq_some_iff]
  constructor
  · rintro ⟨cs, hcs, rfl⟩
    rw [Text.Utf8.decode?_eq_some_iff.1 hcs, Text.utf8, String.toList_ofList]
  · intro h
    exact ⟨text.toList, Text.Utf8.decode?_eq_some_iff.2 h, String.ofList_toList⟩

namespace Value
variable {v : Value} {text : String}

theorem text?_eq_some_iff :
    v.text? = some text ↔ ∃ s : CString, v = .string s ∧ s.bytes = Text.utf8 text := by
  cases v with
  | string s => simp [text?, CString.text?_eq_some_iff]
  | _ => simp [text?]

/-- The text of a value has no zero character, as a string has no zero byte. -/
theorem noNul_text (h : v.text? = some text) : '\x00' ∉ text.toList := by
  obtain ⟨s, -, hs⟩ := text?_eq_some_iff.1 h
  exact fun hz => s.noNul (hs ▸ (Text.zero_mem_utf8_iff text).2 hz)

/-- The text of a value as a value is that value. -/
theorem ofText_eq (h : v.text? = some text) : ofText text = .ok v := by
  obtain ⟨s, rfl, hs⟩ := text?_eq_some_iff.1 h
  have hof : CString.of? (Text.utf8 text) = some s := by
    rw [CString.of?, dif_neg (hs ▸ s.noNul)]
    cases s
    simpa using hs.symm
  rw [ofText, hof]

end Value

end NativeGate
