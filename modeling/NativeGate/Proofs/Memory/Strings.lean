import NativeGate.Proofs.Memory.Typed
import NativeGate.Proofs.Outcome
import NativeGate.Proofs.Text.Utf8

/-!
Texts in memory. A text is written to an offset, or to the address in the slot there, when nothing
on the way is null, the room is known and the text fits into it with a terminator; every other
write is refused for the first of the reasons that apply (`setText_eq_ok_iff`,
`setText_eq_error_iff`). A write changes the bytes of the text and the terminator and no others, it
stays within the room, and the text is read back from it (`text_written_whole_or_refused`).
-/

namespace NativeGate

namespace Memory

/-! ### Where a text goes and how much room there is -/

/-- The address that is stored at `a`. -/
def addressAt (m : Memory) (a : Address) : Address := .ofNat (ofLittleEndian (m.load a 8))

/-- A text that is written through `p` goes to a place, the offset itself or what the slot at the
    offset points to; nothing on the way is null. -/
inductive Reaches (m : Memory) (p : Address) (offset : Int) : Bool → Address → Prop
  | inline (hp : p ≠ .null) : Reaches m p offset false (p.add offset)
  | slot (hp : p ≠ .null) (hs : p.add offset ≠ .null)
      (hd : m.addressAt (p.add offset) ≠ .null) :
      Reaches m p offset true (m.addressAt (p.add offset))

/-- The bytes that there is room for at a place: as many as are given, or else what the block that
    begins at the pointer has behind the offset, or the block that begins at the place. -/
inductive Room (m : Memory) (p dest : Address) (offset : Int) : Option Nat → Bool → Nat → Prop
  | given (n : Nat) (indirect : Bool) : Room m p dest offset (some n) indirect n
  | inline {n : Nat} (hblock : 0 < m.usable p) (ho : 0 ≤ offset)
      (hn : offset + n = m.usable p) : Room m p dest offset none false n
  | block (hblock : 0 < m.usable dest) : Room m p dest offset none true (m.usable dest)

/-- The writes of a text that are refused: through the null pointer or through a slot at the null
    address, through a slot that holds null, or else to a place with no known room, or else of a
    text with a zero character, or else of a text that does not fit. -/
inductive TextRefused (m : Memory) (p : Address) (text : String) (size : Option Nat) (offset : Int)
    (indirect : Bool) : Error → Prop
  | null (hp : p = .null ∨ indirect = true ∧ p.add offset = .null) :
      TextRefused m p text size offset indirect (.nullPointer .pointer)
  | slot (hp : p ≠ .null) (hi : indirect = true) (hs : p.add offset ≠ .null)
      (hd : m.addressAt (p.add offset) = .null) :
      TextRefused m p text size offset indirect (.nullPointer .stringSlot)
  | unknown {dest : Address} (hd : Reaches m p offset indirect dest)
      (hroom : ∀ n, ¬ Room m p dest offset size indirect n) :
      TextRefused m p text size offset indirect (.sizeUnavailable dest)
  | zero {dest : Address} {n : Nat} (hd : Reaches m p offset indirect dest)
      (hroom : Room m p dest offset size indirect n) (hz : '\x00' ∈ text.toList) :
      TextRefused m p text size offset indirect (.argumentType 0 .string .interiorNul)
  | overflow {dest : Address} {n : Nat} (hd : Reaches m p offset indirect dest)
      (hroom : Room m p dest offset size indirect n) (hz : '\x00' ∉ text.toList)
      (hn : n < text.utf8ByteSize + 1) :
      TextRefused m p text size offset indirect (.bufferOverflow text.utf8ByteSize n)

section Write
variable {m : Memory} {p dest : Address} {text : String} {size : Option Nat} {offset : Int}
  {indirect : Bool}

theorem getPointer_of_ne (h : p ≠ .null) :
    m.getPointer p offset = .ok (m.addressAt (p.add offset)) := by
  rw [getPointer, requireNonNull_of_ne h]
  rfl

/-- The room that is given or known. -/
def capacity (m : Memory) (p dest : Address) (offset : Int) (size : Option Nat) (indirect : Bool) :
    Except Error Nat :=
  match size with
  | some n => .ok n
  | none => if indirect then m.capacityOf dest dest 0 else m.capacityOf p dest offset

/-- Writes a text and a terminator to a place with room for `n` bytes. -/
def copyText (m : Memory) (dest : Address) (text : String) (n : Nat) : Except Error Memory :=
  if (0 : UInt8) ∈ Text.utf8 text then .error (.argumentType 0 .string .interiorNul)
  else if n < (Text.utf8 text).length + 1 then
    .error (.bufferOverflow (Text.utf8 text).length n)
  else .ok (m.store dest (Text.utf8 text ++ [0]))

/-- Once it is known where a text goes, a write is asking for the room and copying. -/
theorem setText_of_reaches (h : Reaches m p offset indirect dest) :
    m.setText p text size offset indirect =
      (m.capacity p dest offset size indirect).bind (m.copyText dest text) := by
  cases h with
  | inline hp =>
    rw [setText, requireNonNull_of_ne hp]
    cases size <;> rfl
  | slot hp hs hd =>
    rw [setText, requireNonNull_of_ne hp, getPointer_of_ne hs, Address.add_zero]
    have hd := requireNonNull_of_ne hd .stringSlot
    simp only [bind, Except.bind, if_true, hd]
    cases size <;> rfl

theorem setText_of_null (h : p = .null ∨ indirect = true ∧ p.add offset = .null) :
    m.setText p text size offset indirect = .error (.nullPointer .pointer) := by
  by_cases hp : p = .null
  · subst hp
    rfl
  · obtain ⟨rfl, hs⟩ := h.resolve_left hp
    rw [setText, requireNonNull_of_ne hp, hs]
    rfl

theorem setText_of_null_slot (hp : p ≠ .null) (hs : p.add offset ≠ .null)
    (hd : m.addressAt (p.add offset) = .null) :
    m.setText p text size offset true = .error (.nullPointer .stringSlot) := by
  rw [setText, requireNonNull_of_ne hp, getPointer_of_ne hs, Address.add_zero, hd]
  rfl

/-- A text has a place to go to, or something on the way is null. -/
theorem reaches_or_null (m : Memory) (p : Address) (offset : Int) (indirect : Bool) :
    (∃ dest, Reaches m p offset indirect dest) ∨
    (p = .null ∨ indirect = true ∧ p.add offset = .null) ∨
    p ≠ .null ∧ indirect = true ∧ p.add offset ≠ .null ∧
      m.addressAt (p.add offset) = .null := by
  by_cases hp : p = .null
  · exact .inr (.inl (.inl hp))
  cases indirect with
  | false => exact .inl ⟨_, .inline hp⟩
  | true =>
    by_cases hs : p.add offset = .null
    · exact .inr (.inl (.inr ⟨rfl, hs⟩))
    by_cases hd : m.addressAt (p.add offset) = .null
    · exact .inr (.inr ⟨hp, rfl, hs, hd⟩)
    · exact .inl ⟨_, .slot hp hs hd⟩

theorem capacity_eq_ok_iff {n : Nat} :
    m.capacity p dest offset size indirect = .ok n ↔ Room m p dest offset size indirect n := by
  cases size with
  | some k =>
    simp only [capacity, Except.ok.injEq]
    constructor
    · rintro rfl
      exact .given k indirect
    · rintro ⟨⟩
      rfl
  | none =>
    cases indirect with
    | false =>
      simp only [capacity, Bool.false_eq_true, if_false, capacityOf]
      constructor
      · intro h
        split at h
        · rename_i hc
          cases h
          exact .inline hc.1 hc.2.1 (by omega)
        · cases h
      · rintro (_ | ⟨hblock, ho, hn⟩)
        rw [if_pos (by omega), Except.ok.injEq]
        omega
    | true =>
      simp only [capacity, if_true, capacityOf]
      constructor
      · intro h
        split at h
        · rename_i hc
          cases h
          simpa using Room.block hc.1
        · cases h
      · rintro (_ | _ | hblock)
        rw [if_pos (by omega)]
        simp

theorem capacity_eq_error {e : Error}
    (h : m.capacity p dest offset size indirect = .error e) : e = .sizeUnavailable dest := by
  cases size with
  | some k => cases h
  | none =>
    cases indirect <;>
    · simp only [capacity, capacityOf, Bool.false_eq_true, if_false, if_true] at h
      split at h <;> cases h
      rfl

theorem copyText_eq_ok_iff {n : Nat} {m' : Memory} :
    m.copyText dest text n = .ok m' ↔ '\x00' ∉ text.toList ∧ text.utf8ByteSize + 1 ≤ n ∧
      m' = m.store dest (Text.utf8 text ++ [0]) := by
  rw [copyText, Text.length_utf8]
  by_cases hz : '\x00' ∈ text.toList
  · simp [Text.zero_mem_utf8_iff, hz]
  by_cases hn : n < text.utf8ByteSize + 1
  · simp only [Text.zero_mem_utf8_iff, hz, hn, if_false, if_true]
    simp only [reduceCtorEq, false_iff, not_and]
    omega
  · simp only [Text.zero_mem_utf8_iff, hz, hn, if_false, Except.ok.injEq]
    simp [Nat.le_of_not_lt hn, eq_comm]

theorem copyText_eq_error_iff {n : Nat} {e : Error} :
    m.copyText dest text n = .error e ↔
      '\x00' ∈ text.toList ∧ e = .argumentType 0 .string .interiorNul ∨
      '\x00' ∉ text.toList ∧ n < text.utf8ByteSize + 1 ∧
        e = .bufferOverflow text.utf8ByteSize n := by
  rw [copyText, Text.length_utf8]
  by_cases hz : '\x00' ∈ text.toList
  · simp [Text.zero_mem_utf8_iff, hz, eq_comm]
  by_cases hn : n < text.utf8ByteSize + 1
  · simp [Text.zero_mem_utf8_iff, hz, hn, eq_comm]
  · simp [Text.zero_mem_utf8_iff, hz, hn]

/-- Which writes of a text are carried out, and what they leave. -/
theorem setText_eq_ok_iff {m' : Memory} :
    m.setText p text size offset indirect = .ok m' ↔
      ∃ dest n, Reaches m p offset indirect dest ∧ Room m p dest offset size indirect n ∧
        '\x00' ∉ text.toList ∧ text.utf8ByteSize + 1 ≤ n ∧
        m' = m.store dest (Text.utf8 text ++ [0]) := by
  constructor
  · intro h
    rcases reaches_or_null m p offset indirect with ⟨dest, hd⟩ | hnull | ⟨hp, rfl, hs, hd⟩
    · rw [setText_of_reaches hd] at h
      obtain ⟨n, hc, h⟩ := Except.bind_eq_ok_iff.1 h
      exact ⟨dest, n, hd, capacity_eq_ok_iff.1 hc, copyText_eq_ok_iff.1 h⟩
    · rw [setText_of_null hnull] at h
      cases h
    · rw [setText_of_null_slot hp hs hd] at h
      cases h
  · rintro ⟨dest, n, hd, hroom, h⟩
    rw [setText_of_reaches hd, capacity_eq_ok_iff.2 hroom]
    exact copyText_eq_ok_iff.2 h

/-- Which writes of a text are refused, and for what reason. -/
theorem setText_eq_error_iff {e : Error} :
    m.setText p text size offset indirect = .error e ↔
      TextRefused m p text size offset indirect e := by
  constructor
  · intro h
    rcases reaches_or_null m p offset indirect with ⟨dest, hd⟩ | hnull | ⟨hp, rfl, hs, hd⟩
    · rw [setText_of_reaches hd] at h
      rcases Except.bind_eq_error_iff.1 h with hc | ⟨n, hc, h⟩
      · obtain rfl := capacity_eq_error hc
        refine .unknown hd fun n hn => ?_
        rw [capacity_eq_ok_iff.2 hn] at hc
        cases hc
      · have hroom := capacity_eq_ok_iff.1 hc
        rcases copyText_eq_error_iff.1 h with ⟨hz, rfl⟩ | ⟨hz, hn, rfl⟩
        · exact .zero hd hroom hz
        · exact .overflow hd hroom hz hn
    · rw [setText_of_null hnull] at h
      cases h
      exact .null hnull
    · rw [setText_of_null_slot hp hs hd] at h
      cases h
      exact .slot hp rfl hs hd
  · intro h
    cases h with
    | null hnull => exact setText_of_null hnull
    | slot hp hi hs hd =>
      subst hi
      exact setText_of_null_slot hp hs hd
    | @unknown dest hd hroom =>
      rw [setText_of_reaches hd]
      cases hc : m.capacity p dest offset size indirect with
      | error e' =>
        rw [capacity_eq_error hc]
        rfl
      | ok n => exact absurd (capacity_eq_ok_iff.1 hc) (hroom n)
    | zero hd hroom hz =>
      rw [setText_of_reaches hd, capacity_eq_ok_iff.2 hroom]
      exact copyText_eq_error_iff.2 (.inl ⟨hz, rfl⟩)
    | overflow hd hroom hz hn =>
      rw [setText_of_reaches hd, capacity_eq_ok_iff.2 hroom]
      exact copyText_eq_error_iff.2 (.inr ⟨hz, hn, rfl⟩)

end Write

/-! ### Reading a text back -/

section Read
variable {m : Memory} {p dest : Address} {text : String} {offset : Int} {indirect : Bool}

theorem length_utf8_append_zero (text : String) :
    (Text.utf8 text ++ [0]).length = text.utf8ByteSize + 1 := by
  rw [List.length_append, Text.length_utf8, List.length_singleton]

/-- Where the bytes of a text and a terminator stand, the text is read. -/
theorem lossyText_cstring (htext : text.utf8ByteSize < 2 ^ 64) (hz : '\x00' ∉ text.toList)
    (h : m.load dest (text.utf8ByteSize + 1) = Text.utf8 text ++ [0]) :
    (m.cstring dest).lossyText = text := by
  have hlen := Text.length_utf8 text
  have hnul : (0 : UInt8) ∉ Text.utf8 text := fun h => hz ((Text.zero_mem_utf8_iff text).1 h)
  have hs : m.cstring dest = ⟨Text.utf8 text, hnul⟩ :=
    cstring_of_load (by rw [hlen]; exact h) (by rw [hlen]; exact htext)
  rw [hs]
  exact (congrArg String.ofList (Text.Utf8.decodeLossy_encode text.toList)).trans
    String.ofList_toList

/-- A text is read from the place that one would be written to. -/
theorem getText_of_reaches (h : Reaches m p offset indirect dest) :
    m.getText p offset indirect = .ok (some (m.cstring dest).lossyText) := by
  cases h with
  | inline hp =>
    rw [getText, requireNonNull_of_ne hp]
    rfl
  | slot hp hs hd =>
    have hnull : ¬ (m.addressAt (p.add offset)).isNull = true := fun h =>
      hd (Address.isNull_iff.1 h)
    rw [getText, requireNonNull_of_ne hp, getPointer_of_ne hs, Address.add_zero]
    simp only [bind, Except.bind, if_true, if_neg hnull]
    rfl

theorem getText_of_null (h : p = .null ∨ indirect = true ∧ p.add offset = .null) :
    m.getText p offset indirect = .error (.nullPointer .pointer) := by
  by_cases hp : p = .null
  · subst hp
    rfl
  · obtain ⟨rfl, hs⟩ := h.resolve_left hp
    rw [getText, requireNonNull_of_ne hp, hs]
    rfl

theorem getText_of_null_slot (hp : p ≠ .null) (hs : p.add offset ≠ .null)
    (hd : m.addressAt (p.add offset) = .null) : m.getText p offset true = .ok none := by
  rw [getText, requireNonNull_of_ne hp, getPointer_of_ne hs, Address.add_zero, hd]
  rfl

/-- Which string is at an address is a matter of its bytes and the zero byte behind them. -/
theorem cstring_eq_of_covers {m' : Memory}
    (h : ∀ x, Covers dest ((m.cstring dest).bytes.length + 1) x → m'.byte x = m.byte x) :
    m'.cstring dest = m.cstring dest := by
  rw [bytes_cstring] at h
  have hbytes : m'.bytesUpToNul dest wordCount = m.bytesUpToNul dest wordCount := by
    refine bytesUpToNul_eq fun i hi hlen => h _ ?_
    rw [Covers, reach_add dest hi]
    exact Nat.lt_succ_of_le hlen
  rw [cstring, cstring, hbytes]

/-- A place is known from the slot alone. -/
theorem Reaches.congr {m' : Memory} (h : Reaches m p offset indirect dest)
    (hslot : indirect = true → m'.addressAt (p.add offset) = m.addressAt (p.add offset)) :
    Reaches m' p offset indirect dest := by
  cases h with
  | inline hp => exact .inline hp
  | slot hp hs hd =>
    rw [← hslot rfl] at hd ⊢
    exact .slot hp hs hd

/-- A read of a text sees the bytes of the text, the zero byte behind it, and the slot that it is
    read through. -/
theorem getText_eq_of_covers {m' : Memory}
    (hslot : indirect = true → ∀ x, Covers (p.add offset) 8 x → m'.byte x = m.byte x)
    (htext : ∀ dest, Reaches m p offset indirect dest →
      ∀ x, Covers dest ((m.cstring dest).bytes.length + 1) x → m'.byte x = m.byte x) :
    m'.getText p offset indirect = m.getText p offset indirect := by
  have haddress (hi : indirect = true) :
      m'.addressAt (p.add offset) = m.addressAt (p.add offset) := by
    rw [addressAt, addressAt, load_eq_of_covers (by decide) (hslot hi)]
  rcases reaches_or_null m p offset indirect with ⟨dest, hd⟩ | hnull | ⟨hp, rfl, hs, hd⟩
  · rw [getText_of_reaches hd, getText_of_reaches (hd.congr haddress),
      cstring_eq_of_covers (htext dest hd)]
  · rw [getText_of_null hnull, getText_of_null hnull]
  · rw [getText_of_null_slot hp hs hd, getText_of_null_slot hp hs ((haddress rfl).trans hd)]

/-- A store that leaves the slot alone leaves the place. -/
theorem Reaches.store {bytes : List UInt8} (h : Reaches m p offset indirect dest)
    (hslot : indirect = true → Apart dest bytes.length (p.add offset) 8) :
    Reaches (m.store dest bytes) p offset indirect dest := by
  refine h.congr fun hi => ?_
  rw [addressAt, addressAt, load_store_of_apart m (by decide) (hslot hi)]

/-- Bytes behind an offset that is not negative are in the block that begins at the pointer, as far
    as the block reaches. -/
theorem covers_of_covers_add {n size : Nat} {x : Address} (ho : 0 ≤ offset)
    (hn : offset + n ≤ size) (h : Covers (p.add offset) n x) : Covers p size x := by
  obtain ⟨i, rfl⟩ := Int.eq_ofNat_of_zero_le ho
  have hp := p.toNat_lt
  have hx := x.toNat_lt
  have hbase := p.toNat_add i
  rw [Covers, reach_eq, hbase] at h
  rw [Covers, reach_eq]
  omega

end Read

/-! ### Writing a text whole or not at all -/

/-- What a write of a text leaves where it is carried out. The text and a terminator stand at the
    place, every other byte and the blocks are as they were. They take no more than the size that is
    given, and without one no more than the block has. The text is read back, unless it was written
    over the slot that it is read through. -/
structure TextWritten (m m' : Memory) (p dest : Address) (text : String) (size : Option Nat)
    (offset : Int) (indirect : Bool) : Prop where
  place : Reaches m p offset indirect dest
  noNul : '\x00' ∉ text.toList
  bytes : m'.load dest (text.utf8ByteSize + 1) = Text.utf8 text ++ [0]
  others : ∀ x, ¬ Covers dest (text.utf8ByteSize + 1) x → m'.byte x = m.byte x
  heap : m'.heap = m.heap
  frontier : m'.frontier = m.frontier
  given : ∀ n, size = some n → text.utf8ByteSize + 1 ≤ n
  inline : size = none → indirect = false →
    0 ≤ offset ∧ offset + text.utf8ByteSize + 1 ≤ m.usable p ∧
      ∀ x, Covers dest (text.utf8ByteSize + 1) x → Covers p (m.usable p) x
  block : size = none → indirect = true →
    text.utf8ByteSize + 1 ≤ m.usable dest ∧
      ∀ x, Covers dest (text.utf8ByteSize + 1) x → Covers dest (m.usable dest) x
  back : (indirect = true → Apart dest (text.utf8ByteSize + 1) (p.add offset) 8) →
    m'.getText p offset indirect = .ok (some text)

section Whole
variable {m : Memory} {p dest : Address} {text : String} {size : Option Nat} {offset : Int}
  {indirect : Bool} {n : Nat}

theorem textWritten_store (htext : text.utf8ByteSize < 2 ^ 64)
    (hd : Reaches m p offset indirect dest) (hroom : Room m p dest offset size indirect n)
    (hz : '\x00' ∉ text.toList) (hn : text.utf8ByteSize + 1 ≤ n) :
    TextWritten m (m.store dest (Text.utf8 text ++ [0])) p dest text size offset indirect := by
  have hlen := length_utf8_append_zero text
  have hload := m.load_store dest (Text.utf8 text ++ [0]) (by omega)
  rw [hlen] at hload
  exact {
    place := hd
    noNul := hz
    bytes := hload
    others := fun x hx => m.byte_store_of_not_covers (by rwa [hlen])
    heap := rfl
    frontier := rfl
    given := by
      rintro k rfl
      cases hroom
      exact hn
    inline := by
      rintro rfl rfl
      obtain ⟨hp⟩ := hd
      obtain _ | ⟨-, ho, hsize⟩ := hroom
      exact ⟨ho, by omega, fun x => covers_of_covers_add ho (by omega)⟩
    block := by
      rintro rfl rfl
      cases hroom
      exact ⟨hn, fun x hx => Nat.lt_of_lt_of_le hx hn⟩
    back := fun hslot => by
      have hplace : Reaches (m.store dest (Text.utf8 text ++ [0])) p offset indirect dest :=
        hd.store (by rwa [hlen])
      rw [getText_of_reaches hplace, lossyText_cstring htext hz hload] }

theorem bufferOverflow_iff {length : Nat} :
    TextRefused m p text size offset indirect (.bufferOverflow length n) ↔
      length = text.utf8ByteSize ∧ n < text.utf8ByteSize + 1 ∧ '\x00' ∉ text.toList ∧
        ∃ dest, Reaches m p offset indirect dest ∧ Room m p dest offset size indirect n := by
  constructor
  · rintro (_ | _ | _ | _ | ⟨hd, hroom, hz, hn⟩)
    exact ⟨rfl, hn, hz, _, hd, hroom⟩
  · rintro ⟨rfl, hn, hz, dest, hd, hroom⟩
    exact .overflow hd hroom hz hn

end Whole

/-- A text is written whole, with its terminator, and within its bounds, or the write is refused and
    memory stays as it is. Which of the two, and for what reason a write is refused, is known
    beforehand; that the text does not fit is the reason where nothing else is, and the refusal
    tells the length of the text and the room there is. -/
theorem text_written_whole_or_refused (m : Memory) (p : Address) (text : String)
    (size : Option Nat) (offset : Int) (indirect : Bool) (htext : text.utf8ByteSize < 2 ^ 64) :
    ((∃ m', m.setText p text size offset indirect = .ok m') ↔
      ∃ dest n, Reaches m p offset indirect dest ∧ Room m p dest offset size indirect n ∧
        '\x00' ∉ text.toList ∧ text.utf8ByteSize + 1 ≤ n) ∧
    (∀ m', m.setText p text size offset indirect = .ok m' →
      ∃ dest, TextWritten m m' p dest text size offset indirect) ∧
    (∀ e, m.setText p text size offset indirect = .error e ↔
      TextRefused m p text size offset indirect e) ∧
    ∀ length n, m.setText p text size offset indirect = .error (.bufferOverflow length n) ↔
      length = text.utf8ByteSize ∧ n < text.utf8ByteSize + 1 ∧ '\x00' ∉ text.toList ∧
        ∃ dest, Reaches m p offset indirect dest ∧ Room m p dest offset size indirect n := by
  refine ⟨⟨?_, ?_⟩, fun m' h => ?_, fun e => setText_eq_error_iff, fun length n => ?_⟩
  · rintro ⟨m', h⟩
    obtain ⟨dest, n, hd, hroom, hz, hn, -⟩ := setText_eq_ok_iff.1 h
    exact ⟨dest, n, hd, hroom, hz, hn⟩
  · rintro ⟨dest, n, hd, hroom, hz, hn⟩
    exact ⟨_, setText_eq_ok_iff.2 ⟨dest, n, hd, hroom, hz, hn, rfl⟩⟩
  · obtain ⟨dest, n, hd, hroom, hz, hn, rfl⟩ := setText_eq_ok_iff.1 h
    exact ⟨dest, textWritten_store htext hd hroom hz hn⟩
  · rw [setText_eq_error_iff, bufferOverflow_iff]

/-- Two letters fill what a block of twenty-four bytes has behind the offset twenty-one; behind the
    next offset they do not fit. -/
theorem text_written_behind_offset :
    "hi".utf8ByteSize < 2 ^ 64 ∧
    ∃ m : Memory, m.heap = [⟨.ofNat 4096, 24⟩] ∧
      (∃ m', m.setText (.ofNat 4096) "hi" none 21 false = .ok m' ∧
        m'.getText (.ofNat 4096) 21 false = .ok (some "hi")) ∧
      m.setText (.ofNat 4096) "hi" none 22 false = .error (.bufferOverflow 2 2) := by
  have hlen : "hi".utf8ByteSize < 2 ^ 64 := by decide
  have hnul : '\x00' ∉ "hi".toList := by decide
  have hnull : Address.ofNat 4096 ≠ .null := by decide
  let m : Memory := ⟨fun _ => 0, [⟨.ofNat 4096, 24⟩], 8192⟩
  have hroom : Room m (.ofNat 4096) ((Address.ofNat 4096).add 21) 21 none false 3 :=
    .inline (by decide) (by decide) (by decide)
  have hroom' : Room m (.ofNat 4096) ((Address.ofNat 4096).add 22) 22 none false 2 :=
    .inline (by decide) (by decide) (by decide)
  refine ⟨hlen, m, rfl, ?_, ?_⟩
  · have hset : m.setText (.ofNat 4096) "hi" none 21 false = .ok _ :=
      setText_eq_ok_iff.2 ⟨_, 3, .inline hnull, hroom, hnul, by decide, rfl⟩
    obtain ⟨dest, h⟩ :=
      (text_written_whole_or_refused m (.ofNat 4096) "hi" none 21 false hlen).2.1 _ hset
    exact ⟨_, hset, h.back nofun⟩
  · exact ((text_written_whole_or_refused m (.ofNat 4096) "hi" none 22 false hlen).2.2.2 2 2).2
      ⟨by decide, by decide, hnul, _, .inline hnull, hroom'⟩

end Memory

end NativeGate
