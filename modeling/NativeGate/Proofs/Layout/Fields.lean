import NativeGate.Proofs.Layout.Conversion
import NativeGate.Proofs.Memory.Strings

/-!
Fields of instances as cells of their own. A field is written in one store, after everything that
can be refused has been asked for (`set_eq_ok_iff`, `set_eq_error_iff`), and a read looks at the
bytes of the field alone (`load_eq_of_sees`). So what was written is read back, as the registry
shows it, and a read of any other field whose bytes were not written is as it was
(`fields_keep_apart`).
-/

namespace NativeGate.Layout
open Memory

/-! ### Results as the registry shows them -/

namespace Types

/-- The converter that applies, the own one or else the default one, is registered if there is
    one. -/
def Registered (t : Types) (own : Option String) : Prop :=
  ∀ name, own.or t.defaultConverter = some name → t.layouts.find? name ≠ none

/-- How a registry shows a value: an address that is not null as an instance of the layout of the
    converter that applies, and everything else plainly. -/
inductive Shows (t : Types) (own : Option String) : Value → Member → Prop
  | wrapped {name : String} {l : TypeLayout} {p : Address}
      (applies : own.or t.defaultConverter = some name) (hl : t.layouts.find? name = some l)
      (hp : p ≠ .null) : Shows t own (.pointer p) (.wrapped ⟨p, l, .registry⟩)
  | plain {v : Value}
      (hv : own.or t.defaultConverter = none ∨ ∀ p, v = .pointer p → p = .null) :
      Shows t own v (.value v)

/-- What is no address is shown plainly. -/
theorem Shows.eq_value {t : Types} {own : Option String} {v : Value} {shown : Member}
    (h : t.Shows own v shown) (hv : v.pointer? = none) : shown = .value v := by
  cases h with
  | wrapped => cases hv
  | plain => rfl

theorem exists_shows {t : Types} {own : Option String} (h : t.Registered own) (v : Value) :
    ∃ shown, t.convert own v = .ok shown ∧ t.Shows own v shown := by
  cases hshown : t.convert own v with
  | error e =>
    obtain ⟨p, name, -, -, happlies, hnone, -⟩ := convert_eq_error_iff.1 hshown
    exact absurd hnone (h name happlies)
  | ok shown =>
    refine ⟨shown, rfl, ?_⟩
    rcases convert_eq_ok_iff.1 hshown with ⟨p, name, l, rfl, hp, happlies, hl, rfl⟩ | ⟨hv, rfl⟩
    · exact .wrapped happlies hl hp
    · exact .plain hv

end Types

namespace Instance
variable {i : Instance} {m m' : Memory} {name : String} {a : Attribute} {v w : Value}
  {dest : Address} {bytes : List UInt8}

/-- Where a field begins. -/
def place (i : Instance) (a : Attribute) : Address := i.pointer.add a.offset.toInt

/-! ### Writing -/

/-- Writes a field to which access is granted. -/
def put (i : Instance) (m : Memory) (a : Attribute) (v : Value) : Except Error Memory :=
  match a.kind with
  | .string =>
    match v.text? with
    | some text =>
      m.setText i.pointer text (a.capacity.map UInt64.toNat) a.offset.toInt a.indirect
    | none => .error (.argumentType 0 .string (.sort v.sort))
  | k => m.setValue i.pointer k v a.offset.toInt

theorem put_value (hk : a.kind ≠ .string) :
    i.put m a v = m.setValue i.pointer a.kind v a.offset.toInt := by
  unfold put
  split
  · contradiction
  · rfl

theorem put_text (hk : a.kind = .string) {text : String} (hv : v.text? = some text) :
    i.put m a v =
      m.setText i.pointer text (a.capacity.map UInt64.toNat) a.offset.toInt a.indirect := by
  simp only [put, hk, hv]

theorem put_notText (hk : a.kind = .string) (hv : v.text? = none) :
    i.put m a v = .error (.argumentType 0 .string (.sort v.sort)) := by
  simp only [put, hk, hv]

/-- Writing is asking for the field, then for access, then putting the value there. -/
theorem set_eq (i : Instance) (m : Memory) (name : String) (v : Value) :
    i.set m name v = (i.field name).bind fun a =>
      if a.access.writable then i.put m a v else .error (.attributeAccess name true) := by
  rw [set]
  cases i.field name with
  | error e => rfl
  | ok a =>
    simp only [Bind.bind, Except.bind]
    cases a.access.writable <;> rfl

/-- A value is put into a field as `bytes` at `dest`, and counts as `w` there: as it was fitted to
    the kind of the field, or, for a text, as it is. -/
inductive Puts (i : Instance) (m : Memory) (a : Attribute) (v : Value) :
    Address → List UInt8 → Value → Prop
  | value {w : Value} (hvoid : a.kind ≠ .void) (hstring : a.kind ≠ .string)
      (hp : i.pointer ≠ .null) (hw : v.coerce a.kind 0 = .ok w) :
      Puts i m a v (i.place a) w.stored w
  | text {text : String} {dest : Address} {n : Nat} (hk : a.kind = .string)
      (hv : v.text? = some text) (hd : Reaches m i.pointer a.offset.toInt a.indirect dest)
      (hroom : Room m i.pointer dest a.offset.toInt (a.capacity.map UInt64.toNat) a.indirect n)
      (hn : text.utf8ByteSize + 1 ≤ n) : Puts i m a v dest (Text.utf8 text ++ [0]) v

/-- The reasons why a value is not put into a field, in the order in which they are looked at: for a
    field of no kind, or else for a value that does not fit, or else through the null pointer; for a
    text, a value that is none, or else the reasons why a text is not written. -/
inductive PutRefused (i : Instance) (m : Memory) (a : Attribute) (v : Value) : Error → Prop
  | void (hk : a.kind = .void) : PutRefused i m a v (.unsupportedType (.store .void))
  | unfit {e : Error} (hvoid : a.kind ≠ .void) (hstring : a.kind ≠ .string)
      (he : v.coerce a.kind 0 = .error e) : PutRefused i m a v e
  | null {w : Value} (hvoid : a.kind ≠ .void) (hstring : a.kind ≠ .string)
      (hw : v.coerce a.kind 0 = .ok w) (hp : i.pointer = .null) :
      PutRefused i m a v (.nullPointer .pointer)
  | notText (hk : a.kind = .string) (hv : v.text? = none) :
      PutRefused i m a v (.argumentType 0 .string (.sort v.sort))
  | text {text : String} {e : Error} (hk : a.kind = .string) (hv : v.text? = some text)
      (he : TextRefused m i.pointer text (a.capacity.map UInt64.toNat) a.offset.toInt a.indirect
        e) : PutRefused i m a v e

/-- The reasons why a field is not written: the layout has none of the name, or else it is not to be
    written, or else the value is not put there. -/
inductive SetRefused (i : Instance) (m : Memory) (name : String) (v : Value) : Error → Prop
  | unknown (ha : i.layout.attributes.find? name = none) :
      SetRefused i m name v (.unknownMember i.layout.name name)
  | access {a : Attribute} (ha : i.layout.attributes.find? name = some a)
      (hw : a.access.writable = false) : SetRefused i m name v (.attributeAccess name true)
  | put {a : Attribute} {e : Error} (ha : i.layout.attributes.find? name = some a)
      (hw : a.access.writable = true) (he : i.PutRefused m a v e) : SetRefused i m name v e

/-- A value is put into a field in one store, and exactly where `Puts` says. -/
theorem put_eq_ok_iff :
    i.put m a v = .ok m' ↔ ∃ dest bytes w, i.Puts m a v dest bytes w ∧ m' = m.store dest bytes := by
  constructor
  · intro h
    by_cases hk : a.kind = .string
    · cases hv : v.text? with
      | none =>
        rw [put_notText hk hv] at h
        cases h
      | some text =>
        rw [put_text hk hv, setText_eq_ok_iff] at h
        obtain ⟨dest, n, hd, hroom, -, hn, rfl⟩ := h
        exact ⟨dest, _, v, .text hk hv hd hroom hn, rfl⟩
    · rw [put_value hk, setValue_eq_ok_iff] at h
      obtain ⟨hvoid, -, hp, w, hw, rfl⟩ := h
      exact ⟨_, _, w, .value hvoid hk hp hw, rfl⟩
  · rintro ⟨_, _, _, ⟨hvoid, hk, hp, hw⟩ | ⟨hk, hv, hd, hroom, hn⟩, rfl⟩
    · rw [put_value hk, setValue_eq_ok_iff]
      exact ⟨hvoid, hk, hp, _, hw, rfl⟩
    · rw [put_text hk hv, setText_eq_ok_iff]
      exact ⟨_, _, hd, hroom, v.noNul_text hv, hn, rfl⟩

theorem put_eq_error_iff {e : Error} : i.put m a v = .error e ↔ i.PutRefused m a v e := by
  constructor
  · intro h
    by_cases hk : a.kind = .string
    · cases hv : v.text? with
      | none =>
        rw [put_notText hk hv] at h
        cases h
        exact .notText hk hv
      | some text =>
        rw [put_text hk hv, setText_eq_error_iff] at h
        exact .text hk hv h
    rw [put_value hk] at h
    by_cases hvoid : a.kind = .void
    · rw [hvoid] at h
      cases h
      exact .void hvoid
    rw [setValue_eq m _ hvoid hk] at h
    rcases Except.bind_eq_error_iff.1 h with hw | ⟨w, hw, h⟩
    · exact .unfit hvoid hk hw
    · by_cases hp : i.pointer = .null
      · rw [hp] at h
        cases h
        exact .null hvoid hk hw hp
      · rw [requireNonNull_of_ne hp] at h
        cases h
  · intro h
    cases h with
    | void hk => rw [put_value (by rw [hk]; decide), hk]; rfl
    | unfit hvoid hk he => rw [put_value hk, setValue_eq m _ hvoid hk, he]; rfl
    | null hvoid hk hw hp => rw [put_value hk, setValue_eq m _ hvoid hk, hw, hp]; rfl
    | notText hk hv => exact put_notText hk hv
    | text hk hv he => rw [put_text hk hv, setText_eq_error_iff]; exact he

theorem set_eq_ok_iff :
    i.set m name v = .ok m' ↔ ∃ a dest bytes w, i.layout.attributes.find? name = some a ∧
      a.access.writable = true ∧ i.Puts m a v dest bytes w ∧ m' = m.store dest bytes := by
  rw [set_eq, field]
  cases ha : i.layout.attributes.find? name with
  | none => simp [Except.bind]
  | some a =>
    cases hw : a.access.writable with
    | false => simp [Except.bind, hw]
    | true => simp [Except.bind, hw, put_eq_ok_iff]

theorem set_eq_error_iff {e : Error} :
    i.set m name v = .error e ↔ i.SetRefused m name v e := by
  rw [set_eq, field]
  constructor
  · intro h
    cases ha : i.layout.attributes.find? name with
    | none =>
      rw [ha] at h
      cases h
      exact .unknown ha
    | some a =>
      rw [ha] at h
      simp only [Except.bind] at h
      split at h
      · rename_i hw
        exact .put ha hw (put_eq_error_iff.1 h)
      · rename_i hw
        cases h
        exact .access ha (Bool.eq_false_iff.2 hw)
  · intro h
    cases h with
    | unknown ha => rw [ha]; rfl
    | access ha hw => simp [ha, hw, Except.bind]
    | put ha hw he => simp [ha, hw, Except.bind, put_eq_error_iff.2 he]

/-! ### Reading -/

/-- The bytes that a read of a field looks at: those of its kind; or of a text, where it has a
    place, the bytes up to and including the zero byte, and the slot that it is read through. -/
inductive Sees (i : Instance) (m : Memory) (a : Attribute) : Address → Prop
  | value {x : Address} (hk : a.kind ≠ .string) (hx : Covers (i.place a) a.kind.size x) :
      Sees i m a x
  | slot {x : Address} (hk : a.kind = .string) (hi : a.indirect = true)
      (hx : Covers (i.place a) 8 x) : Sees i m a x
  | text {dest x : Address} (hk : a.kind = .string)
      (hd : Reaches m i.pointer a.offset.toInt a.indirect dest)
      (hx : Covers dest ((m.cstring dest).bytes.length + 1) x) : Sees i m a x

theorem load_value (hk : a.kind ≠ .string) :
    i.load m a = m.getValue i.pointer a.kind a.offset.toInt := by
  unfold load
  split
  · contradiction
  · rfl

theorem load_text (hk : a.kind = .string) :
    i.load m a = (m.getText i.pointer a.offset.toInt a.indirect).bind textValue := by
  simp only [load, hk]

/-- A field reads the same where the bytes are the same that it sees. -/
theorem load_eq_of_sees (h : ∀ x, i.Sees m a x → m'.byte x = m.byte x) :
    i.load m' a = i.load m a := by
  by_cases hk : a.kind = .string
  · rw [load_text hk, load_text hk, getText_eq_of_covers
      (fun hi x hx => h x (.slot hk hi hx)) fun dest hd x hx => h x (.text hk hd hx)]
  · rw [load_value hk, load_value hk, getValue_eq_of_covers hk fun x hx => h x (.value hk hx)]

/-- What was put into a field is read from it, unless a text was written over its slot. -/
theorem load_of_puts (h : i.Puts m a v dest bytes w) (hlen : bytes.length ≤ 2 ^ 64)
    (hslot : a.kind = .string → a.indirect = true → Apart dest bytes.length (i.place a) 8) :
    i.load (m.store dest bytes) a = .ok w := by
  cases h with
  | value hvoid hk hp hw => rw [load_value hk, place, m.getValue_store hvoid hk hp hw]
  | @text text _ _ hk hv hd =>
    have hbytes := length_utf8_append_zero text
    have hload := m.load_store dest (Text.utf8 text ++ [0]) hlen
    rw [hbytes] at hload hlen
    rw [load_text hk, getText_of_reaches (hd.store (hslot hk)),
      lossyText_cstring (by omega) (v.noNul_text hv) hload]
    exact v.ofText_eq hv

/-! ### Fields beside each other -/

/-- What a write of a field leaves, where it is carried out. Every byte outside the written ones is
    as it was. A read of the field gives back the value that was put there, as the registry shows
    it, if the field may be read, the converter that applies is registered, the written bytes fit
    into the address space, and no text was written over the slot that it is read through. A read of
    any field that sees none of the written bytes, of this instance or another one, is as it was. -/
structure FieldWritten (i : Instance) (m m' : Memory) (name : String) (a : Attribute)
    (dest : Address) (bytes : List UInt8) (w : Value) : Prop where
  store : m' = m.store dest bytes
  others : ∀ x, ¬ Covers dest bytes.length x → m'.byte x = m.byte x
  back : ∀ t : Types, a.access.readable = true → (i.scope.types t).Registered a.converter →
    bytes.length ≤ 2 ^ 64 →
    (a.kind = .string → a.indirect = true → Apart dest bytes.length (i.place a) 8) →
    ∃ shown, i.get m' t name = .ok shown ∧ (i.scope.types t).Shows a.converter w shown
  apart : ∀ (t : Types) (j : Instance) (other : String),
    (∀ b, j.layout.attributes.find? other = some b →
      ∀ x, j.Sees m b x → ¬ Covers dest bytes.length x) →
    j.get m' t other = j.get m t other

theorem fieldWritten_store (ha : i.layout.attributes.find? name = some a)
    (h : i.Puts m a v dest bytes w) :
    i.FieldWritten m (m.store dest bytes) name a dest bytes w where
  store := rfl
  others x hx := m.byte_store_of_not_covers hx
  back t hread hregistered hlen hslot := by
    obtain ⟨shown, hshown, hshows⟩ := Types.exists_shows hregistered w
    refine ⟨shown, ?_, hshows⟩
    rw [get_eq, field, ha]
    simp only [Except.bind, hread, if_true, load_of_puts h hlen hslot, hshown]
  apart t j other hsees := by
    have hload : ∀ b, j.layout.attributes.find? other = some b →
        j.load (m.store dest bytes) b = j.load m b := fun b hb =>
      load_eq_of_sees fun x hx => m.byte_store_of_not_covers (hsees b hb x hx)
    rw [get_eq, get_eq, field]
    cases hb : j.layout.attributes.find? other with
    | none => simp only [Except.bind]
    | some b => simp only [Except.bind, hload b hb]

/-- Fields are cells of their own. A write of a field is carried out exactly where the layout has a
    field of the name that may be written and the value can be put into it; it is refused for the
    first of the reasons in `SetRefused`, and then there is no store at all, so that memory stays as
    it is. A write that is carried out stores the value, fitted to the kind of the field, or the
    text with its terminator. The field reads as that value then, and every field reads as before
    that sees none of the written bytes. -/
theorem fields_keep_apart (i : Instance) (m : Memory) (name : String) (v : Value) :
    ((∃ m', i.set m name v = .ok m') ↔
      ∃ a dest bytes w, i.layout.attributes.find? name = some a ∧ a.access.writable = true ∧
        i.Puts m a v dest bytes w) ∧
    (∀ m', i.set m name v = .ok m' →
      ∃ a dest bytes w, i.layout.attributes.find? name = some a ∧ i.Puts m a v dest bytes w ∧
        i.FieldWritten m m' name a dest bytes w) ∧
    ∀ e, i.set m name v = .error e ↔ i.SetRefused m name v e := by
  refine ⟨⟨?_, ?_⟩, fun m' h => ?_, fun e => set_eq_error_iff⟩
  · rintro ⟨m', h⟩
    obtain ⟨a, dest, bytes, w, ha, hw, hputs, -⟩ := set_eq_ok_iff.1 h
    exact ⟨a, dest, bytes, w, ha, hw, hputs⟩
  · rintro ⟨a, dest, bytes, w, ha, hw, hputs⟩
    exact ⟨_, set_eq_ok_iff.2 ⟨a, dest, bytes, w, ha, hw, hputs, rfl⟩⟩
  · obtain ⟨a, dest, bytes, w, ha, -, hputs, rfl⟩ := set_eq_ok_iff.1 h
    exact ⟨a, dest, bytes, w, ha, hputs, fieldWritten_store ha hputs⟩

/-- A text of two letters is written into a field of four bytes behind a number. It is read back,
    and the number reads as before; a truth value is no text. -/
theorem tag_written_beside_count :
    let count : Attribute := ⟨.integer .int, 0, false, none, .readWrite, none⟩
    let tag : Attribute := ⟨.string, 4, false, some 4, .readWrite, none⟩
    let layout := ((TypeLayout.new "Node").withAttribute "count" count).withAttribute "tag" tag
    let i : Instance := ⟨.ofNat 4096, layout, .registry⟩
    let hi : Value := .string ⟨[104, 105], by decide⟩
    (∃ m', i.set .empty "tag" hi = .ok m' ∧ i.get m' .empty "tag" = .ok (.value hi) ∧
      i.get m' .empty "count" = i.get .empty .empty "count") ∧
    i.set .empty "tag" (.bool true) = .error (.argumentType 0 .string (.sort .bool)) := by
  intro count tag layout i hi
  have htag : i.layout.attributes.find? "tag" = some tag :=
    (Dict.find?_insert ..).trans (if_pos rfl)
  have hcount : i.layout.attributes.find? "count" = some count :=
    (Dict.find?_insert ..).trans ((if_neg (by decide)).trans
      ((Dict.find?_insert ..).trans (if_pos rfl)))
  have htext : hi.text? = some "hi" := by decide
  have hplace : Reaches .empty i.pointer tag.offset.toInt tag.indirect (i.place tag) :=
    .inline (by decide)
  have hputs := Puts.text (m := .empty) rfl htext hplace (.given 4 false) (by decide)
  refine ⟨?_, ?_⟩
  · obtain ⟨m', hset⟩ := (fields_keep_apart i .empty "tag" hi).1.2 ⟨tag, _, _, hi, htag, rfl, hputs⟩
    obtain ⟨a, dest, bytes, w, ha, h, hwritten⟩ := (fields_keep_apart i .empty "tag" hi).2.1 m' hset
    rw [htag, Option.some.injEq] at ha
    subst ha
    cases h with
    | value _ hk => exact absurd rfl hk
    | @text text _ _ hk hv hd =>
      rw [htext, Option.some.injEq] at hv
      subst hv
      cases hd
      obtain ⟨shown, hget, hshows⟩ := hwritten.back .empty rfl nofun (by decide) nofun
      refine ⟨m', hset, ?_, hwritten.apart .empty i "count" ?_⟩
      · rw [hget, hshows.eq_value rfl]
      · intro b hb x hx hx'
        rw [hcount, Option.some.injEq] at hb
        subst hb
        cases hx with
        | value _ hx =>
          have hnumber : (i.place count).toNat = 4096 := by decide
          have hletters : (i.place tag).toNat = 4100 := by decide
          have hx : reach (i.place count) x < 4 := hx
          have hx' : reach (i.place tag) x < 3 := hx'
          rw [reach_eq] at hx hx'
          omega
        | slot hk => cases hk
        | text hk => cases hk
  · exact ((fields_keep_apart i .empty "tag" (.bool true)).2.2 _).2
      (.put htag rfl (.notText rfl rfl))

end Instance

end NativeGate.Layout
