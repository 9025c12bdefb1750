import NativeGate.Proofs.CommandLine.Integers

/-!
Values that are printed and read again. An integer is printed in base ten and an address in base
sixteen behind the mark; either is a literal of the number, and the reader of words takes every
literal without a plus, whatever the case of its letters and however many zeros lead it. So a
printed integer, truth value or address is read as the value that it was printed for
(`printed_value_read_back`).
-/

namespace NativeGate.CommandLine
open Text

/-- An integer is printed as its digits in base ten, behind a minus if it is negative. -/
theorem exists_toString (n : Int) :
    ∃ s : Sign, s ≠ .plus ∧ (toString n).toList = s.chars ++ Nat.toDigits 10 n.natAbs ∧
      n = s.apply n.natAbs := by
  cases n with
  | ofNat m => exact ⟨.bare, by decide, String.toList_ofList, rfl⟩
  | negSucc m =>
    refine ⟨.minus, by decide, String.toList_append.trans ?_, rfl⟩
    exact congrArg ('-' :: ·) String.toList_ofList

/-- A literal without a plus is no word with a plus before the mark. -/
theorem not_plusMarked_of_unled {s : Sign} {cs : List Char} (hs : s ≠ .plus) (h : Unled cs) :
    ¬ PlusMarked (s.chars ++ cs) := by
  rintro ⟨x, rest, -, he⟩
  cases s with
  | bare => cases h .plus _ he
  | plus => exact hs rfl
  | minus => cases he

/-- Digits behind a minus or no sign are read. -/
theorem Unsigned.readable {s : Sign} {cs : List Char} {m : Nat} (hs : s ≠ .plus)
    (h : Unsigned cs m) : Readable (s.chars ++ cs) (s.apply m) :=
  .inl ⟨.intro s h, not_plusMarked_of_unled hs h.unled⟩

/-- A word that is read as the integer of a native integer is read as the native integer. -/
theorem readWord_of_readable {text : String} {w : NativeInt} (h : Readable text.toList w.val)
    (b : Build) (index : Nat) : readWord b text (.integer w.kind) index = .ok (.integer w) :=
  readWord_integer_eq_ok_iff.2 ⟨w.val, h, rfl, .integer w⟩

theorem readWord_toString (b : Build) (w : NativeInt) (index : Nat) :
    readWord b (toString w.val) (.integer w.kind) index = .ok (.integer w) := by
  obtain ⟨s, hs, hchars, hval⟩ := exists_toString w.val
  have hread := (Unsigned.decimal (numeral_toDigits (by decide) w.val.natAbs)).readable hs
  rw [← hchars, ← hval] at hread
  exact readWord_of_readable hread b index

theorem readWord_address (b : Build) (p : Address) (index : Nat) :
    readWord b p.display .pointer index = .ok (.pointer p) := by
  have hchars : p.display.toList = '0' :: 'x' :: Nat.toDigits 16 p.toNat := by
    refine String.toList_append.trans ?_
    exact congrArg ('0' :: 'x' :: ·) String.toList_ofList
  have hnull : p.display ≠ "null" := by
    intro h
    rw [h] at hchars
    exact absurd (List.cons.inj hchars).1 (by decide)
  have hlt : p.toNat < 2 ^ 64 := p.word.toNat_lt
  have hread : Readable p.display.toList p.toNat := by
    rw [hchars]
    exact (Unsigned.marked (.inl rfl) (numeral_toDigits (by decide) p.toNat)).readable (s := .bare)
      (by decide)
  obtain ⟨v, hv⟩ := exists_widest? (n := p.toNat) (by omega) (by omega)
  refine (readWord_counts .pointer fun _ => hnull).2
    ⟨p.toNat, v, integer?_of_readable hread (by omega) (by omega), hv, ?_⟩
  obtain ⟨w, hw, rfl⟩ := Option.map_eq_some_iff.1 hv
  have hval := Value.carries_iff.1 (carries_of_widest? hv).1
  rw [Value.integer?, Option.some.injEq] at hval
  exact Value.coerce_pointer_eq_ok_iff.2
    (.inr (.inr ⟨w, p, rfl, by omega, by omega, rfl, hval.symm⟩))

/-- Printing loses nothing. What is printed for an integer, a truth value or an address is read, for
    a parameter of its kind, as the value itself. For an integer, that is its decimal text; any text
    of its digits in base sixteen serves as well, with letters of either case in the mark and among
    the digits, with zeros in front, and behind a minus if it is negative. The build makes no
    difference. -/
theorem printed_value_read_back (b : Build) (index : Nat) :
    (∀ v : Value, (∃ k, v.kind = .integer k) ∨ v.kind = .bool ∨ v.kind = .pointer →
      readWord b v.display v.kind index = .ok v) ∧
    ∀ w : NativeInt,
      readWord b (toString w.val) (.integer w.kind) index = .ok (.integer w) ∧
      ∀ (s : Sign) (x : Char) (ds : List Char) (m : Nat), s ≠ .plus → x = 'x' ∨ x = 'X' →
        Numeral 16 ds m → w.val = s.apply m →
        readWord b (String.ofList (s.chars ++ '0' :: x :: ds)) (.integer w.kind) index =
          .ok (.integer w) := by
  refine ⟨fun v hv => ?_, fun w => ⟨readWord_toString b w index, fun s x ds m hs hx hm hval => ?_⟩⟩
  · cases v with
    | integer w => exact readWord_toString b w index
    | bool value => cases value <;> rfl
    | pointer p => exact readWord_address b p index
    | none | float _ | double _ | string _ => simp [Value.kind] at hv
  · have hread := (Unsigned.marked hx hm).readable hs
    rw [← hval] at hread
    refine readWord_of_readable ?_ b index
    rwa [String.toList_ofList]

/-- The least `long long` is read from its digits in base sixteen, capitals and zeros included. -/
example :
    readWord .checked "-0X0008000000000000000" (.integer .longLong) 0 =
        .ok (.ofInt .longLong (-9223372036854775808)) ∧
      readWord .checked "0xfFfFfFfFfFfFfFfF" .pointer 0 = .ok (.pointer ⟨0xffffffffffffffff⟩) := by
  decide

end NativeGate.CommandLine
