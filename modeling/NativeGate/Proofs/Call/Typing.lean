import NativeGate.Call.Slot
import NativeGate.Proofs.Call.History
import NativeGate.Proofs.Coercion

/-!
Types through a call. Four tables have to agree on every kind for a call to be sound: what a value
is fitted to, under which kind it travels, in what storage it is put, and how the result is read.
They do (`call_type_safe`): what is pushed has the kinds of the parameters, its storage has the
types that the interface is prepared for (`types_toSlots`), and the result has the declared kind.
-/

namespace NativeGate
variable {ρ : Type}

/-! ### Storage -/

/-- Storage has room for every integer of the type: its word is that of the integer. -/
theorem NativeInt.word_slot (n : NativeInt) : n.slot.word = UInt64.ofInt n.val := by
  obtain ⟨k, n, hn⟩ := n
  cases k <;> simp only [IntKind.Holds, IntKind.least, IntKind.greatest, IntKind.signed,
    IntKind.bits, if_true, if_false, Bool.false_eq_true] at hn
  case char =>
    dsimp only [slot, Slot.word]
    rw [Int8.toInt_ofInt_of_le (by omega) (by omega)]
  case short =>
    dsimp only [slot, Slot.word]
    rw [Int16.toInt_ofInt_of_le (by omega) (by omega)]
  case int =>
    dsimp only [slot, Slot.word]
    rw [Int32.toInt_ofInt_of_le (by omega) (by omega)]
  case long | longLong =>
    dsimp only [slot, Slot.word]
    rw [Int64.toInt_ofInt_of_le (by omega) (by omega)]
  case ulong | ulongLong => rfl
  all_goals
    apply UInt64.toNat_inj.1
    simp [slot, Slot.word, UInt8.ofInt, UInt16.ofInt, UInt32.ofInt, UInt64.ofInt]
    omega

theorem NativeInt.type_slot (n : NativeInt) :
    n.slot.type = .integer n.kind.signed n.kind.bytes := by
  obtain ⟨k, n, hn⟩ := n
  cases k <;> rfl

namespace Value

/-- The storage of a value has the type of the kind under which the value travels. -/
theorem type_toSlot (v : Value) (w : World ρ) : (v.toSlot w).1.type = v.slotKind.nativeType := by
  cases v with
  | integer n => exact n.type_slot
  | _ => rfl

/-- The word that crosses is what is in the storage. -/
theorem toWord_eq_toSlot (v : Value) (w : World ρ) :
    v.toWord w = ((v.toSlot w).1.word, (v.toSlot w).2) := by
  cases v with
  | bool b => cases b <;> rfl
  | integer n => exact Prod.ext n.word_slot.symm rfl
  | _ => rfl

theorem types_toSlots (vs : List Value) (w : World ρ) :
    (toSlots vs w).1.map Slot.type = vs.map fun v => v.slotKind.nativeType := by
  induction vs generalizing w with
  | nil => rfl
  | cons v vs ih => rw [toSlots, List.map_cons, List.map_cons, type_toSlot, ih]

theorem toWords_eq_toSlots (vs : List Value) (w : World ρ) :
    toWords vs w = ((toSlots vs w).1.map Slot.word, (toSlots vs w).2) := by
  induction vs generalizing w with
  | nil => rfl
  | cons v vs ih => rw [toWords_cons, toWord_eq_toSlot, ih, toSlots, List.map_cons]

/-! ### Arguments and results -/

/-- What is pushed for a parameter: a value of its kind, or an address for a string. -/
def Serves (k : Kind) (v : Value) : Prop :=
  v ≠ .none ∧ (v.kind = k ∨ k = .string ∧ v.kind = .pointer)

theorem serves_of_coerce {v w : Value} {k : Kind} {i : Nat} (h : v.coerce k i = .ok w) :
    Serves k w := by
  rcases eq_or_ne k .string with rfl | hk
  · rcases kind_of_coerce_string h with ⟨s, rfl⟩ | hkind
    · exact ⟨fun hn => (by cases hn), .inl rfl⟩
    · exact ⟨fun hn => (by subst hn; cases hkind), .inr ⟨rfl, hkind⟩⟩
  · have hkind := kind_of_coerce hk h
    refine ⟨fun hn => ?_, .inl hkind⟩
    subst hn hkind
    cases coerce_eq_ok h

/-- A value that serves for a parameter travels in the native type of the parameter. -/
theorem Serves.nativeType_eq {k : Kind} {v : Value} (h : Serves k v) :
    v.slotKind.nativeType = k.nativeType := by
  obtain ⟨hnone, rfl | ⟨rfl, hkind⟩⟩ := h
  · cases v with
    | none => exact absurd rfl hnone
    | _ => rfl
  · cases v with
    | pointer p => rfl
    | _ => cases hkind

/-- A result is received in its declared kind, unless there is none: for void, and for a string at
    the null pointer. -/
theorem received_kind {raw : Value} {k : Kind} (h : raw.kind = k.carried) (m : Memory) :
    (raw.received m k ≠ .none → (raw.received m k).kind = k) ∧
      (raw.received m k = .none ↔ k = .void ∨ k = .string ∧ raw = .null) := by
  rcases eq_or_ne k .void with rfl | hvoid
  · exact ⟨fun hne => absurd rfl hne, fun _ => .inl rfl, fun _ => rfl⟩
  rcases eq_or_ne k .string with rfl | hstring
  · cases raw with
    | pointer p =>
      by_cases hp : p = .null
      · subst hp
        exact ⟨fun hne => absurd rfl hne, fun _ => .inr ⟨rfl, rfl⟩, fun _ => rfl⟩
      · rw [received_pointer_of_ne hp m]
        refine ⟨fun _ => rfl, fun hn => (by cases hn), fun hn => ?_⟩
        rcases hn with hn | ⟨_, hn⟩
        · cases hn
        · cases hn
          exact absurd rfl hp
    | _ => cases h
  · rw [received_eq_self hvoid hstring]
    have hkind : raw.kind = k := by
      cases k with
      | string => exact absurd rfl hstring
      | _ => exact h
    refine ⟨fun _ => hkind, fun hn => ?_, fun hn => ?_⟩
    · rw [hn] at hkind
      exact absurd hkind.symm hvoid
    · rcases hn with hn | ⟨hn, _⟩
      · exact absurd hn hvoid
      · exact absurd hn hstring

end Value

namespace Function

/-- What is pushed serves for the parameters, one for one. -/
theorem Fitted.serves {f : Function} {args ws : List Value} (h : f.Fitted args ws) :
    List.Forall₂ Value.Serves f.signature.params ws := by
  rw [List.forall₂_iff_get]
  refine ⟨h.length.symm, fun i hi hi' => ?_⟩
  have harg : i < args.length := by rw [h.count]; exact hi
  exact Value.serves_of_coerce (h.coerce_eq (List.getElem?_eq_getElem harg)
    (List.getElem?_eq_getElem hi) (List.getElem?_eq_getElem hi'))

/-- The interface that a call asks for is prepared for the native types of the signature. -/
theorem Fitted.nativeTypes {f : Function} {args ws : List Value} (h : f.Fitted args ws) :
    (f.asked ws).params.map Kind.nativeType = f.signature.params.map Kind.nativeType := by
  have hserves := h.serves
  rw [asked, List.map_map]
  clear h
  generalize f.signature.params = ks at hserves
  induction hserves with
  | nil => rfl
  | cons hfirst _ ih => rw [List.map_cons, List.map_cons, ih, Function.comp, hfirst.nativeType_eq]

/-- Calls are sound in their types. What a call that is carried out pushes serves for the
    parameters, one for one, and is never nothing; its storage has the types for which the interface
    of the call is prepared, which are those of the signature, and holds the words that cross. The
    result has the declared kind, and there is none exactly for void and for a null string. -/
theorem call_type_safe (enter : Prepared → Code ρ) {f : Function} {args : List Value} {g : Gate}
    {w : World ρ} {v : Value} (h : (f.call (Gate.machineThrough enter) args (g, w)).1 = .ok v) :
    let machine := Gate.machineThrough enter
    ∃ ws raw,
      (f.call machine.observed args ((g, []), w)).2.1.2 =
        [.reset, .setMode f.convention] ++ ws.map .push ++ [.invoke f.address f.signature.ret] ∧
      List.Forall₂ (fun k u => u ≠ .none ∧ (u.kind = k ∨ k = .string ∧ u.kind = .pointer))
        f.signature.params ws ∧
      (∀ w : World ρ, (Value.toSlots ws w).1.map Slot.type = (f.asked ws).prepare.params ∧
        (Value.toWords ws w).1 = (Value.toSlots ws w).1.map Slot.word) ∧
      (f.asked ws).prepare = ⟨f.convention.abi, f.signature.params.map Kind.nativeType,
        f.signature.ret.nativeType⟩ ∧
      (f.callRaw machine args (g, w)).1 = .ok raw ∧ (v ≠ .none → v.kind = f.signature.ret) ∧
      (v = .none ↔ f.signature.ret = .void ∨ f.signature.ret = .string ∧ raw = .null) := by
  intro machine
  cases hp : f.prepare args with
  | error e =>
    rw [call_of_refused _ (prepare_eq_error_iff.1 hp)] at h
    cases h
  | ok ws =>
    have hf : f.Fitted args ws := prepare_eq_ok_iff.1 hp
    obtain ⟨x, left, hraw⟩ : ∃ x left,
        f.callRaw machine args (g, w) = (.ok (.ofWord f.signature.ret x), left) :=
      ⟨_, _, callRaw_through enter hf g w⟩
    have hsteps : (f.call machine.observed args ((g, []), w)).2.1.2 = f.protocol ws := by
      rw [call_of_fitted _ hf, noted, CallMachine.follow_observed, List.nil_append]
      rfl
    have hv : (Value.ofWord f.signature.ret x).received left.2.memory f.signature.ret = v := by
      rw [call, hraw] at h
      exact Except.ok.inj h
    have hkind := Value.received_kind (Value.kind_ofWord f.signature.ret x) left.2.memory
    rw [hv] at hkind
    have htypes := hf.nativeTypes
    refine ⟨ws, .ofWord f.signature.ret x, hsteps, hf.serves, fun w => ⟨?_, ?_⟩, ?_, ?_, hkind⟩
    · rw [Value.types_toSlots, Interface.prepare, asked, List.map_map]
      rfl
    · rw [Value.toWords_eq_toSlots]
    · rw [Interface.prepare, htypes]
      rfl
    · rw [hraw]

/-- A function of a string and a `short` is called with an address and a `long`: the address and a
    `short` are pushed, and for a null result there is no string. -/
theorem call_with_address_for_string :
    let nothing : Prepared → Code Unit := fun _ _ _ w => (0, w)
    let f : Function :=
      ⟨⟨0x4000⟩, .cdecl, ⟨[.string, .integer .short], .string, by decide⟩⟩
    let args := [Value.pointer ⟨0x10⟩, Value.ofInt .long (-2)]
    (f.call (Gate.machineThrough nothing) args (.fresh, .start ())).1 = .ok .none ∧
      ∃ ws : List Value, ws = [.pointer ⟨0x10⟩, .ofInt .short (-2)] ∧
        List.Forall₂ (fun k u => u ≠ .none ∧ (u.kind = k ∨ k = .string ∧ u.kind = .pointer))
          f.signature.params ws ∧
        (Value.toSlots ws (.start ())).1 = [.address ⟨0x10⟩, .signed16 (-2)] ∧
        (Value.toSlots ws (.start ())).1.map Slot.type = [.address, .integer true 2] := by
  intro nothing f args
  have hcall : (f.call (Gate.machineThrough nothing) args (.fresh, .start ())).1 = .ok .none := rfl
  obtain ⟨ws, _, hsteps, hserves, hslots, _⟩ := call_type_safe nothing hcall
  have htaken : [Step.reset, .setMode .cdecl] ++
        [Value.pointer ⟨0x10⟩, .ofInt .short (-2)].map Step.push ++ [.invoke ⟨0x4000⟩ .string] =
      [Step.reset, .setMode .cdecl] ++ ws.map .push ++ [.invoke ⟨0x4000⟩ .string] := hsteps
  have hpushed := List.append_cancel_left (List.append_cancel_right htaken)
  obtain rfl := List.map_injective_iff.2 (fun _ _ => Step.push.inj) hpushed
  exact ⟨hcall, _, rfl, hserves, rfl, (hslots _).1⟩

end Function

end NativeGate
