import NativeGate.Layout.Instance
import NativeGate.Proofs.Outcome

/-!
Results and what the registry makes of them. A converter wraps an address that is not null, and
leaves everything else alone; what it wraps can be unwrapped, so nothing is lost but where the
converter is not registered, and nothing is made up (`Types.Conveys`). Fields and bound methods come
by a plain result first and have it converted then, so all of this holds through them, whichever way
the method is called (`conversion_keeps_results`).
-/

namespace NativeGate.Layout

/-! ### Conversion -/

namespace Types

/-- What is shown of a plain result, with the named converter or else the default one. It fails just
    where there is no plain result, and where an address that is not null meets a converter that is
    not registered. Everything shown is the plain result once it is unwrapped. It is an instance
    just where an address that is not null meets a registered converter, and then it has the address
    and the layout that the registry has for the converter. -/
structure Conveys (t : Types) (own : Option String) (plain : Except Error Value)
    (shown : Except Error Member) : Prop where
  lost : ∀ e, shown = .error e ↔ plain = .error e ∨ ∃ p name, plain = .ok (.pointer p) ∧
    p ≠ .null ∧ own.or t.defaultConverter = some name ∧ t.layouts.find? name = none ∧
    e = .unknownMember "TypeManager" name
  kept : ∀ m, shown = .ok m → plain = .ok m.plain
  wrapped : ∀ i, shown = .ok (.wrapped i) ↔ ∃ p name l, plain = .ok (.pointer p) ∧ p ≠ .null ∧
    own.or t.defaultConverter = some name ∧ t.layouts.find? name = some l ∧ i = ⟨p, l, .registry⟩

variable {t : Types} {own : Option String} {v : Value} {m : Member} {i : Instance} {p : Address}
  {name : String} {e : Error}

/-- Whether a converter meets an address that is not null. -/
theorem wraps_or_plain (t : Types) (own : Option String) (v : Value) :
    (∃ p name, v = .pointer p ∧ p ≠ .null ∧ own.or t.defaultConverter = some name) ∨
      (own.or t.defaultConverter = none ∨ ∀ p, v = .pointer p → p = .null) := by
  cases happlies : own.or t.defaultConverter with
  | none => exact .inr (.inl rfl)
  | some name =>
    by_cases hp : ∃ p, v = .pointer p ∧ p ≠ .null
    · obtain ⟨p, hv, hp⟩ := hp
      exact .inl ⟨p, name, hv, hp, rfl⟩
    · exact .inr (.inr fun p hv => Decidable.byContradiction fun hne => hp ⟨p, hv, hne⟩)

theorem convert_pointer (happlies : own.or t.defaultConverter = some name) (hp : p ≠ .null) :
    t.convert own (.pointer p) = (t.view name p).map .wrapped := by
  unfold convert
  rw [happlies]
  exact if_neg fun hnull => hp (Address.isNull_iff.1 hnull)

theorem convert_plain (h : own.or t.defaultConverter = none ∨ ∀ p, v = .pointer p → p = .null) :
    t.convert own v = .ok (.value v) := by
  unfold convert
  split
  · rename_i name p happlies
    rcases h with hnone | hnull
    · rw [hnone] at happlies
      cases happlies
    · exact if_pos (Address.isNull_iff.2 (hnull p rfl))
  · rfl

theorem view_eq_ok_iff :
    t.view name p = .ok i ↔ ∃ l, t.layouts.find? name = some l ∧ i = ⟨p, l, .registry⟩ := by
  rw [view, layout, get?]
  cases t.layouts.find? name <;> simp [Except.map, eq_comm]

theorem view_eq_error_iff :
    t.view name p = .error e ↔
      t.layouts.find? name = none ∧ e = .unknownMember "TypeManager" name := by
  rw [view, layout, get?]
  cases t.layouts.find? name <;> simp [Except.map, eq_comm]

/-- A value is shown as an instance of its address, or as it is. -/
theorem convert_eq_ok_iff :
    t.convert own v = .ok m ↔
      (∃ p name l, v = .pointer p ∧ p ≠ .null ∧ own.or t.defaultConverter = some name ∧
        t.layouts.find? name = some l ∧ m = .wrapped ⟨p, l, .registry⟩) ∨
      (own.or t.defaultConverter = none ∨ ∀ p, v = .pointer p → p = .null) ∧ m = .value v := by
  constructor
  · intro h
    rcases t.wraps_or_plain own v with ⟨p, name, rfl, hp, happlies⟩ | hplain
    · rw [convert_pointer happlies hp] at h
      obtain ⟨i, hview, rfl⟩ := Except.map_eq_ok_iff.1 h
      obtain ⟨l, hl, rfl⟩ := view_eq_ok_iff.1 hview
      exact .inl ⟨p, name, l, rfl, hp, happlies, hl, rfl⟩
    · rw [convert_plain hplain] at h
      cases h
      exact .inr ⟨hplain, rfl⟩
  · rintro (⟨p, name, l, rfl, hp, happlies, hl, rfl⟩ | ⟨hplain, rfl⟩)
    · rw [convert_pointer happlies hp]
      exact Except.map_eq_ok_iff.2 ⟨_, view_eq_ok_iff.2 ⟨l, hl, rfl⟩, rfl⟩
    · exact convert_plain hplain

/-- A registry fails to convert for one reason: the converter of an address is not registered. -/
theorem convert_eq_error_iff :
    t.convert own v = .error e ↔ ∃ p name, v = .pointer p ∧ p ≠ .null ∧
      own.or t.defaultConverter = some name ∧ t.layouts.find? name = none ∧
      e = .unknownMember "TypeManager" name := by
  constructor
  · intro h
    rcases t.wraps_or_plain own v with ⟨p, name, rfl, hp, happlies⟩ | hplain
    · rw [convert_pointer happlies hp, Except.map_eq_error_iff] at h
      exact ⟨p, name, rfl, hp, happlies, view_eq_error_iff.1 h⟩
    · rw [convert_plain hplain] at h
      cases h
  · rintro ⟨p, name, rfl, hp, happlies, hmissing⟩
    rw [convert_pointer happlies hp, Except.map_eq_error_iff]
    exact view_eq_error_iff.2 hmissing

/-- What is shown is the value once it is unwrapped. -/
theorem plain_of_convert (h : t.convert own v = .ok m) : m.plain = v := by
  rcases convert_eq_ok_iff.1 h with ⟨p, name, l, rfl, -, -, -, rfl⟩ | ⟨-, rfl⟩ <;> rfl

theorem convert_eq_wrapped_iff :
    t.convert own v = .ok (.wrapped i) ↔ ∃ p name l, v = .pointer p ∧ p ≠ .null ∧
      own.or t.defaultConverter = some name ∧ t.layouts.find? name = some l ∧
        i = ⟨p, l, .registry⟩ := by
  rw [convert_eq_ok_iff]
  constructor
  · rintro (⟨p, name, l, hv, hp, happlies, hl, ⟨⟩⟩ | ⟨-, ⟨⟩⟩)
    exact ⟨p, name, l, hv, hp, happlies, hl, rfl⟩
  · rintro ⟨p, name, l, hv, hp, happlies, hl, rfl⟩
    exact .inl ⟨p, name, l, hv, hp, happlies, hl, rfl⟩

/-- A result that is converted is conveyed. -/
theorem conveys_bind (t : Types) (own : Option String) (plain : Except Error Value) :
    t.Conveys own plain (plain.bind (t.convert own)) where
  lost e := by
    rw [Except.bind_eq_error_iff]
    refine or_congr_right ?_
    constructor
    · rintro ⟨v, hplain, h⟩
      obtain ⟨p, name, rfl, hmissing⟩ := convert_eq_error_iff.1 h
      exact ⟨p, name, hplain, hmissing⟩
    · rintro ⟨p, name, hplain, hmissing⟩
      exact ⟨_, hplain, convert_eq_error_iff.2 ⟨p, name, rfl, hmissing⟩⟩
  kept m h := by
    obtain ⟨v, hplain, h⟩ := Except.bind_eq_ok_iff.1 h
    rw [hplain, plain_of_convert h]
  wrapped i := by
    rw [Except.bind_eq_ok_iff]
    constructor
    · rintro ⟨v, hplain, h⟩
      obtain ⟨p, name, l, rfl, hwrapped⟩ := convert_eq_wrapped_iff.1 h
      exact ⟨p, name, l, hplain, hwrapped⟩
    · rintro ⟨p, name, l, hplain, hwrapped⟩
      exact ⟨_, hplain, convert_eq_wrapped_iff.2 ⟨p, name, l, rfl, hwrapped⟩⟩

end Types

/-! ### Fields -/

namespace Instance

/-- The plain value of a field that may be read. -/
def plain (i : Instance) (m : Memory) (name : String) : Except Error Value :=
  (i.field name).bind fun a =>
    if a.access.readable then i.load m a else .error (.attributeAccess name false)

/-- The converter that the layout names for a field. -/
def converter (i : Instance) (name : String) : Option String :=
  (i.layout.attributes.find? name).bind Attribute.converter

theorem get_eq (i : Instance) (m : Memory) (t : Types) (name : String) :
    i.get m t name = (i.field name).bind fun a =>
      if a.access.readable then (i.load m a).bind ((i.scope.types t).convert a.converter)
      else .error (.attributeAccess name false) := by
  rw [get]
  cases i.field name with
  | error e => rfl
  | ok a =>
    simp only [Bind.bind, Except.bind]
    cases a.access.readable <;> rfl

/-- Reading a field is converting its plain value. -/
theorem get_eq_bind (i : Instance) (m : Memory) (t : Types) (name : String) :
    i.get m t name = (i.plain m name).bind ((i.scope.types t).convert (i.converter name)) := by
  rw [get_eq, plain, converter, field]
  cases i.layout.attributes.find? name with
  | none => rfl
  | some a => cases ha : a.access.readable <;> simp [Except.bind, ha]

end Instance

/-! ### Methods -/

namespace BoundMethod

/-- The registry that a method looks for converters in, an empty one where results stay plain. -/
def types (b : BoundMethod) (t : Types) : Types := b.conversion.elim .empty fun c => c.1.types t

/-- The converter that a method names. -/
def converter (b : BoundMethod) : Option String := b.conversion.bind Prod.snd

theorem convert_eq (b : BoundMethod) (t : Types) :
    b.convert t = (b.types t).convert b.converter := by
  funext v
  unfold convert types converter
  cases b.conversion with
  | none => cases v <;> rfl
  | some c => rfl

end BoundMethod

/-- Conversion neither loses nor invents a result. In every state of the registry, a value is
    refused just where it is an address that is not null and the converter that applies, the named
    one or else the default one, is not registered; otherwise it is shown as an instance with this
    address and the layout registered then, just where there is such a converter and address, and
    as it is where not, so that unwrapping always gives the value back. The same holds of a field
    that is read, whatever the registry was when the instance was made, of its plain value, and of a
    method that is called through a machine, the shared gate or past its hook, of the result of its
    function; the call leaves what the call of the function leaves. -/
theorem conversion_keeps_results {μ ρ υ χ ε : Type} (t : Types) :
    (∀ (own : Option String) (v : Value), t.Conveys own (.ok v) (t.convert own v)) ∧
    (∀ (i : Instance) (m : Memory) (name : String),
      (i.scope.types t).Conveys (i.converter name) (i.plain m name) (i.get m t name)) ∧
    ∀ (b : BoundMethod) (args : List Value),
      (∀ (m : CallMachine μ ρ) (s : μ × World ρ),
        let r := b.function.call m (.pointer b.this :: args) s
        (b.types t).Conveys b.converter r.1 (b.call t m args s).1 ∧ (b.call t m args s).2 = r.2) ∧
      (∀ (code : Code (Thread υ)) (w : World (Thread υ)),
        let r := b.function.callShared code (.pointer b.this :: args) w
        (b.types t).Conveys b.converter r.1 (b.callShared t code args w).1 ∧
          (b.callShared t code args w).2 = r.2) ∧
      ∀ (E : Hook.Engine ε) (hooks : Hook.Registry χ ε) (m : CallMachine μ ρ) (s : μ × World ρ),
        let r := Hook.callUnhooked E hooks m b.function (.pointer b.this :: args) s
        (b.types t).Conveys b.converter r.1 (b.callUnhooked t E hooks m args s).1 ∧
          (b.callUnhooked t E hooks m args s).2 = r.2 := by
  refine ⟨fun own v => t.conveys_bind own (.ok v), fun i m name => ?_, fun b args => ?_⟩
  · rw [Instance.get_eq_bind]
    exact Types.conveys_bind ..
  · have hconveys : ∀ plain : Except Error Value,
        (b.types t).Conveys b.converter plain (plain.bind (b.convert t)) := fun plain => by
      rw [BoundMethod.convert_eq]
      exact Types.conveys_bind ..
    exact ⟨fun m s => ⟨hconveys _, rfl⟩, fun code w => ⟨hconveys _, rfl⟩,
      fun E hooks m s => ⟨hconveys _, rfl⟩⟩

end NativeGate.Layout
