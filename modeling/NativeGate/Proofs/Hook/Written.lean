import NativeGate.Proofs.Hook.Crossing

/-!
What callbacks write and what native code gets. A written value is compared with what was shown,
and where the two count as the same the word that came in goes on. That comparison is one of
numbers, so a callback that turns a zero into the other zero is not heard: this is the only value
that gets lost, on the way in and on the way out (`answer_written`).
-/

namespace NativeGate.Hook

/-! ### Arguments -/

/-- The value `u` goes on where the word `x` came in, `shown` was shown of it, and a callback left
    the value `a`, whose fitted form is `v`. -/
structure GoesOn (k : Kind) (x : UInt64) (shown a v u : Value) : Prop where
  zero : k ≠ .string → a.OppositeZeros (.ofWord k x) → u = .ofWord k x
  plain : k ≠ .string → ¬ a.OppositeZeros (.ofWord k x) → u = v
  kept : k = .string → shown = a → u = .ofWord k x
  replaced : k = .string → shown ≠ a → u = v

/-- For a parameter other than a string, what goes on is what the callback left, but for a zero that
    became the other zero. -/
theorem goesOn_plain {a v : Value} {k : Kind} {i : Nat} (x : UInt64) (m : Memory)
    (hvoid : k ≠ .void) (hstring : k ≠ .string) (hv : a.coerce k i = .ok v) :
    ∃ u, (if a.same ((Value.ofWord k x).received m k) then Value.ofWord k x else a).coerce k i =
        .ok u ∧ GoesOn k x ((Value.ofWord k x).received m k) a v u := by
  have hkind := Value.kind_ofWord k x
  rw [Value.received_carried hstring hkind]
  by_cases hsame : a.same (.ofWord k x) = true
  · rw [if_pos hsame, Value.coerce_carried hvoid hkind]
    refine ⟨_, rfl, fun _ ho => ?_, fun _ ho => ?_, fun h => absurd h hstring,
      fun h => absurd h hstring⟩
    · exact Value.settled_of_not_nan ho.symm.isNan_eq
    · rcases Value.same_iff.1 hsame with ⟨rfl, _⟩ | ho'
      · rw [Value.coerce_carried hvoid hkind, Except.ok.injEq] at hv
        exact hv
      · exact absurd ho' ho
  · rw [if_neg hsame]
    exact ⟨v, hv, fun _ ho => absurd (Value.same_iff.2 (.inr ho)) hsame, fun _ _ => rfl,
      fun h => absurd h hstring, fun h => absurd h hstring⟩

/-- For a string, what goes on is the caller's address where the callback left the text, and else
    what the callback left. -/
theorem goesOn_string {a v : Value} {i : Nat} (x : UInt64) (m : Memory)
    (hv : a.coerce .string i = .ok v) :
    let shown := (Value.ofWord .string x).received m .string
    ∃ u, (if a.same shown then Value.ofWord .string x else a).coerce .string i = .ok u ∧
      GoesOn .string x shown a v u := by
  intro shown
  have hkind := Value.kind_ofWord .string x
  have hsame : a.same shown = true ↔ a = shown := Value.same_received_string hkind m a
  by_cases heq : a = shown
  · rw [if_pos (hsame.2 heq), Value.coerce_carried (by decide) hkind,
      Value.settled_of_pointer hkind]
    exact ⟨_, rfl, fun h => absurd rfl h, fun h => absurd rfl h, fun _ _ => rfl,
      fun _ h => absurd heq.symm h⟩
  · rw [if_neg fun h => heq (hsame.1 h)]
    exact ⟨v, hv, fun h => absurd rfl h, fun h => absurd rfl h, fun _ h => absurd h.symm heq,
      fun _ _ => rfl⟩

theorem exists_goesOn {a v : Value} {k : Kind} {i : Nat} (x : UInt64) (m : Memory)
    (hvoid : k ≠ .void) (hv : a.coerce k i = .ok v) :
    ∃ u, (if a.same ((Value.ofWord k x).received m k) then Value.ofWord k x else a).coerce k i =
        .ok u ∧ GoesOn k x ((Value.ofWord k x).received m k) a v u := by
  by_cases hstring : k = .string
  · subst hstring
    exact goesOn_string x m hv
  · exact goesOn_plain x m hvoid hstring hv

/-- The arguments that go on fit when what callbacks left fits. -/
theorem exists_fitted_passed {f : Function} {args ws : List Value} {words : List UInt64}
    (hwords : words.length = f.signature.arity) (hfit : f.Fitted args ws) (m : Memory) :
    let raw := rawArguments f.signature words
    ∃ us, f.Fitted (passed args (shownArguments m f.signature raw) raw) us ∧
      ∀ (i : Nat) (k : Kind) (x : UInt64) (a v : Value), f.signature.params[i]? = some k →
        words[i]? = some x → args[i]? = some a → ws[i]? = some v →
        ∃ u, us[i]? = some u ∧ GoesOn k x ((Value.ofWord k x).received m k) a v u := by
  intro raw
  have hat : ∀ (i : Nat) (k : Kind), f.signature.params[i]? = some k →
      ∃ x a v, words[i]? = some x ∧ args[i]? = some a ∧ ws[i]? = some v := by
    intro i k hk
    have hi : i < f.signature.arity := (List.getElem?_eq_some_iff.1 hk).1
    exact ⟨_, _, _, List.getElem?_eq_getElem (hwords ▸ hi),
      List.getElem?_eq_getElem (hfit.count ▸ hi), List.getElem?_eq_getElem (hfit.length ▸ hi)⟩
  have hlen := length_passed_words m hwords hfit.count
  obtain ⟨us, hus⟩ := Function.exists_fitted hfit.nonNull hlen fun i p k hp hk => by
    obtain ⟨x, a, v, hx, ha, hv⟩ := hat i k hk
    obtain ⟨u, hu, _⟩ := exists_goesOn x m (Signature.ne_void hk) (hfit.coerce_eq ha hk hv)
    rw [(passed_words m hk hx ha).2, Option.some.injEq] at hp
    exact ⟨u, hp ▸ hu⟩
  refine ⟨us, hus, fun i k x a v hk hx ha hv => ?_⟩
  obtain ⟨u, hu, h⟩ := exists_goesOn x m (Signature.ne_void hk) (hfit.coerce_eq ha hk hv)
  obtain ⟨u', hu', hc⟩ := hus.each i _ k (passed_words m hk hx ha).2 hk
  rw [hu, Except.ok.injEq] at hc
  exact ⟨u, hc ▸ hu', h⟩

section Entry
variable {ρ : Type} {f : Function} {us : List Value} {w : World ρ} {i : Nat} {k : Kind}
  {x y : UInt64} {shown a v u : Value}

/-- The word of an argument other than a string is that of what the callback left, exactly unless
    this is the other zero. -/
theorem GoesOn.word_plain (h : GoesOn k x shown a v u) (hvoid : k ≠ .void) (hstring : k ≠ .string)
    (hc : a.coerce k i = .ok v) (hu : us[i]? = some u) (hy : (entry f us w).1[i]? = some y) :
    (y = v.word ↔ ¬ a.OppositeZeros (.ofWord k x)) ∧
      (a.OppositeZeros (.ofWord k x) → y = (Value.ofWord k x).word) := by
  have hcarried := Value.kind_ofWord k x
  by_cases ho : a.OppositeZeros (.ofWord k x)
  · have hy' : y = (Value.ofWord k x).word := by
      rw [entry_word (h.zero hstring ho ▸ hu) (Value.not_string_of_carried hcarried) hy]
    have hva : v = a := by
      rw [Value.coerce_carried hvoid (ho.kind_eq ▸ hcarried),
        Value.settled_of_not_nan ho.isNan_eq] at hc
      exact (Except.ok.inj hc).symm
    refine ⟨⟨fun hw => ?_, fun hn => absurd ho hn⟩, fun _ => hy'⟩
    rw [hy', hva] at hw
    exact absurd hw.symm ho.word_ne
  · have hvs : ∀ s, v ≠ .string s := by
      rintro s rfl
      exact hstring (Value.kind_of_coerce hstring hc).symm
    have hy' : y = v.word := entry_word (h.plain hstring ho ▸ hu) hvs hy
    exact ⟨⟨fun _ => ho, fun _ => hy'⟩, fun hn => absurd hn ho⟩

/-- The word of a string argument is the caller's where the callback left the text. -/
theorem GoesOn.word_string (h : GoesOn .string x shown a v u) (hc : a.coerce .string i = .ok v)
    (hu : us[i]? = some u) (hy : (entry f us w).1[i]? = some y) :
    (shown = a → y = x) ∧
      (shown ≠ a → v.kind = .pointer ∧ y = v.word ∨
        ∃ s, v = .string s ∧ ((entry f us w).2.memory.frontier ≤ 2 ^ 64 →
          (entry f us w).2.memory.cstring ⟨y⟩ = s)) := by
  constructor
  · intro hkept
    rw [entry_word (h.kept rfl hkept ▸ hu)
      (Value.not_string_of_carried (Value.kind_ofWord .string x)) hy, Value.word_ofWord rfl]
  · intro hreplaced
    rcases Value.kind_of_coerce_string hc with ⟨s, rfl⟩ | hp
    · exact .inr ⟨s, rfl, entry_text (h.replaced rfl hreplaced ▸ hu) hy⟩
    · refine .inl ⟨hp, entry_word (h.replaced rfl hreplaced ▸ hu) ?_ hy⟩
      rintro s rfl
      cases hp

end Entry

/-! ### Results -/

/-- For a result other than a string, the value that comes out of the callbacks crosses back, but
    for a zero that became the other zero. -/
theorem encodeResult_returned {ρ : Type} (hook : HookId) {k : Kind}
    {outcome : Stage.Outcome (Value × Value)} {v : Value} (hvoid : k ≠ .void)
    (hstring : k ≠ .string)
    (hleft : ∀ seen raw, outcome.left = some (seen, raw) →
      seen = raw ∧ (raw = .none ∨ raw.kind = k.carried))
    (hv : outcome.value.coerce k 0 = .ok v) (w : World ρ) :
    let out := (encodeResult hook k (returned outcome) w).1
    (out = v.word ↔
      ∀ seen raw, outcome.left = some (seen, raw) → ¬ seen.OppositeZeros outcome.value) ∧
    ∀ seen raw, outcome.left = some (seen, raw) → seen.OppositeZeros outcome.value →
      out = raw.word := by
  intro out
  obtain ⟨value, left⟩ := outcome
  have hplain : returned ⟨value, left⟩ = value → out = v.word := by
    intro h
    rw [show out = (encodeResult hook k (returned ⟨value, left⟩) w).1 from rfl, h,
      encodeResult_of_coerce hook hstring hv]
  cases left with
  | none =>
    refine ⟨⟨?_, fun _ => hplain rfl⟩, ?_⟩
    · rintro _ _ _ ⟨⟩
    · rintro _ _ ⟨⟩
  | some p =>
    obtain ⟨seen, raw⟩ := p
    obtain ⟨rfl, hkind⟩ := hleft seen raw rfl
    by_cases ho : seen.OppositeZeros value
    · have hout : out = seen.word := by
        have hcarried : seen.kind = k.carried := by
          rcases hkind with rfl | h
          · exact ho.elim
          · exact h
        have hback : returned ⟨value, some (seen, seen)⟩ = seen :=
          if_pos (Value.same_iff.2 (.inr ho))
        rw [show out = (encodeResult hook k (returned ⟨value, some (seen, seen)⟩) w).1 from rfl,
          hback, encodeResult_carried hook hcarried, Value.settled_of_not_nan ho.isNan_eq]
      have hvalue : v = value := by
        have hcarried : value.kind = k.carried := by
          rcases hkind with rfl | h
          · exact ho.elim
          · exact ho.kind_eq ▸ h
        rw [Value.coerce_carried hvoid hcarried, Value.settled_of_not_nan ho.symm.isNan_eq] at hv
        exact (Except.ok.inj hv).symm
      refine ⟨⟨fun h => ?_, fun h => absurd ho (h _ _ rfl)⟩, ?_⟩
      · rw [hout, hvalue] at h
        exact absurd h ho.word_ne
      · rintro _ _ ⟨⟩ _
        exact hout
    · have hback : returned ⟨value, some (seen, seen)⟩ = value := by
        by_cases hsame : seen.same value = true
        · rcases Value.same_iff.1 hsame with ⟨rfl, _⟩ | h
          · exact ite_self _
          · exact absurd h ho
        · exact if_neg hsame
      refine ⟨⟨?_, fun _ => hplain hback⟩, ?_⟩
      · rintro _ _ _ ⟨⟩
        exact ho
      · rintro _ _ ⟨⟩ h
        exact absurd h ho

/-! ### The redirected call -/

/-- Where no pre callback overrides and what they leave fits, the moved code is entered once. For a
    parameter other than a string it gets the value that callbacks left, fitted to its kind, exactly
    unless that value is the opposite zero of the one that came in, and then it gets the one that
    came in. For a string it gets the caller's own address where the text was left, and else the
    string or address that was put in its place. For a result other than a string, whatever value
    comes out of the callbacks crosses back, fitted to its kind, with the same one exception. -/
theorem answer_written {χ ρ : Type} (stage : Stage χ (World ρ)) (hook : HookId) (f : Function)
    (words : List UInt64) (hwords : words.length = f.signature.arity) (w : World ρ) :
    let raw := rawArguments f.signature words
    let shown := shownArguments w.memory f.signature raw
    (∀ call w₁ ws, stage.run hook .pre ⟨.pre, shown, .none⟩ w = (none, call, w₁) →
      f.Fitted call.args ws →
      ∃ xs u before, xs.length = f.signature.arity ∧
        (∀ code, answer stage code hook f words w =
          resume stage hook f call.args before (code f.address xs u)) ∧
        ∀ (i : Nat) (k : Kind) (x : UInt64) (a v : Value) (y : UInt64),
          f.signature.params[i]? = some k → words[i]? = some x → call.args[i]? = some a →
          ws[i]? = some v → xs[i]? = some y →
          (k ≠ .string → (y = v.word ↔ ¬ a.OppositeZeros (.ofWord k x)) ∧
            (a.OppositeZeros (.ofWord k x) → y = (Value.ofWord k x).word)) ∧
          (k = .string → (shown[i]? = some a → y = x) ∧
            (shown[i]? ≠ some a → v.kind = .pointer ∧ y = v.word ∨
              ∃ s, v = .string s ∧
                (u.memory.frontier ≤ 2 ^ 64 → u.memory.cstring ⟨y⟩ = s)))) ∧
    ∀ code v, f.signature.ret ≠ .void → f.signature.ret ≠ .string →
      let outcome := (stage.dispatch hook shown (runMoved code hook f shown raw) w).1
      outcome.value.coerce f.signature.ret 0 = .ok v →
      ((answer stage code hook f words w).1 = v.word ↔
        ∀ seen raw, outcome.left = some (seen, raw) → ¬ seen.OppositeZeros outcome.value) ∧
      ∀ seen raw, outcome.left = some (seen, raw) → seen.OppositeZeros outcome.value →
        (answer stage code hook f words w).1 = raw.word := by
  intro raw shown
  constructor
  · intro call w₁ ws hpre hfit
    obtain ⟨us, hus, heach⟩ := exists_fitted_passed hwords hfit w.memory
    refine ⟨(entry f us w₁).1, { (entry f us w₁).2 with ledger := .empty },
      (entry f us w₁).2.ledger, length_entry hus w₁,
      fun code => answer_eq_resume stage code hook hpre hus, ?_⟩
    intro i k x a v y hk hx ha hv hy
    obtain ⟨u, hu, h⟩ := heach i k x a v hk hx ha hv
    have hc := hfit.coerce_eq ha hk hv
    have hshown : shown[i]? = some ((Value.ofWord k x).received w.memory k) :=
      (passed_words w.memory hk hx ha).1
    refine ⟨fun hstring => h.word_plain (Signature.ne_void hk) hstring hc hu hy, ?_⟩
    rintro rfl
    rw [hshown, ne_eq, Option.some.injEq]
    exact h.word_string hc hu hy
  · intro code v hvoid hstring outcome hv
    have hleft : ∀ seen raw', outcome.left = some (seen, raw') →
        seen = raw' ∧ (raw' = .none ∨ raw'.kind = f.signature.ret.carried) := by
      intro seen raw' h
      obtain ⟨args, w', hb⟩ := left_dispatch stage hook shown _ w h
      have hkind := kind_callMoved code hook f (passed args shown raw) w'
      rw [runMoved, Prod.mk.injEq] at hb
      obtain ⟨rfl, rfl⟩ := hb
      exact ⟨Value.received_eq_self hvoid hstring _ _, hkind⟩
    exact encodeResult_returned hook hvoid hstring hleft hv _

/-! ### One argument, one callback -/

/-- A stage with one callback, which writes a value over the only argument and over the result. -/
def writing (phase : Phase) (v : Value) : Stage Unit (World Unit) where
  table _ := ⟨[⟨⟨1⟩, phase, ()⟩]⟩
  note e w := w.note e
  act _ call w := (.proceed, { call with args := [v], result := v }, w)

/-- A function from `double` to `double`. -/
def unary : Function := ⟨⟨0x4000⟩, .cdecl, ⟨[.double], .double, by decide⟩⟩

/-- Code that gives its first argument word back. -/
def echo : Code Unit := fun _ words w => (words.headD 0, w)

/-- Where one is written over two, the moved code is entered with one. -/
theorem answer_writing_one :
    ([0x4000000000000000] : List UInt64).length = unary.signature.arity ∧
    ∃ u before, ∀ code, answer (writing .pre (.double ⟨0x3ff0000000000000⟩)) code ⟨1⟩ unary
        [0x4000000000000000] (.start ()) =
      resume (writing .pre (.double ⟨0x3ff0000000000000⟩)) ⟨1⟩ unary
        [.double ⟨0x3ff0000000000000⟩] before (code unary.address [0x3ff0000000000000] u) := by
  have hwords : ([0x4000000000000000] : List UInt64).length = unary.signature.arity := rfl
  obtain ⟨hargs, _⟩ := answer_written (writing .pre (.double ⟨0x3ff0000000000000⟩)) ⟨1⟩ unary
    [0x4000000000000000] hwords (.start ())
  have hfit : unary.Fitted [.double ⟨0x3ff0000000000000⟩] [.double ⟨0x3ff0000000000000⟩] :=
    Function.fitted_of_prepare rfl
  obtain ⟨xs, u, before, hlen, hrun, heach⟩ := hargs _ _ _ rfl hfit
  have hxs : xs = [0x3ff0000000000000] := by
    obtain ⟨y, rfl⟩ : ∃ y, xs = [y] := List.length_eq_one_iff.1 hlen
    have hone : ¬ (Value.double ⟨0x3ff0000000000000⟩).OppositeZeros
        (.ofWord .double 0x4000000000000000) := by
      rintro (⟨h, _⟩ | ⟨h, _⟩) <;> cases h
    have hy := ((heach 0 .double _ _ _ y rfl rfl rfl rfl rfl).1 (by decide)).1.2 hone
    rw [hy]
    rfl
  subst hxs
  exact ⟨hwords, u, before, hrun⟩

/-- A negative zero that is written over zero is lost, as an argument and as a result. -/
theorem answer_writing_negative_zero :
    let negative := Value.double ⟨0x8000000000000000⟩
    let shown := shownArguments Memory.empty unary.signature (rawArguments unary.signature [0])
    let target := runMoved echo ⟨1⟩ unary shown (rawArguments unary.signature [0])
    (∃ w₁, (writing .pre negative).run ⟨1⟩ .pre ⟨.pre, shown, .none⟩ (.start ()) =
        (none, ⟨.pre, [negative], negative⟩, w₁) ∧ unary.Fitted [negative] [negative] ∧
      (answer (writing .pre negative) echo ⟨1⟩ unary [0] (.start ())).1 ≠ negative.word) ∧
    ((writing .post negative).dispatch ⟨1⟩ shown target (.start ())).1.value = negative ∧
    negative.coerce unary.signature.ret 0 = .ok negative ∧
    (answer (writing .post negative) echo ⟨1⟩ unary [0] (.start ())).1 ≠ negative.word := by
  intro negative shown target
  refine ⟨⟨_, rfl, Function.fitted_of_prepare rfl, ?_⟩, rfl, rfl, ?_⟩
  · decide +kernel
  · decide +kernel

end NativeGate.Hook
