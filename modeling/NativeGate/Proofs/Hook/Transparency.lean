import NativeGate.Hook.Host
import NativeGate.Proofs.Hook.Crossing

/-!
Hooks that change nothing. When all callbacks of a hook proceed and leave the call as they find it,
the redirected call enters the hooked code once, with the caller's arguments, and hands its result
back (`answer_untouched`). For code that is a function of its arguments and of what it reads in
memory, calling the hooked function, calling past the hook and calling before the hook was installed
all give the same value, up to the payload of a NaN (`hook_transparent`).
-/

namespace NativeGate.Hook

/-! ### Arguments that nobody changes -/

/-- What was shown of a carried value counts as the value left alone, or is the value itself. -/
theorem untouched {v : Value} {k : Kind} (h : v.kind = k.carried) (m : Memory) :
    (if (v.received m k).same (v.received m k) then v else v.received m k) = v := by
  by_cases hk : k = .string
  · subst hk
    rw [if_pos ((Value.same_received_string h m _).2 rfl)]
  · rw [Value.received_carried hk h, ite_self]

theorem passed_untouched {sig : Signature} {words : List UInt64} (h : words.length = sig.arity)
    (m : Memory) :
    passed (shownArguments m sig (rawArguments sig words))
      (shownArguments m sig (rawArguments sig words)) (rawArguments sig words) =
        rawArguments sig words := by
  have hraw := length_rawArguments h
  have hlen := length_passed_words m h (length_shownArguments (m := m) hraw)
  apply List.ext_getElem? fun i => ?_
  by_cases hi : i < sig.arity
  · have hi' : i < words.length := h ▸ hi
    have hk : sig.params[i]? = some (sig.params[i]) := List.getElem?_eq_getElem hi
    have hx : words[i]? = some (words[i]) := List.getElem?_eq_getElem hi'
    have hr := rawArguments_getElem? hk hx
    have hs := shownArguments_getElem? m hk hr
    rw [(passed_words m hk hx hs).2, hr, untouched (Value.kind_ofWord ..)]
  · rw [List.getElem?_eq_none (by omega), List.getElem?_eq_none (by omega)]

/-- Raw arguments fit the parameters they were decoded for, and none of them is a string. -/
theorem exists_fitted_raw {f : Function} {words : List UInt64} (hf : f.address ≠ .null)
    (h : words.length = f.signature.arity) :
    ∃ us, f.Fitted (rawArguments f.signature words) us ∧ (∀ u ∈ us, ∀ s, u ≠ .string s) ∧
      ∀ (i : Nat) (k : Kind) (x : UInt64), f.signature.params[i]? = some k → words[i]? = some x →
        us[i]? = some (Value.ofWord k x).settled := by
  have hc : ∀ (i : Nat) (k : Kind) (x : UInt64), f.signature.params[i]? = some k →
      (Value.ofWord k x).coerce k i = .ok (Value.ofWord k x).settled := by
    intro i k x hk
    exact Value.coerce_carried (Signature.ne_void hk) (Value.kind_ofWord k x) i
  have hat : ∀ i < f.signature.arity, ∃ k x, f.signature.params[i]? = some k ∧
      words[i]? = some x := fun i hi =>
    ⟨_, _, List.getElem?_eq_getElem hi, List.getElem?_eq_getElem (h ▸ hi)⟩
  obtain ⟨us, hus⟩ := Function.exists_fitted hf (length_rawArguments h) fun i v k hv hk => by
    obtain ⟨k', x, hk', hx⟩ := hat i (List.getElem?_eq_some_iff.1 hk).1
    rw [rawArguments_getElem? hk hx, Option.some.injEq] at hv
    exact ⟨_, hv ▸ hc i k x hk⟩
  have hus' : ∀ (i : Nat) (k : Kind) (x : UInt64), f.signature.params[i]? = some k →
      words[i]? = some x → us[i]? = some (Value.ofWord k x).settled := by
    intro i k x hk hx
    obtain ⟨u, hu, hcu⟩ := hus.each i _ k (rawArguments_getElem? hk hx) hk
    rw [hc i k x hk, Except.ok.injEq] at hcu
    rw [hu, hcu]
  refine ⟨us, hus, fun u hu => ?_, hus'⟩
  obtain ⟨i, hi, rfl⟩ := List.getElem_of_mem hu
  obtain ⟨k, x, hk, hx⟩ := hat i (hus.length ▸ hi)
  have hk' : us[i].kind = k.carried := by
    have hsettled := hus' i k x hk hx
    rw [List.getElem?_eq_getElem hi, Option.some.injEq] at hsettled
    rw [hsettled, Value.kind_settled, Value.kind_ofWord]
  exact Value.not_string_of_carried hk'

/-- What a result nobody changes crosses back as. -/
theorem returned_untouched {v : Value} {k : Kind} (h : v.kind = k.carried) (m : Memory) :
    returned ⟨v.received m k, some (v.received m k, v)⟩ = v := untouched h m

/-! ### Callbacks that only look -/

section Onlookers
variable {χ υ α : Type}

/-- Native code at one address; it is given the means to run other code. -/
abbrev Body (χ υ : Type) : Type :=
  HostCode χ υ → List UInt64 → HostWorld χ υ → UInt64 × HostWorld χ υ

/-- The hook `d` stands in a registry: its moved code is found where it was moved to, nothing else
    redirects it there, and its callbacks are among `S`. -/
structure Standing (d : Detour) (S : χ → Prop) (r : Registry χ Detours) : Prop where
  moved : r.engine.movedTo? d.record.unhooked = some d
  plain : r.engine.at? d.record.unhooked = none
  watched : ∀ phase, ∀ c ∈ r.table.snapshot d.record.id phase, S c

/-- The callbacks of `S` proceed and leave the call as they find it. Whatever else they do, the hook
    goes on standing and what `view` shows of memory stays. -/
def Onlookers (e : Environment χ υ) (code : HostCode χ υ) (view : Memory → α) (d : Detour)
    (S : χ → Prop) : Prop :=
  ∀ c, S c → ∀ call w, Standing d S (Environment.registry w) →
    ∃ w', e.act code c call w = (.proceed, call, w') ∧ Standing d S (Environment.registry w') ∧
      view w'.memory = view w.memory

variable {e : Environment χ υ} {code : HostCode χ υ} {view : Memory → α} {d : Detour} {S : χ → Prop}

theorem runAll_onlookers (hon : Onlookers e code view d S) (phase : Phase) {cs : List χ}
    (hcs : ∀ c ∈ cs, S c) (call : HookCall) {w : HostWorld χ υ}
    (h : Standing d S (Environment.registry w)) :
    ∃ w', (e.stage code).runAll phase cs call w = (none, call, w') ∧
      Standing d S (Environment.registry w') ∧ view w'.memory = view w.memory := by
  induction cs generalizing w with
  | nil => exact ⟨w, rfl, h, rfl⟩
  | cons c cs ih =>
    obtain ⟨w₁, hact, h₁, hview₁⟩ := hon c (hcs c List.mem_cons_self) call w h
    obtain ⟨w₂, hrest, h₂, hview₂⟩ := ih (fun c hc => hcs c (List.mem_cons_of_mem _ hc)) h₁
    refine ⟨w₂, ?_, h₂, hview₂.trans hview₁⟩
    have hact' : (e.stage code).act c call w = (.proceed, call, w₁) := hact
    simp only [Stage.runAll, hact', hrest]

/-- A phase with onlookers alone leaves the call, the hook and the view. -/
theorem run_onlookers (hon : Onlookers e code view d S) (phase : Phase) (call : HookCall)
    {w : HostWorld χ υ} (h : Standing d S (Environment.registry w)) :
    ∃ w', (e.stage code).run d.record.id phase call w = (none, call, w') ∧
      Standing d S (Environment.registry w') ∧ view w'.memory = view w.memory := by
  have hcs := h.watched phase
  have htable : (e.stage code).table w = (Environment.registry w).table := rfl
  unfold Stage.run
  rw [htable]
  split
  · exact ⟨w, rfl, h, rfl⟩
  · exact runAll_onlookers hon phase hcs call h

/-! ### Where code is found -/

/-- Moved code is the code of the function that its hook redirects. -/
theorem code_moved {a : Address} {w : HostWorld χ υ} (n : Nat)
    (h : Standing d S (Environment.registry w)) (htarget : d.record.target = a)
    {body : Body χ υ} (hbody : e.native? a = some body) (words : List UInt64) :
    e.code (n + 1) d.record.unhooked words w = body (e.code n) words w := by
  have hat : Environment.codeAt w d.record.unhooked = a := by
    rw [Environment.codeAt, h.moved, ← htarget]
  simp only [Environment.code, h.plain, hat, hbody]

/-- Code that no hook has touched is found where it is. -/
theorem code_free {a : Address} {w : HostWorld χ υ} (n : Nat)
    (hat : (Environment.registry w).engine.at? a = none)
    (hmoved : (Environment.registry w).engine.movedTo? a = none)
    {body : Body χ υ} (hbody : e.native? a = some body) (words : List UInt64) :
    e.code (n + 1) a words w = body (e.code n) words w := by
  have hcode : Environment.codeAt w a = a := by
    rw [Environment.codeAt, hmoved]
  simp only [Environment.code, hat, hcode, hbody]

/-- A call of a hooked function is answered for the function at its moved entry. -/
theorem code_hooked {f : Function} {w : HostWorld χ υ} (n : Nat)
    (hat : (Environment.registry w).engine.at? f.address = some d) (hf : d.function = f)
    (words : List UInt64) :
    e.code (n + 1) f.address words w =
      answer (e.stage (e.code n)) (e.code n) d.record.id (f.moved d.record.unhooked) words w := by
  simp only [Environment.code, hat, hf]

theorem target_of_at? {r : Registry χ Detours} {a : Address} (h : r.engine.at? a = some d) :
    d.record.target = a := by
  have htarget := List.find?_some h
  simpa using htarget

/-! ### The redirected call -/

/-- `y` carries what `x` carries: an address stays the word it was, and a truth value becomes zero
    or one. -/
structure Kept (k : Kind) (x y : UInt64) : Prop where
  value : (Value.ofWord k y).Alike (.ofWord k x)
  address : k.carried = .pointer → y = x
  truth : k = .bool → y = if x.toNat % 256 = 0 then 0 else 1

theorem kept_settled (k : Kind) (x : UInt64) : Kept k x (Value.ofWord k x).settled.word := by
  have hkind : (Value.ofWord k x).settled.kind = k.carried := by
    rw [Value.kind_settled, Value.kind_ofWord]
  refine ⟨?_, fun hp => ?_, ?_⟩
  · rw [Value.ofWord_word hkind]
    exact Value.alike_settled _
  · rw [Value.settled_of_pointer ((Value.kind_ofWord k x).trans hp), Value.word_ofWord hp]
  · rintro rfl
    by_cases hx : x.toNat % 256 = 0
    · simp [Value.ofWord, Value.ofBits, Value.settled, Value.word, hx]
    · simp [Value.ofWord, Value.ofBits, Value.settled, Value.word, hx]

/-- A hook on `f` whose callbacks are among `S`. -/
structure Hooked (f : Function) (d : Detour) (S : χ → Prop) (r : Registry χ Detours) : Prop where
  redirected : r.engine.at? f.address = some d
  function : d.function = f
  entry : d.record.unhooked ≠ .null
  standing : Standing d S r

/-- Native code that does nothing but give a result, and the result depends on the arguments and on
    what `view` shows of memory alone. So does the text of a result that is a string. -/
structure Pure (view : Memory → α) (sig : Signature) (body : Body χ υ) : Prop where
  still : ∀ code words w, (body code words w).2 = w
  alike : ∀ code code' words words' w w', words.length = sig.arity → words'.length = sig.arity →
    (∀ (i : Nat) (k : Kind) (x x' : UInt64), sig.params[i]? = some k → words[i]? = some x →
      words'[i]? = some x' → (Value.ofWord k x).Alike (.ofWord k x')) →
    view w.memory = view w'.memory →
    (Value.ofWord sig.ret (body code words w).1).Alike (.ofWord sig.ret (body code' words' w').1)
  legible : ∀ code words w m, view m = view w.memory →
    (Value.ofWord sig.ret (body code words w).1).received m sig.ret =
      (Value.ofWord sig.ret (body code words w).1).received w.memory sig.ret

/-- With onlookers alone, what the moved code left crosses back as it is. -/
theorem resume_untouched (hon : Onlookers e code view d S) (f : Function) (args : List Value)
    (before : Ledger) {left : UInt64 × HostWorld χ υ}
    (h : Standing d S (Environment.registry left.2)) :
    let back := resume (e.stage code) d.record.id f args before left
    back.1 = (Value.ofWord f.signature.ret left.1).settled.word ∧
      view back.2.memory = view left.2.memory := by
  intro back
  have hkind := Value.kind_ofWord f.signature.ret left.1
  obtain ⟨w', hpost, _, hview⟩ := run_onlookers hon .post
    ⟨.post, args,
      (Value.ofWord f.signature.ret left.1).received left.2.memory f.signature.ret⟩
    (w := rejoined before left.2) h
  have hback : back = ((Value.ofWord f.signature.ret left.1).settled.word, w') := by
    simp only [back, resume]
    rw [show (rejoined before left.2).memory = left.2.memory from rfl, hpost]
    exact (congrArg (encodeResult d.record.id f.signature.ret · w')
      (returned_untouched hkind left.2.memory)).trans (encodeResult_carried _ hkind w')
  rw [hback]
  exact ⟨rfl, hview⟩

/-- With onlookers alone, the redirected call enters the hooked code exactly once, with the words of
    the caller, and gives its result back. -/
theorem answer_untouched {f : Function} {w : HostWorld χ υ} {words : List UInt64}
    {body : Body χ υ} (n : Nat)
    (hon : Onlookers e (e.code (n + 1)) view d S) (hpure : Pure view f.signature body)
    (hbody : e.native? f.address = some body) (h : Hooked f d S (Environment.registry w))
    (hwords : words.length = f.signature.arity) :
    ∃ shown xs u before,
      (∀ code,
        answer (e.stage (e.code (n + 1))) code d.record.id (f.moved d.record.unhooked) words w =
          resume (e.stage (e.code (n + 1))) d.record.id (f.moved d.record.unhooked) shown before
            (code d.record.unhooked xs u)) ∧
      e.code (n + 1) d.record.unhooked xs u = body (e.code n) xs u ∧
      xs.length = f.signature.arity ∧
      (∀ (i : Nat) (k : Kind) (x y : UInt64), f.signature.params[i]? = some k →
        words[i]? = some x → xs[i]? = some y → Kept k x y) ∧
      view u.memory = view w.memory ∧
      Kept f.signature.ret (body (e.code n) xs u).1 (e.code (n + 2) f.address words w).1 ∧
      view (e.code (n + 2) f.address words w).2.memory = view w.memory := by
  let g := f.moved d.record.unhooked
  let shown := shownArguments w.memory f.signature (rawArguments f.signature words)
  obtain ⟨us, hus, hplain, helem⟩ := exists_fitted_raw (f := g) h.entry hwords
  obtain ⟨w₁, hpre, hstand₁, hview₁⟩ := run_onlookers hon .pre ⟨.pre, shown, .none⟩ h.standing
  have hfit : g.Fitted (passed shown shown (rawArguments f.signature words)) us := by
    rw [passed_untouched hwords]
    exact hus
  have honce := fun code =>
    answer_eq_resume (f := g) (e.stage (e.code (n + 1))) code d.record.id hpre hfit
  obtain ⟨xs, u, before, hxs, hu, hbefore⟩ : ∃ xs u before, xs = (entry g us w₁).1 ∧
      u = { (entry g us w₁).2 with ledger := .empty } ∧ before = (entry g us w₁).2.ledger :=
    ⟨_, _, _, rfl, rfl, rfl⟩
  rw [← hxs, ← hu, ← hbefore] at honce
  have hstand : Standing d S (Environment.registry u) := by
    have hnative : u.native = w₁.native := by
      rw [hu]
      exact entry_native g us w₁
    rw [Environment.registry, hnative]
    exact hstand₁
  have hmemory : u.memory = w₁.memory := by
    rw [hu, show _ = (entry g us w₁).2.memory from rfl, entry_memory,
      Value.toWords_of_no_string hplain]
    exact World.memory_modeTold ..
  have hentered : e.code (n + 1) d.record.unhooked xs u = body (e.code n) xs u :=
    code_moved n hstand (target_of_at? h.redirected) hbody xs
  have hleft : (body (e.code n) xs u).2 = u := hpure.still _ _ _
  have hrun : e.code (n + 2) f.address words w =
      resume (e.stage (e.code (n + 1))) d.record.id g shown before (body (e.code n) xs u) := by
    rw [code_hooked (n + 1) h.redirected h.function, ← hentered]
    exact honce _
  have hstand' : Standing d S (Environment.registry (body (e.code n) xs u).2) := by
    rw [hleft]
    exact hstand
  obtain ⟨hout, hafter⟩ := resume_untouched hon g shown before hstand'
  refine ⟨shown, xs, u, before, honce, hentered, ?_, ?_, ?_, ?_, ?_⟩
  · rw [hxs]
    exact length_entry hus w₁
  · intro i k x y hk hx hy
    have hsettled := helem i k x hk hx
    rw [hxs] at hy
    rw [entry_word hsettled (hplain _ (List.mem_of_getElem? hsettled)) hy]
    exact kept_settled k x
  · rw [hmemory, hview₁]
  · rw [hrun, hout]
    exact kept_settled _ _
  · rw [hrun, hafter, hleft, hmemory, hview₁]

/-! ### Transparency -/

/-- Nothing redirects `f`, and its address is not where the code of another function was moved. -/
structure Free (f : Function) (r : Registry χ Detours) : Prop where
  unhooked : r.engine.at? f.address = none
  unmoved : r.engine.movedTo? f.address = none

/-- Both calls gave values that are alike, or both were refused for one reason. -/
def Agree : Except Error Value → Except Error Value → Prop
  | .ok v, .ok v' => v.Alike v'
  | .error e, .error e' => e = e'
  | _, _ => False

/-- With onlookers alone, the result word of a hooked function carries what its code gives to the
    words of the caller wherever memory shows the same; an address is the very same. -/
theorem code_untouched {f : Function} {w w₀ : HostWorld χ υ} {words : List UInt64}
    {body : Body χ υ} (n : Nat)
    (hon : Onlookers e (e.code (n + 1)) view d S) (hpure : Pure view f.signature body)
    (hbody : e.native? f.address = some body) (h : Hooked f d S (Environment.registry w))
    (hwords : words.length = f.signature.arity) (hview : view w.memory = view w₀.memory)
    (code' : HostCode χ υ) :
    (Value.ofWord f.signature.ret (e.code (n + 2) f.address words w).1).Alike
        (.ofWord f.signature.ret (body code' words w₀).1) ∧
      (f.signature.ret.carried = .pointer →
        (e.code (n + 2) f.address words w).1 = (body code' words w₀).1) ∧
      view (e.code (n + 2) f.address words w).2.memory = view w.memory := by
  obtain ⟨_, xs, u, _, _, _, hxs, hkept, hu, hout, hafter⟩ :=
    answer_untouched n hon hpure hbody h hwords
  have hbody' : (Value.ofWord f.signature.ret (body (e.code n) xs u).1).Alike
      (.ofWord f.signature.ret (body code' words w₀).1) :=
    hpure.alike _ _ _ _ _ _ hxs hwords
      (fun i k x x' hk hx hx' => (hkept i k x' x hk hx' hx).value) (hu.trans hview)
  refine ⟨hout.value.trans hbody', fun hp => ?_, hafter⟩
  rw [hout.address hp, ← Value.word_ofWord hp (body (e.code n) xs u).1,
    ← Value.word_ofWord hp (body code' words w₀).1]
  rcases hbody' with heq | ⟨_, hnan, _⟩
  · rw [heq]
  · have hkind := (Value.kind_ofWord f.signature.ret (body (e.code n) xs u).1).trans hp
    cases hv : Value.ofWord f.signature.ret (body (e.code n) xs u).1 <;> rw [hv] at hnan hkind <;>
      first | cases hnan | cases hkind

theorem unhooked?_hooked {f : Function} {r : Registry χ Detours} (h : Hooked f d S r)
    (hf : f.address ≠ .null) : r.unhooked? e.engine f = .ok (f.moved d.record.unhooked) := by
  have hfind : r.find e.engine f = some d.record := congrArg (·.map (·.record)) h.redirected
  have hnull : ¬ f.address.isNull = true := fun hn => hf (Address.isNull_iff.1 hn)
  rw [Registry.unhooked?, if_neg hnull, hfind]

/-- A call that is refused is refused alike through a hook, past it and without it. -/
theorem refused_agree {f : Function} {w w₀ : HostWorld χ υ} {args : List Value} {error : Error}
    (h : Hooked f d S (Environment.registry w)) (hr : f.Refused args error) (code : HostCode χ υ)
    (g₀ g₁ g₂ : Gate) :
    Agree (f.call (Gate.machine code) args (g₁, w)).1 (f.call (Gate.machine code) args (g₀, w₀)).1 ∧
      Agree (callUnhooked e.engine (Environment.registry w) (Gate.machine code) f args (g₂, w)).1
        (f.call (Gate.machine code) args (g₀, w₀)).1 := by
  rw [Function.call_of_refused _ hr, Function.call_of_refused _ hr]
  refine ⟨rfl, ?_⟩
  by_cases hf : f.address = .null
  · have herror : error = .nullPointer .target := hr.unique (.null hf)
    rw [callUnhooked, Registry.unhooked?, if_pos (Address.isNull_iff.2 hf), herror]
    rfl
  · rw [callUnhooked, unhooked?_hooked h hf]
    dsimp only
    rw [Function.call_of_refused _ (hr.moved hf h.entry)]
    rfl

/-- Without a hook, a call whose arguments fit gives what the code gives. -/
theorem call_free {f : Function} {w : HostWorld χ υ} {args ws : List Value} {body : Body χ υ}
    (n : Nat) (hpure : Pure view f.signature body) (hbody : e.native? f.address = some body)
    (h : Free f (Environment.registry w)) (hfit : f.Fitted args ws) (g : Gate) :
    ∃ u, u.memory = (Value.toWords ws w).2.memory ∧
      (f.call (Gate.machine (e.code (n + 1))) args (g, w)).1 =
        .ok ((Value.ofWord f.signature.ret
          (body (e.code n) (Value.toWords ws w).1 u).1).received u.memory f.signature.ret) := by
  obtain ⟨u, hm, hn, hc⟩ := Function.call_gate (e.code (n + 1)) hfit g w
  have hfree : Free f (Environment.registry u) := by
    rw [Environment.registry, hn]
    exact h
  refine ⟨u, hm, hc.trans ?_⟩
  simp only [code_free n hfree.unhooked hfree.unmoved hbody, hpure.still]

/-- Past its hook, a call whose arguments fit gives what the code gives. -/
theorem call_past {f : Function} {w : HostWorld χ υ} {args ws : List Value} {body : Body χ υ}
    (n : Nat) (hpure : Pure view f.signature body) (hbody : e.native? f.address = some body)
    (h : Hooked f d S (Environment.registry w)) (hfit : f.Fitted args ws) (g : Gate) :
    ∃ u, u.memory = (Value.toWords ws w).2.memory ∧
      (callUnhooked e.engine (Environment.registry w) (Gate.machine (e.code (n + 1))) f args
          (g, w)).1 =
        .ok ((Value.ofWord f.signature.ret
          (body (e.code n) (Value.toWords ws w).1 u).1).received u.memory f.signature.ret) := by
  obtain ⟨u, hm, hn, hc⟩ := Function.call_gate (e.code (n + 1)) (hfit.moved h.entry) g w
  have hstand : Standing d S (Environment.registry u) := by
    rw [Environment.registry, hn]
    exact h.standing
  have hcode := code_moved n hstand (target_of_at? h.redirected) hbody (Value.toWords ws w).1
  refine ⟨u, hm, ?_⟩
  rw [callUnhooked, unhooked?_hooked h hfit.nonNull]
  refine hc.trans ?_
  simp only [Function.moved, hcode, hpure.still]

/-- Through a hook with onlookers alone, a call whose arguments fit gives what the code gives where
    memory shows the same. -/
theorem call_through {f : Function} {w : HostWorld χ υ} {args ws : List Value} {body : Body χ υ}
    (n : Nat) (hon : Onlookers e (e.code (n + 1)) view d S) (hpure : Pure view f.signature body)
    (hbody : e.native? f.address = some body) (h : Hooked f d S (Environment.registry w))
    (hfit : f.Fitted args ws) (g : Gate) (code' : HostCode χ υ) {u₀ : HostWorld χ υ}
    (hu₀ : u₀.memory = (Value.toWords ws w).2.memory) :
    Agree (f.call (Gate.machine (e.code (n + 2))) args (g, w)).1
      (.ok ((Value.ofWord f.signature.ret
        (body code' (Value.toWords ws w).1 u₀).1).received u₀.memory f.signature.ret)) := by
  obtain ⟨u, hm, hn, hc⟩ := Function.call_gate (e.code (n + 2)) hfit g w
  have hhooked : Hooked f d S (Environment.registry u) := by
    rw [Environment.registry, hn]
    exact h
  have hlen : (Value.toWords ws w).1.length = f.signature.arity := by
    rw [Value.length_toWords, hfit.length]
  have hview : view u.memory = view u₀.memory := by rw [hm, hu₀]
  obtain ⟨halike, _, hafter⟩ := code_untouched n hon hpure hbody hhooked hlen hview code'
  rw [hc, ← hpure.legible code' (Value.toWords ws w).1 u₀ _ (hafter.trans hview)]
  exact halike.received (Value.kind_ofWord ..) (Value.kind_ofWord ..) _

/-- A call whose arguments fit gives alike values through a hook with onlookers alone, past it and
    without it. -/
theorem fitted_agree {f : Function} {w w₀ : HostWorld χ υ} {args ws : List Value}
    {body : Body χ υ} (n : Nat) (hon : Onlookers e (e.code (n + 1)) view d S)
    (hpure : Pure view f.signature body) (hbody : e.native? f.address = some body)
    (h : Hooked f d S (Environment.registry w)) (hfree : Free f (Environment.registry w₀))
    (hmemory : w₀.memory = w.memory) (hfit : f.Fitted args ws) (g₀ g₁ g₂ : Gate) :
    let machine := Gate.machine (e.code (n + 2))
    Agree (f.call machine args (g₁, w)).1 (f.call machine args (g₀, w₀)).1 ∧
      Agree (callUnhooked e.engine (Environment.registry w) machine f args (g₂, w)).1
        (f.call machine args (g₀, w₀)).1 := by
  intro machine
  obtain ⟨u₀, hm₀, hbefore⟩ := call_free (n + 1) hpure hbody hfree hfit g₀
  obtain ⟨u₂, hm₂, hpast⟩ := call_past (n + 1) hpure hbody h hfit g₂
  obtain ⟨hwords, hplaced⟩ := Value.toWords_congr ws hmemory
  have hlen : (Value.toWords ws w).1.length = f.signature.arity := by
    rw [Value.length_toWords, hfit.length]
  rw [hwords] at hbefore
  rw [hplaced] at hm₀
  rw [hbefore, hpast]
  refine ⟨call_through n hon hpure hbody h hfit g₁ _ hm₀, ?_⟩
  have hview : view u₂.memory = view u₀.memory := by rw [hm₂, hm₀]
  have halike := hpure.alike (e.code (n + 1)) (e.code (n + 1)) _ _ u₂ u₀ hlen hlen
    (fun i k x x' _ hx hx' => by rw [hx, Option.some.injEq] at hx'; rw [hx']; exact .refl _) hview
  rw [← hpure.legible (e.code (n + 1)) (Value.toWords ws w).1 u₀ _ hview]
  exact halike.received (Value.kind_ofWord ..) (Value.kind_ofWord ..) u₂.memory

/-- A hook with onlookers alone is transparent. A redirected call enters the hooked code exactly
    once, with the caller's words, and its result word is the one of the unhooked code, up to the
    payload of a NaN. Calling the function through the hook, calling it past the hook, and calling
    it when there is no hook all give the same. -/
theorem hook_transparent {f : Function} {w : HostWorld χ υ}
    {body : Body χ υ} (n : Nat)
    (hon : Onlookers e (e.code (n + 1)) view d S) (hpure : Pure view f.signature body)
    (hbody : e.native? f.address = some body) (h : Hooked f d S (Environment.registry w)) :
    (∀ words, words.length = f.signature.arity →
      (∃ shown xs u before,
        (∀ code,
          answer (e.stage (e.code (n + 1))) code d.record.id (f.moved d.record.unhooked) words w =
            resume (e.stage (e.code (n + 1))) d.record.id (f.moved d.record.unhooked) shown before
              (code d.record.unhooked xs u)) ∧
        e.code (n + 2) f.address words w =
          answer (e.stage (e.code (n + 1))) (e.code (n + 1)) d.record.id
            (f.moved d.record.unhooked) words w ∧
        e.code (n + 1) d.record.unhooked xs u = body (e.code n) xs u ∧
        xs.length = f.signature.arity ∧
        (∀ (i : Nat) (k : Kind) (x y : UInt64), f.signature.params[i]? = some k →
          words[i]? = some x → xs[i]? = some y → Kept k x y) ∧
        Kept f.signature.ret (body (e.code n) xs u).1 (e.code (n + 2) f.address words w).1) ∧
      ∀ w₀, Free f (Environment.registry w₀) → view w.memory = view w₀.memory →
        (Value.ofWord f.signature.ret (e.code (n + 2) f.address words w).1).Alike
            (.ofWord f.signature.ret (e.code (n + 2) f.address words w₀).1) ∧
          (f.signature.ret.carried = .pointer →
            (e.code (n + 2) f.address words w).1 = (e.code (n + 2) f.address words w₀).1)) ∧
    ∀ args g₀ g₁ g₂ w₀, Free f (Environment.registry w₀) → w₀.memory = w.memory →
      let machine := Gate.machine (e.code (n + 2))
      Agree (f.call machine args (g₁, w)).1 (f.call machine args (g₀, w₀)).1 ∧
        Agree (callUnhooked e.engine (Environment.registry w) machine f args (g₂, w)).1
          (f.call machine args (g₀, w₀)).1 := by
  constructor
  · intro words hwords
    constructor
    · obtain ⟨shown, xs, u, before, honce, hentered, hxs, hkept, _, hout, _⟩ :=
        answer_untouched n hon hpure hbody h hwords
      exact ⟨shown, xs, u, before, honce, code_hooked (n + 1) h.redirected h.function words,
        hentered, hxs, hkept, hout⟩
    · intro w₀ hfree hview
      obtain ⟨halike, haddress, _⟩ :=
        code_untouched n hon hpure hbody h hwords hview (e.code (n + 1))
      rw [code_free (n + 1) hfree.unhooked hfree.unmoved hbody]
      exact ⟨halike, haddress⟩
  · intro args g₀ g₁ g₂ w₀ hfree hmemory
    cases hp : f.prepare args with
    | error error => exact refused_agree h (Function.prepare_eq_error_iff.1 hp) _ g₀ g₁ g₂
    | ok ws =>
      have hfit := Function.prepare_eq_ok_iff.1 hp
      exact fitted_agree n hon hpure hbody h hfree hmemory hfit g₀ g₁ g₂

end Onlookers

/-! ### A hooked identity -/

/-- Code that gives the address of a text back. -/
def identity : Body Unit Unit := fun _ words w => (words.headD 0, w)

def identityFunction : Function := ⟨⟨0x4000⟩, .cdecl, ⟨[.string], .string, by decide⟩⟩

/-- One function, and callbacks that do nothing. -/
def quiet : Environment Unit Unit where
  native? a := if a = identityFunction.address then some identity else none
  act _ _ call w := (.proceed, call, w)
  site := ⟨fun _ => none, 0x1000⟩

def identityDetour : Detour :=
  ⟨⟨⟨1⟩, identityFunction.address, identityFunction.address.add 0x1000⟩, identityFunction⟩

theorem pure_identity : Pure Memory.byte identityFunction.signature identity where
  still _ _ _ := rfl
  alike _ _ words words' _ _ hlen hlen' h _ := by
    obtain ⟨x, rfl⟩ : ∃ x, words = [x] := List.length_eq_one_iff.1 hlen
    obtain ⟨x', rfl⟩ : ∃ x, words' = [x] := List.length_eq_one_iff.1 hlen'
    exact h 0 .string x x' rfl rfl rfl
  legible _ words w m h := by
    have htext := Memory.cstring_congr h (.ofNat (words.headD 0).toNat)
    have hreceived : ∀ m : Memory, (Value.ofWord .string (words.headD 0)).received m .string =
        if (Address.ofNat (words.headD 0).toNat).isNull then .none
        else .string (m.cstring (.ofNat (words.headD 0).toNat)) := fun _ => rfl
    exact (hreceived m).trans ((congrArg _ (congrArg _ htext)).trans (hreceived w.memory).symm)

/-- The identity gives the same text with a callback on it as before the callback was added. -/
theorem hook_transparent_identity :
    let w := (quiet.addCallback identityFunction .pre () (Host.world ())).2
    let machine := Gate.machine (quiet.code 2)
    Onlookers quiet (quiet.code 1) Memory.byte identityDetour (fun _ => True) ∧
      Hooked identityFunction identityDetour (fun _ => True) (Environment.registry w) ∧
      Free identityFunction (Environment.registry (Host.world () : HostWorld Unit Unit)) ∧
      ∀ args g₀ g₁, Agree (identityFunction.call machine args (g₁, w)).1
        (identityFunction.call machine args (g₀, Host.world ())).1 := by
  intro w machine
  have hon : Onlookers quiet (quiet.code 1) Memory.byte identityDetour (fun _ => True) :=
    fun _ _ call w h => ⟨w, rfl, h, rfl⟩
  have hhooked : Hooked identityFunction identityDetour (fun _ => True)
      (Environment.registry w) :=
    ⟨rfl, rfl, by decide, ⟨rfl, rfl, fun _ _ _ => trivial⟩⟩
  have hfree : Free identityFunction (Environment.registry (Host.world () : HostWorld Unit Unit)) :=
    ⟨rfl, rfl⟩
  have hsame := (hook_transparent 0 hon pure_identity rfl hhooked).2
  exact ⟨hon, hhooked, hfree, fun args g₀ g₁ => (hsame args g₀ g₁ g₀ _ hfree rfl).1⟩

end NativeGate.Hook
