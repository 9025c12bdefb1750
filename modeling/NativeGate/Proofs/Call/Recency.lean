import Mathlib.Data.List.Dedup
import NativeGate.Proofs.Call.History
import NativeGate.Proofs.Coercion

/-!
The interfaces at hand. Using a key moves it in front of all others and cuts the store to its
capacity (`Recent.keys_use`), so that what is held is always held for the keys used last
(`Recent.Keeps`). For a gate these keys are the interfaces of its invocations, told by what was
pushed and not by a signature: an interface is prepared anew exactly when it is not among the last
ones, and calls of one signature share an interface but for texts that give way to addresses
(`interfaces_are_latest`).
-/

namespace NativeGate

namespace Recent
variable {κ α : Type} [DecidableEq κ]

/-! ### Keys in the order of their last use -/

/-- The distinct keys of a list of uses, the one that was used last in front. -/
def latest (used : List κ) : List κ := used.dedup.reverse

/-- One more use puts its key behind all others. -/
theorem dedup_concat (used : List κ) (k : κ) :
    (used ++ [k]).dedup = used.dedup.erase k ++ [k] := by
  induction used with
  | nil => rfl
  | cons a used ih =>
    rw [List.cons_append]
    by_cases ha : a ∈ used
    · rw [List.dedup_cons_of_mem (List.mem_append_left _ ha), List.dedup_cons_of_mem ha, ih]
    · have hfirst : a ∉ used.dedup := by simpa using ha
      rw [List.dedup_cons_of_notMem ha]
      by_cases hk : a = k
      · subst hk
        rw [List.dedup_cons_of_mem (by simp), ih, List.erase_cons_head,
          List.erase_of_not_mem hfirst]
      · rw [List.dedup_cons_of_notMem (by simp [ha, hk]), ih,
          List.erase_cons_tail (by simpa using hk), List.cons_append]

theorem latest_concat (used : List κ) (k : κ) :
    latest (used ++ [k]) = k :: (latest used).erase k := by
  have hnodup := List.nodup_dedup used
  rw [latest, latest, dedup_concat, List.reverse_concat, hnodup.erase_eq_filter,
    (List.nodup_reverse.2 hnodup).erase_eq_filter, List.filter_reverse]

/-- Cutting a list beforehand does not show behind a key that is taken out and the cut after it. -/
theorem take_erase_take (c : Nat) (keys : List κ) (k : κ) :
    ((keys.take (c + 1)).erase k).take c = (keys.erase k).take c := by
  induction keys generalizing c with
  | nil => rfl
  | cons a keys ih =>
    rw [List.take_succ_cons]
    by_cases hk : a = k
    · subst hk
      rw [List.erase_cons_head, List.erase_cons_head, List.take_take, Nat.min_self]
    · rw [List.erase_cons_tail (by simpa using hk), List.erase_cons_tail (by simpa using hk)]
      cases c with
      | zero => rfl
      | succ c => rw [List.take_succ_cons, List.take_succ_cons, ih]

/-! ### What is held -/

variable {make : κ → α} {r : Recent κ α} {used : List κ}

/-- The keys for which something is held, in order. -/
def keys (r : Recent κ α) : List κ := r.held.map (·.1)

/-- What is held is held for the keys used last, as many as there is room for. -/
def Keeps (r : Recent κ α) (used : List κ) : Prop := r.keys = (latest used).take r.capacity

theorem find?_eq_none_iff {k : κ} : r.find? k = none ↔ k ∉ r.keys := by
  rw [find?, List.lookup_eq_none_iff, keys, List.mem_map]
  simp only [bne_iff_ne, not_exists, not_and]
  exact ⟨fun h e he hk => h e he hk.symm, fun h e he hk => h e he hk.symm⟩

theorem capacity_use (k : κ) : (r.use make k).2.capacity = r.capacity := by
  unfold use
  split <;> rfl

/-- Using a key moves it in front, and puts out what there is no more room for. -/
theorem keys_use (h : r.size ≤ r.capacity) (k : κ) :
    (r.use make k).2.keys = (k :: r.keys.erase k).take r.capacity := by
  unfold use
  split
  · rename_i a hfind
    have hmem : k ∈ r.keys := by
      by_contra hk
      rw [find?_eq_none_iff.2 hk] at hfind
      cases hfind
    have hroom : (k :: r.keys.erase k).length ≤ r.capacity := by
      rw [List.length_cons, List.length_erase_add_one hmem, keys, List.length_map]
      exact h
    rw [List.take_of_length_le hroom, keys, keys, List.map_cons, List.erase_eq_eraseP',
      List.eraseP_map]
    rfl
  · rename_i hfind
    rw [List.erase_of_not_mem (find?_eq_none_iff.1 hfind), keys, keys, List.map_take,
      List.map_cons]

theorem Keeps.size_le (h : r.Keeps used) : r.size ≤ r.capacity := by
  rw [size, ← List.length_map, ← keys, h, List.length_take]
  exact Nat.min_le_left ..

/-- The number of keys held is that of distinct keys used, up to the capacity. -/
theorem Keeps.size_eq (h : r.Keeps used) : r.size = min r.capacity used.dedup.length := by
  rw [size, ← List.length_map, ← keys, h, List.length_take, latest, List.length_reverse]

theorem Keeps.use (h : r.Keeps used) (hroom : 0 < r.capacity) (k : κ) :
    (r.use make k).2.Keeps (used ++ [k]) := by
  obtain ⟨c, hc⟩ := Nat.exists_eq_add_of_lt hroom
  have hkeys : r.keys = (latest used).take (c + 1) := by
    rw [h, hc]
    congr 1
    omega
  rw [Keeps, keys_use h.size_le, capacity_use, latest_concat, hkeys]
  rw [show r.capacity = c + 1 by omega, List.take_succ_cons, List.take_succ_cons,
    take_erase_take]

end Recent

/-! ### The interfaces of invocations -/

variable {ρ : Type}

theorem Ledger.events_append (l later : Ledger) :
    (l.append later).events = later.events ++ l.events := events_add l later.events

namespace Gate

/-- The interfaces that a step asks for: an invocation asks for the one that belongs to what is
    pushed. -/
def uses (g : Gate) : Step → List Interface
  | .invoke _ k => [g.interface k]
  | .reset | .setMode _ | .push _ => []

/-- A gate that keeps `n` interfaces after any steps, whatever the world is like at each of them,
    with the interfaces that were asked for, in order. -/
inductive History (enter : Prepared → Code ρ) (n : Nat) : Gate → List Interface → Prop
  | start : History enter n (.withCapacity n) []
  | step {g : Gate} {used : List Interface} (s : Step) (w : World ρ)
      (before : History enter n g used) :
      History enter n ((machineThrough enter).take (g, w) s).2.1 (used ++ g.uses s)

section
variable {enter : Prepared → Code ρ} {n : Nat} {g : Gate} {used : List Interface}

theorem History.keeps (h : History enter n g used) :
    g.recent.Keeps used ∧ g.recent.capacity = max n 1 := by
  induction h with
  | start => exact ⟨by simp [Recent.Keeps, withCapacity, Recent.withCapacity, Recent.keys,
      Recent.latest], rfl⟩
  | @step g used s w _ ih =>
    obtain ⟨hkeeps, hcapacity⟩ := ih
    cases s with
    | reset | push v =>
      rw [uses, List.append_nil]
      exact ⟨hkeeps, hcapacity⟩
    | setMode c =>
      rw [uses, List.append_nil]
      simp only [CallMachine.take, machineThrough]
      split <;> exact ⟨hkeeps, hcapacity⟩
    | invoke a k =>
      simp only [CallMachine.take, machineThrough, ready_gate, uses]
      refine ⟨hkeeps.use (by omega) _, ?_⟩
      rw [Recent.capacity_use, hcapacity]

/-- Steps that invoke nothing ask for nothing. -/
theorem History.follow_quiet (h : History enter n g used) {steps : List Step}
    (hquiet : ∀ s ∈ steps, ∀ g : Gate, g.uses s = []) (w : World ρ) :
    History enter n ((machineThrough enter).follow steps (g, w)).2.1 used := by
  induction steps using List.reverseRecOn with
  | nil => exact h
  | append_singleton steps s ih =>
    have hlast := History.step s ((machineThrough enter).follow steps (g, w)).2.2
      (ih fun t ht => hquiet t (List.mem_append_left _ ht))
    rw [hquiet s (by simp), List.append_nil] at hlast
    rw [CallMachine.follow_concat]
    exact hlast

/-- Before its invocation a call has put its convention and its arguments in place. -/
theorem follow_loading (enter : Prepared → Code ρ) (c : Convention) (args : List Value) (g : Gate)
    (w : World ρ) :
    ((machineThrough enter).follow ([.reset, .setMode c] ++ args.map .push) (g, w)).2 =
      (g.loaded c args, w.modeTold c) := by
  have hmode : ((machineThrough enter).follow [.reset, .setMode c] (g, w)).2 =
      (g.loaded c [], w.modeTold c) := by
    simp only [CallMachine.follow, List.foldl, CallMachine.take, machineThrough, loaded,
      World.modeTold]
    split <;> rfl
  rw [CallMachine.follow_pushes, hmode, foldl_push]
  rfl

/-- A call that is carried out asks for the interface of its fitted arguments, and a refused call
    asks for none. -/
theorem History.call (h : History enter n g used) (f : Function) (args : List Value)
    (w : World ρ) :
    History enter n (f.call (machineThrough enter) args (g, w)).2.1
      (used ++ match f.prepare args with
        | .ok ws => [f.asked ws]
        | .error _ => []) := by
  cases hp : f.prepare args with
  | error e =>
    rw [Function.call_of_refused _ (Function.prepare_eq_error_iff.1 hp), List.append_nil]
    exact h
  | ok ws =>
    rw [Function.call_of_fitted _ (Function.prepare_eq_ok_iff.1 hp), Function.protocol,
      CallMachine.follow_concat]
    have hquiet : ∀ s ∈ [Step.reset, .setMode f.convention] ++ ws.map .push, ∀ g : Gate,
        g.uses s = [] := by
      intro s hs g
      rcases List.mem_append.1 hs with hs | hs
      · rcases List.mem_pair.1 hs with rfl | rfl <;> rfl
      · obtain ⟨v, _, rfl⟩ := List.mem_map.1 hs
        rfl
    have hready := h.follow_quiet hquiet (w.note (.calling f.convention f.signature))
    rw [follow_loading] at hready
    rw [noted, follow_loading]
    exact hready.step (.invoke f.address f.signature.ret) _

/-- An invocation tells of an interface exactly when that is prepared anew, before native code is
    entered and tells what it tells. -/
theorem events_invoke (enter : Prepared → Code ρ) (g : Gate) (w : World ρ) (a : Address)
    (k : Kind) :
    let i := g.interface k
    let crossed := Value.toWords g.args w
    ((machineThrough enter).invoke a k (g, w)).2.2.ledger.events =
      (enter (g.prepared i) a crossed.1 crossed.2.unledgered).2.ledger.events ++
        (if i ∈ g.recent.keys then [] else [.interfacePrepared i.abi i.params.length]) ++
        w.ledger.events := by
  intro i crossed
  have hseen : (ready i (g, crossed.2)).2.unledgered = crossed.2.unledgered :=
    World.unledgered_congr (ready_memory ..) (ready_native ..)
  have htold : (ready i (g, crossed.2)).2.ledger.events =
      (if i ∈ g.recent.keys then [] else [.interfacePrepared i.abi i.params.length]) ++
        w.ledger.events := by
    have hledger : crossed.2.ledger = w.ledger := Value.toWords_ledger g.args w
    unfold ready
    dsimp only
    split
    · rename_i through hfind
      have hmem : i ∈ g.recent.keys := by
        by_contra hnew
        rw [Recent.find?_eq_none_iff.2 hnew] at hfind
        cases hfind
      rw [if_pos hmem, hledger]
      rfl
    · rename_i hfind
      rw [if_neg (Recent.find?_eq_none_iff.1 hfind), ← hledger]
      rfl
  rw [List.append_assoc, ← htold, ← hseen]
  exact Ledger.events_append ..

end

end Gate

/-! ### Calls of one signature -/

namespace Value

/-- A text on one side and, on the other, what stands for an address. -/
def TextAndAddress (v v' : Value) : Prop :=
  (∃ s, v = .string s) ∧ (v' = .none ∨ ∃ p, v' = .pointer p)

/-- The kind under which an argument travels is that of its parameter, unless an address comes where
    a string is asked for. -/
theorem slotKind_of_coerce {v w : Value} {k : Kind} {i : Nat} (h : v.coerce k i = .ok w) :
    w.slotKind = k ∧ (k = .string → ∃ s, v = .string s) ∨
      w.slotKind = .pointer ∧ k = .string ∧ (v = .none ∨ ∃ p, v = .pointer p) := by
  by_cases hk : k = .string
  · subst hk
    have hfit := coerce_eq_ok h
    cases v with
    | string s =>
      cases hfit
      exact .inl ⟨rfl, fun _ => ⟨s, rfl⟩⟩
    | pointer p =>
      cases hfit
      exact .inr ⟨rfl, rfl, .inr ⟨p, rfl⟩⟩
    | none =>
      cases hfit
      exact .inr ⟨rfl, rfl, .inl rfl⟩
    | _ => cases hfit
  · have hkind := kind_of_coerce hk h
    refine .inl ⟨?_, fun hs => absurd hs hk⟩
    cases w with
    | none =>
      subst hkind
      cases coerce_eq_ok h
    | _ => exact hkind

end Value

namespace Function

/-- Two calls of one signature ask for the same interface, except where one gives a text and the
    other an address for a string. -/
theorem asked_params_ne {f f' : Function} {args args' ws ws' : List Value} (h : f.Fitted args ws)
    (h' : f'.Fitted args' ws') (hsig : f'.signature = f.signature) {i : Nat}
    (hne : (f.asked ws).params[i]? ≠ (f'.asked ws').params[i]?) :
    f.signature.params[i]? = some .string ∧ ∃ v v', args[i]? = some v ∧ args'[i]? = some v' ∧
      (v.TextAndAddress v' ∨ v'.TextAndAddress v) := by
  have hlen : f'.signature.arity = f.signature.arity := by rw [hsig]
  by_cases hi : i < f.signature.arity
  · have hparam : f.signature.params[i]? = some (f.signature.params.get ⟨i, hi⟩) :=
      List.getElem?_eq_getElem hi
    have hv := List.getElem?_eq_getElem (l := args) (i := i) (by rw [h.count]; exact hi)
    have hv' := List.getElem?_eq_getElem (l := args') (i := i) (by rw [h'.count, hlen]; exact hi)
    obtain ⟨w, hw, hcoerce⟩ := h.each i _ _ hv hparam
    obtain ⟨w', hw', hcoerce'⟩ := h'.each i _ _ hv' (by rw [hsig, hparam])
    have hkinds : w.slotKind ≠ w'.slotKind := by
      rw [asked, asked, List.getElem?_map, List.getElem?_map, hw, hw'] at hne
      exact fun heq => hne (congrArg some heq)
    rcases Value.slotKind_of_coerce hcoerce with ⟨hk, htext⟩ | ⟨hk, hstring, haddress⟩ <;>
      rcases Value.slotKind_of_coerce hcoerce' with ⟨hk', htext'⟩ | ⟨hk', hstring', haddress'⟩
    · exact absurd (hk.trans hk'.symm) hkinds
    · exact ⟨hparam.trans (congrArg some hstring'), _, _, hv, hv',
        .inl ⟨htext hstring', haddress'⟩⟩
    · exact ⟨hparam.trans (congrArg some hstring), _, _, hv, hv',
        .inr ⟨htext' hstring, haddress⟩⟩
    · exact absurd (hk.trans hk'.symm) hkinds
  · refine absurd ?_ hne
    have hout : (f.asked ws).params.length ≤ i := by
      rw [asked, List.length_map, h.length]
      omega
    have hout' : (f'.asked ws').params.length ≤ i := by
      rw [asked, List.length_map, h'.length]
      omega
    rw [List.getElem?_eq_none hout, List.getElem?_eq_none hout']

end Function

/-- Whatever steps a gate has taken, the interfaces at hand are those that were asked for last, at
    least one and at most as many as the gate keeps, and their number is that of all interfaces
    asked for so far until the gate is full. An invocation prepares its interface anew exactly when
    that is not one of them. A call asks for the interface of its fitted arguments: conventions
    share it, and so do calls of one signature wherever a text does not meet an address. -/
theorem interfaces_are_latest {enter : Prepared → Code ρ} {n : Nat} {g : Gate}
    {used : List Interface} (h : Gate.History enter n g used) :
    let atHand := (Recent.latest used).take (max n 1)
    g.recent.keys = atHand ∧ g.cached = min (max n 1) used.dedup.length ∧
    (∀ (a : Address) (k : Kind) (w : World ρ),
      let i := g.interface k
      let crossed := Value.toWords g.args w
      ((Gate.machineThrough enter).invoke a k (g, w)).2.2.ledger.events =
        (enter (g.prepared i) a crossed.1 crossed.2.unledgered).2.ledger.events ++
          (if i ∈ atHand then [] else [.interfacePrepared i.abi i.params.length]) ++
          w.ledger.events) ∧
    (∀ (f : Function) (args : List Value) (w : World ρ),
      Gate.History enter n (f.call (Gate.machineThrough enter) args (g, w)).2.1
        (used ++ match f.prepare args with
          | .ok ws => [f.asked ws]
          | .error _ => [])) ∧
    (∀ (f : Function) (c : Convention) (args ws : List Value),
      ({ f with convention := c } : Function).prepare args = f.prepare args ∧
        ({ f with convention := c } : Function).asked ws = f.asked ws) ∧
    ∀ (f f' : Function) (args args' ws ws' : List Value), f.Fitted args ws → f'.Fitted args' ws' →
      f'.signature = f.signature →
        (f'.asked ws').abi = (f.asked ws).abi ∧ (f'.asked ws').ret = (f.asked ws).ret ∧
        ∀ i : Nat, (f.asked ws).params[i]? ≠ (f'.asked ws').params[i]? →
          f.signature.params[i]? = some .string ∧ ∃ v v', args[i]? = some v ∧
            args'[i]? = some v' ∧ (v.TextAndAddress v' ∨ v'.TextAndAddress v) := by
  intro atHand
  obtain ⟨hkeeps, hcapacity⟩ := h.keeps
  have hkeys : g.recent.keys = atHand := by rw [hkeeps, hcapacity]
  refine ⟨hkeys, ?_, fun a k w => ?_, fun f args w => h.call f args w, fun f c args ws => ?_,
    fun f f' args args' ws ws' hf hf' hsig => ?_⟩
  · rw [Gate.cached, hkeeps.size_eq, hcapacity]
  · rw [← hkeys]
    exact Gate.events_invoke enter g w a k
  · exact ⟨rfl, rfl⟩
  · refine ⟨rfl, ?_, fun i hne => Function.asked_params_ne hf hf' hsig hne⟩
    rw [Function.asked, Function.asked, hsig]

/-- A gate of capacity zero is called with a text and then with an address for the same string: the
    second interface puts the first one out. -/
theorem interfaces_of_text_and_address :
    let nothing : Prepared → Code Unit := fun _ _ _ w => (0, w)
    let machine := Gate.machineThrough nothing
    let f : Function := ⟨⟨0x4000⟩, .stdcall, ⟨[.string], .void, by decide⟩⟩
    let first := f.call machine [.string ⟨[104, 105], by decide⟩] (Gate.withCapacity 0, .start ())
    let second := f.call machine [.pointer ⟨0x10⟩] first.2
    Gate.History nothing 0 second.2.1
      [⟨.native, [.string], .void⟩, ⟨.native, [.pointer], .void⟩] ∧
    second.2.1.recent.keys = [⟨.native, [.pointer], .void⟩] ∧ second.2.1.cached = 1 := by
  intro nothing machine f first second
  have hstart : Gate.History nothing 0 (.withCapacity 0) [] := .start
  obtain ⟨_, _, _, hcalls, _⟩ := interfaces_are_latest hstart
  have hfirst := hcalls f [.string ⟨[104, 105], by decide⟩] (.start ())
  obtain ⟨_, _, _, hcalls', _⟩ := interfaces_are_latest hfirst
  have hsecond := hcalls' f [.pointer ⟨0x10⟩] first.2.2
  obtain ⟨hkeys, hcached, _⟩ := interfaces_are_latest hsecond
  exact ⟨hsecond, hkeys, hcached⟩

end NativeGate
