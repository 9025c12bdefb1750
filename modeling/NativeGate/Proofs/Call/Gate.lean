import NativeGate.Call.Gate
import NativeGate.Proofs.Call.Dispatch
import NativeGate.Proofs.Memory.Store

/-!
A call through the gate. Whatever the gate held before, native code is entered once, at the address
of the function, with one word for each argument (`callRaw_gate`); which interfaces are at hand
shows in the ledger only. The words of arguments depend on the memory they may be put into, and
putting them there leaves the state of the native side. While there is room in the address space,
native code reads every string where its word points (`cstring_toWords`).
-/

namespace NativeGate
variable {ρ : Type}

/-! ### Words of arguments -/

namespace Value

theorem toWords_cons (v : Value) (vs : List Value) (w : World ρ) :
    toWords (v :: vs) w =
      ((v.toWord w).1 :: (toWords vs (v.toWord w).2).1, (toWords vs (v.toWord w).2).2) := rfl

theorem toWord_native (v : Value) (w : World ρ) : (v.toWord w).2.native = w.native := by
  cases v <;> rfl

theorem toWords_native (vs : List Value) (w : World ρ) : (toWords vs w).2.native = w.native := by
  induction vs generalizing w with
  | nil => rfl
  | cons v vs ih => rw [toWords_cons, ih, toWord_native]

theorem toWords_ledger (vs : List Value) (w : World ρ) : (toWords vs w).2.ledger = w.ledger := by
  induction vs generalizing w with
  | nil => rfl
  | cons v vs ih =>
    have hv : (v.toWord w).2.ledger = w.ledger := by cases v <;> rfl
    rw [toWords_cons, ih, hv]

/-- Only a string needs a place in memory. -/
theorem toWord_of_not_string {v : Value} (h : ∀ s, v ≠ .string s) (w : World ρ) :
    v.toWord w = (v.word, w) := by
  cases v with
  | string s => exact absurd rfl (h s)
  | _ => rfl

theorem length_toWords (vs : List Value) (w : World ρ) :
    (toWords vs w).1.length = vs.length := by
  induction vs generalizing w with
  | nil => rfl
  | cons v vs ih => rw [toWords_cons, List.length_cons, List.length_cons, ih]

/-- Arguments cross in the same words, and leave the same memory, wherever memory is the same. -/
theorem toWords_congr {ρ' : Type} (vs : List Value) {w : World ρ} {w' : World ρ'}
    (h : w.memory = w'.memory) :
    (toWords vs w).1 = (toWords vs w').1 ∧
      (toWords vs w).2.memory = (toWords vs w').2.memory := by
  induction vs generalizing w w' with
  | nil => exact ⟨rfl, h⟩
  | cons v vs ih =>
    have hv : (v.toWord w).1 = (v.toWord w').1 ∧
        (v.toWord w).2.memory = (v.toWord w').2.memory := by
      cases v with
      | string s =>
        simp only [toWord, World.place, h, and_self]
      | _ => exact ⟨rfl, h⟩
    obtain ⟨hx, hm⟩ := ih hv.2
    rw [toWords_cons, toWords_cons]
    exact ⟨by rw [hv.1, hx], hm⟩

/-- Any argument but a string crosses in the word that it has by itself. -/
theorem toWords_getElem?_of_not_string {vs : List Value} {v : Value} {i : Nat}
    (hv : vs[i]? = some v) (hs : ∀ s, v ≠ .string s) (w : World ρ) :
    (toWords vs w).1[i]? = some v.word := by
  induction vs generalizing w i with
  | nil => cases hv
  | cons u us ih =>
    rw [toWords_cons]
    cases i with
    | zero =>
      cases hv
      rw [toWord_of_not_string hs]
      rfl
    | succ i => exact ih hv _

/-- Without strings nothing is put into memory. -/
theorem toWords_of_no_string {vs : List Value} (h : ∀ v ∈ vs, ∀ s, v ≠ .string s) (w : World ρ) :
    toWords vs w = (vs.map word, w) := by
  induction vs with
  | nil => rfl
  | cons v vs ih =>
    rw [toWords_cons, toWord_of_not_string (h v List.mem_cons_self),
      ih fun v hv => h v (List.mem_cons_of_mem _ hv)]
    rfl

theorem frontier_toWord (v : Value) (w : World ρ) :
    w.memory.frontier ≤ (v.toWord w).2.memory.frontier := by
  cases v with
  | string s =>
    have hroom := w.memory.frontier_place s.bytes
    exact (by omega : w.memory.frontier ≤ (w.memory.place s.bytes).2.frontier)
  | _ => exact Nat.le_refl _

theorem frontier_toWords (vs : List Value) (w : World ρ) :
    w.memory.frontier ≤ (toWords vs w).2.memory.frontier := by
  induction vs generalizing w with
  | nil => exact Nat.le_refl _
  | cons v vs ih => exact Nat.le_trans (frontier_toWord v w) (ih _)

theorem byte_toWord {v : Value} {w : World ρ} (h : (v.toWord w).2.memory.frontier ≤ 2 ^ 64)
    {a : Address} (ha : a.toNat < w.memory.frontier) :
    (v.toWord w).2.memory.byte a = w.memory.byte a := by
  cases v with
  | string s => exact Memory.byte_place h ha
  | _ => rfl

/-- Making words of arguments leaves the memory that was in use. -/
theorem byte_toWords {vs : List Value} {w : World ρ}
    (h : (toWords vs w).2.memory.frontier ≤ 2 ^ 64) {a : Address}
    (ha : a.toNat < w.memory.frontier) :
    (toWords vs w).2.memory.byte a = w.memory.byte a := by
  induction vs generalizing w with
  | nil => rfl
  | cons v vs ih =>
    have hv := frontier_toWord v w
    have hvs := frontier_toWords vs (v.toWord w).2
    have hspace : (toWords vs (v.toWord w).2).2.memory.frontier ≤ 2 ^ 64 := h
    rw [toWords_cons, ih hspace (by omega), byte_toWord (by omega) ha]

/-- Native code reads a string argument at the address that is its word. -/
theorem cstring_toWords {vs : List Value} {w : World ρ}
    (h : (toWords vs w).2.memory.frontier ≤ 2 ^ 64) {i : Nat} {s : CString} {x : UInt64}
    (hv : vs[i]? = some (.string s)) (hx : (toWords vs w).1[i]? = some x) :
    (toWords vs w).2.memory.cstring ⟨x⟩ = s := by
  induction vs generalizing w i with
  | nil => cases hv
  | cons v vs ih =>
    rw [toWords_cons] at h hx ⊢
    cases i with
    | zero =>
      cases hv
      cases hx
      have hvs := frontier_toWords vs ((string s).toWord w).2
      exact Memory.cstring_of_place (Nat.le_trans hvs h) fun a ha => byte_toWords h ha
    | succ i => exact ih h hv hx

end Value

/-! ### The gate through a call -/

/-- The world after a convention was told: one without an interface of its own is noted. -/
def World.modeTold (w : World ρ) (c : Convention) : World ρ :=
  if c.isDistinct then w else w.note (.indistinct c)

@[simp] theorem World.memory_modeTold (w : World ρ) (c : Convention) :
    (w.modeTold c).memory = w.memory := by
  unfold modeTold; split <;> rfl

@[simp] theorem World.native_modeTold (w : World ρ) (c : Convention) :
    (w.modeTold c).native = w.native := by
  unfold modeTold; split <;> rfl

namespace Gate

/-- The gate with convention and arguments of a call in place. -/
def loaded (g : Gate) (c : Convention) (args : List Value) : Gate :=
  { g with abi := c.abi, args, error := if c.isDistinct then 0 else unsupportedMode }

theorem foldl_push (enter : Prepared → Code ρ) (args : List Value) (g : Gate) (w : World ρ) :
    args.foldl (fun s v => (machineThrough enter).push v s) (g, w) =
      ({ g with args := g.args ++ args }, w) := by
  induction args generalizing g with
  | nil => rw [List.append_nil]; rfl
  | cons v vs ih =>
    rw [List.foldl_cons, List.append_cons]
    exact ih _

theorem ready_memory (i : Interface) (g : Gate) (w : World ρ) :
    (ready i (g, w)).2.memory = w.memory := by
  unfold ready; dsimp only; split <;> rfl

theorem ready_native (i : Interface) (g : Gate) (w : World ρ) :
    (ready i (g, w)).2.native = w.native := by
  unfold ready; dsimp only; split <;> rfl

theorem execute_gate (enter : Prepared → Code ρ) (f : Function) (args : List Value) (g : Gate)
    (w : World ρ) :
    (machineThrough enter).execute f args (g, w) =
      let crossed := Value.toWords args (w.modeTold f.convention)
      let loaded := g.loaded f.convention args
      let i := loaded.interface f.signature.ret
      let s := ready i (loaded, crossed.2)
      let left := s.2.unseen (enter (loaded.prepared i) f.address crossed.1)
      (.ofWord f.signature.ret left.1, s.1, left.2) := by
  have hmode : (machineThrough enter).setMode f.convention
      ((machineThrough enter).reset (g, w)) =
        (g.loaded f.convention [], w.modeTold f.convention) := by
    unfold machineThrough loaded World.modeTold
    dsimp only
    split <;> rfl
  unfold CallMachine.execute
  dsimp only
  rw [hmode, foldl_push]
  rfl

end Gate

namespace Function

/-- A call through the gate enters native code once: through one prepared interface, at the
    function's address, with the words of the arguments in the form of their parameters. -/
theorem callRaw_through (enter : Prepared → Code ρ) {f : Function} {args ws : List Value}
    (h : f.Fitted args ws) (g : Gate) (w : World ρ) :
    f.callRaw (Gate.machineThrough enter) args (g, w) =
      let start := (w.note (.calling f.convention f.signature)).modeTold f.convention
      let crossed := Value.toWords ws start
      let loaded := g.loaded f.convention ws
      let i := loaded.interface f.signature.ret
      let s := Gate.ready i (loaded, crossed.2)
      let left := s.2.unseen (enter (loaded.prepared i) f.address crossed.1)
      (.ok (.ofWord f.signature.ret left.1), s.1, left.2.note .called) := by
  rw [callRaw_of_fitted _ h, ← execute_eq_follow, noted, Gate.execute_gate]
  rfl

/-- Where code is the same through every interface, it does not matter which one a call goes
    through. -/
theorem callRaw_gate (code : Code ρ) {f : Function} {args ws : List Value} (h : f.Fitted args ws)
    (g : Gate) (w : World ρ) :
    f.callRaw (Gate.machine code) args (g, w) =
      let start := (w.note (.calling f.convention f.signature)).modeTold f.convention
      let crossed := Value.toWords ws start
      let s := Gate.ready ((g.loaded f.convention ws).interface f.signature.ret)
        (g.loaded f.convention ws, crossed.2)
      let left := s.2.unseen (code f.address crossed.1)
      (.ok (.ofWord f.signature.ret left.1), s.1, left.2.note .called) :=
  callRaw_through (fun _ => code) h g w

/-- What a call through the gate gives depends on the gate in nothing. -/
theorem call_gate (code : Code ρ) {f : Function} {args ws : List Value} (h : f.Fitted args ws)
    (g : Gate) (w : World ρ) :
    ∃ u, u.memory = (Value.toWords ws w).2.memory ∧ u.native = w.native ∧
      (f.call (Gate.machine code) args (g, w)).1 =
        let left := code f.address (Value.toWords ws w).1 u
        .ok ((Value.ofWord f.signature.ret left.1).received left.2.memory f.signature.ret) := by
  let start := (w.note (.calling f.convention f.signature)).modeTold f.convention
  have hstart : start.memory = w.memory := World.memory_modeTold ..
  obtain ⟨hwords, hmemory⟩ := Value.toWords_congr ws hstart
  let s := Gate.ready ((g.loaded f.convention ws).interface f.signature.ret)
    (g.loaded f.convention ws, (Value.toWords ws start).2)
  refine ⟨{ s.2 with ledger := .empty }, ?_, ?_, ?_⟩
  · rw [← hmemory]
    exact Gate.ready_memory ..
  · rw [show _ = s.2.native from rfl, Gate.ready_native, Value.toWords_native]
    exact World.native_modeTold ..
  · rw [call, callRaw_gate code h, ← hwords]
    rfl

end Function

end NativeGate
