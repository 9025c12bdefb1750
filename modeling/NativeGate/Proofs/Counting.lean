import Mathlib.Algebra.Group.Nat.Defs
import Mathlib.Data.Nat.ModEq
import NativeGate.Ledger

/-!
What one dispatch adds to the counters. A refused call is one failure more, counted in all and under
its name; a call that was carried out is one call more. Nothing else moves, and an event that is
only logged moves nothing.
-/

namespace NativeGate.Counters

/-- From `c` to `d` one call more was made, and nothing else was counted. -/
structure CalledOnce (c d : Counters) : Prop where
  made : d.callsMade = (c.callsMade + 1) % 2 ^ 64
  failed : d.callFailures = c.callFailures
  hooks : d.hooksInstalled = c.hooksInstalled
  callbacks : d.callbacksRun = c.callbacksRun
  libraries : d.librariesLoaded = c.librariesLoaded
  named : ∀ name, d.errors name = c.errors name

/-- From `c` to `d` one call more failed, under this name, and nothing else was counted. -/
structure FailedOnce (name : String) (c d : Counters) : Prop where
  made : d.callsMade = c.callsMade
  failed : d.callFailures = (c.callFailures + 1) % 2 ^ 64
  hooks : d.hooksInstalled = c.hooksInstalled
  callbacks : d.callbacksRun = c.callbacksRun
  libraries : d.librariesLoaded = c.librariesLoaded
  named : d.errors name = (c.errors name + 1) % 2 ^ 64
  others : ∀ other, other ≠ name → d.errors other = c.errors other

theorem lookup_bump_self (name : String) (failures : List (String × Nat)) :
    (bump name failures).lookup name = some (((failures.lookup name).getD 0 + 1) % 2 ^ 64) := by
  induction failures with
  | nil => simp [bump]
  | cons first rest ih =>
    obtain ⟨n, count⟩ := first
    rw [bump]
    by_cases h : n = name
    · rw [if_pos h, h]
      simp [wordCount]
    · rw [if_neg h, List.lookup_cons, List.lookup_cons]
      have hne : (name == n) = false := by simpa using fun e => h e.symm
      rw [hne]
      exact ih

theorem lookup_bump_of_ne {name other : String} (h : other ≠ name)
    (failures : List (String × Nat)) :
    (bump name failures).lookup other = failures.lookup other := by
  have hb : (other == name) = false := by simpa using h
  induction failures with
  | nil => rw [bump, List.lookup_cons, hb]
  | cons first rest ih =>
    obtain ⟨n, count⟩ := first
    rw [bump]
    by_cases hn : n = name
    · rw [if_pos hn, List.lookup_cons, List.lookup_cons, hn, hb]
    · rw [if_neg hn, List.lookup_cons, List.lookup_cons, ih]

theorem errors_recordError_self (c : Counters) (name : String) :
    (c.recordError name).errors name = (c.errors name + 1) % 2 ^ 64 := by
  rw [errors, recordError, lookup_bump_self]
  rfl

theorem errors_recordError_of_ne (c : Counters) {name other : String} (h : other ≠ name) :
    (c.recordError name).errors other = c.errors other := by
  rw [errors, recordError, lookup_bump_of_ne h]
  rfl

theorem calledOnce_tally (c : Counters) : CalledOnce c (c.tally .called) :=
  ⟨rfl, rfl, rfl, rfl, rfl, fun _ => rfl⟩

theorem failedOnce_tally (c : Counters) (e : Error) :
    FailedOnce e.name c (c.tally (.rejected e)) :=
  ⟨rfl, rfl, rfl, rfl, rfl, errors_recordError_self _ _,
    fun _ h => errors_recordError_of_ne c.recordFailure h⟩

end NativeGate.Counters

/-! ### Counts of events -/

namespace NativeGate

/-- A number that the counters keep. -/
inductive Count where
  | made
  | failed
  | failedAs (name : String)
  | installed
  | ran

/-- What an event adds to a count. -/
def Event.adds : Event → Count → Nat
  | .called, .made => 1
  | .rejected _, .failed => 1
  | .rejected e, .failedAs name => if name = e.name then 1 else 0
  | .hookInstalled _, .installed => 1
  | .callbacksRunning _ _ n, .ran => n
  | _, _ => 0

/-- What events add to a count. -/
def added (events : List Event) (k : Count) : Nat := (events.map (·.adds k)).sum

theorem added_cons (e : Event) (events : List Event) (k : Count) :
    added (e :: events) k = e.adds k + added events k := List.sum_cons

theorem added_append (events before : List Event) (k : Count) :
    added (events ++ before) k = added events k + added before k := by
  rw [added, List.map_append, List.sum_append]
  rfl

namespace Counters

/-- The counter of a count. -/
def read (c : Counters) : Count → Nat
  | .made => c.callsMade
  | .failed => c.callFailures
  | .failedAs name => c.errors name
  | .installed => c.hooksInstalled
  | .ran => c.callbacksRun

/-- The sum of the counters by name. -/
def named (c : Counters) : Nat := (c.failures.map (·.2)).sum

/-- The counters after events, the latest first. -/
def of (events : List Event) : Counters := events.foldr (fun e c => c.tally e) .zero

theorem read_tally {c : Counters} {k : Count} (h : c.read k < 2 ^ 64) (e : Event) :
    (c.tally e).read k = (c.read k + e.adds k) % 2 ^ 64 := by
  have hsame : c.read k = (c.read k + 0) % 2 ^ 64 := (Nat.mod_eq_of_lt h).symm
  cases e with
  | rejected e =>
    cases k with
    | failed => rfl
    | failedAs name =>
      simp only [Event.adds]
      split
      · rename_i hname
        rw [hname]
        exact errors_recordError_self c.recordFailure e.name
      · rename_i hname
        exact (errors_recordError_of_ne c.recordFailure hname).trans hsame
    | _ => exact hsame
  | called | hookInstalled _ | callbacksRunning _ _ _ => cases k <;> first | rfl | exact hsame
  | _ => exact hsame

/-- Every counter is what the events add up to, in 64-bit words. -/
theorem read_of (events : List Event) (k : Count) :
    (of events).read k = added events k % 2 ^ 64 := by
  induction events with
  | nil => cases k <;> rfl
  | cons e events ih =>
    have hword : (of events).read k < 2 ^ 64 := by
      rw [ih]
      exact Nat.mod_lt _ (by decide)
    have htally : (of (e :: events)).read k = _ := read_tally hword e
    rw [htally, ih, added_cons, Nat.mod_add_mod, Nat.add_comm]

/-- Counting a name adds one to the sum, less only if its counter goes round. -/
theorem sum_bump (name : String) (failures : List (String × Nat)) :
    ((bump name failures).map (·.2)).sum ≡ (failures.map (·.2)).sum + 1 [MOD 2 ^ 64] ∧
      ((bump name failures).map (·.2)).sum ≤ (failures.map (·.2)).sum + 1 := by
  induction failures with
  | nil => exact ⟨rfl, Nat.le_refl _⟩
  | cons first rest ih =>
    obtain ⟨n, count⟩ := first
    rw [bump]
    split
    · simp only [List.map_cons, List.sum_cons, wordCount]
      have hround : (count + 1) % 2 ^ 64 ≤ count + 1 := Nat.mod_le ..
      refine ⟨?_, by omega⟩
      rw [Nat.add_right_comm]
      exact (Nat.mod_modEq (count + 1) (2 ^ 64)).add_right _
    · simp only [List.map_cons, List.sum_cons]
      exact ⟨by rw [Nat.add_assoc]; exact ih.1.add_left count, by omega⟩

theorem named_tally (c : Counters) (e : Event) :
    (c.tally e).named ≡ c.named + e.adds .failed [MOD 2 ^ 64] ∧
      (c.tally e).named ≤ c.named + e.adds .failed := by
  cases e with
  | rejected e => exact sum_bump e.name c.failures
  | _ => exact ⟨rfl, Nat.le_refl _⟩

/-- The counters by name add up to the number of refusals, less only if one goes round. -/
theorem named_of (events : List Event) :
    (of events).named ≡ added events .failed [MOD 2 ^ 64] ∧
      (of events).named ≤ added events .failed := by
  induction events with
  | nil => exact ⟨rfl, Nat.le_refl _⟩
  | cons e events ih =>
    obtain ⟨hmod, hle⟩ := named_tally (of events) e
    rw [added_cons, Nat.add_comm]
    exact ⟨hmod.trans (ih.1.add_right _), hle.trans (Nat.add_le_add_right ih.2 _)⟩

/-- The counters by name add up to the counter of failures, both round the end of the words, and
    exactly while fewer than `2 ^ 64` calls were refused. -/
theorem named_eq_failures (events : List Event) :
    (of events).named ≡ (of events).callFailures [MOD 2 ^ 64] ∧
      (added events .failed < 2 ^ 64 → (of events).named = (of events).callFailures) := by
  obtain ⟨hmod, hle⟩ := named_of events
  have hfailures : (of events).callFailures = added events .failed % 2 ^ 64 :=
    read_of events .failed
  refine ⟨?_, fun hfew => ?_⟩
  · rw [hfailures]
    exact hmod.trans (Nat.mod_modEq ..).symm
  · rw [hfailures]
    exact (Nat.mod_eq_of_lt (Nat.lt_of_le_of_lt hle hfew)) ▸ hmod

end Counters

namespace Ledger

/-- The ledger with events entered, the latest first. -/
def add (l : Ledger) (es : List Event) : Ledger := es.foldr (fun e l => l.note e) l

theorem add_append (l : Ledger) (es es' : List Event) : l.add (es' ++ es) = (l.add es).add es' :=
  List.foldr_append ..

theorem events_add (l : Ledger) (es : List Event) : (l.add es).events = es ++ l.events := by
  induction es with
  | nil => rfl
  | cons e es ih => exact congrArg (e :: ·) ih

/-- The counters are what the events add up to. -/
def Told (l : Ledger) : Prop := l.counters = .of l.events

theorem Told.add {l : Ledger} (h : l.Told) (es : List Event) : (l.add es).Told := by
  induction es with
  | nil => exact h
  | cons e es ih => exact congrArg (Counters.tally · e) ih

end Ledger

end NativeGate
