import Mathlib.Data.Finset.Card
import Mathlib.Data.Finset.Option
import Mathlib.Data.List.Basic
import Mathlib.Data.Nat.ModEq
import NativeGate.Pipe
import NativeGate.Proofs.Outcome

/-!
What a pipe keeps. A request for a function needs the library of its entry if the entry has a symbol
for this system, and it looks for that library only where the pipe does not hold it. After any
requests the pipe holds just the libraries that were needed and can be loaded, and the counter of
libraries has grown by their number (`Follows`). So what a request gives is told by the manifest and
the loader alone, and a library is looked for again only after it was not found
(`requests_independent`).
-/

namespace NativeGate
open Layout
variable {ρ : Type}

/-- The address of an identifier, with a note or without one. -/
theorem Library.resolved_cases (l : Library) (identifier : String) (w : World ρ) :
    ∃ w', l.resolved identifier w = (l.resolve identifier, w') ∧
      (w' = w ∨ w' = w.note (.patternFound l.name)) := by
  unfold resolved
  split
  · rename_i hresolve
    exact ⟨_, by rw [hresolve], .inr rfl⟩
  · exact ⟨w, rfl, .inl rfl⟩

/-! ### Libraries -/

namespace Library

/-- A file name that is tried for a library: the name itself and, where that is no path, the two
    that it may be short for. -/
inductive Tried (name : String) : String → Prop
  | itself : Tried name name
  | plain (hslash : '/' ∉ name.toList) (hback : '\\' ∉ name.toList) :
      Tried name ("lib" ++ name ++ ".so")
  | versioned (hslash : '/' ∉ name.toList) (hback : '\\' ∉ name.toList) :
      Tried name ("lib" ++ name ++ ".so.6")

variable {loader : Loader} {name : String}

theorem isPath_eq_false_iff : isPath name = false ↔ '/' ∉ name.toList ∧ '\\' ∉ name.toList := by
  simp only [isPath, List.any_eq_false, Bool.or_eq_true, decide_eq_true_eq, not_or]
  exact ⟨fun h => ⟨fun hc => (h _ hc).1 rfl, fun hc => (h _ hc).2 rfl⟩,
    fun h c hc => ⟨fun he => h.1 (he ▸ hc), fun he => h.2 (he ▸ hc)⟩⟩

theorem load_isOk_iff :
    (load loader name).isOk = true ↔
      '\x00' ∉ name.toList ∧ ∃ image, loader.image name = .ok image := by
  unfold load isName
  by_cases hname : '\x00' ∈ name.toList
  · simp [hname, Except.isOk, Except.toBool]
  · cases loader.image name <;> simp [hname, Except.isOk, Except.toBool]

/-- A library is found where the file of its name can be loaded or, for a name that is no path, one
    of the candidates. -/
theorem find_isOk_iff_load :
    (find loader name).isOk = true ↔ (load loader name).isOk = true ∨
      isPath name = false ∧ ∃ file ∈ candidates name, (load loader file).isOk = true := by
  unfold find
  cases load loader name with
  | ok l => exact iff_of_true rfl (.inl rfl)
  | error e =>
    cases hpath : isPath name with
    | true => simp [Except.isOk, Except.toBool]
    | false =>
      have hsome : ((candidates name).findSome? fun c => (load loader c).toOption).isSome = true ↔
          ∃ file ∈ candidates name, (load loader file).isOk = true := by
        rw [List.findSome?_isSome_iff]
        refine exists_congr fun file => and_congr_right fun _ => ?_
        cases load loader file <;> exact Iff.rfl
      rw [← hsome]
      cases (candidates name).findSome? fun c => (load loader c).toOption <;>
        simp [Except.isOk, Except.toBool]

/-- A library is found just where the loader has an image for one of the files tried for it. -/
theorem find_isOk_iff :
    (find loader name).isOk = true ↔
      ∃ file, Tried name file ∧ '\x00' ∉ file.toList ∧ ∃ image, loader.image file = .ok image := by
  simp only [find_isOk_iff_load, load_isOk_iff, isPath_eq_false_iff]
  constructor
  · rintro (hload | ⟨⟨hslash, hback⟩, file, hfile, hload⟩)
    · exact ⟨name, .itself, hload⟩
    · rcases List.mem_pair.1 hfile with rfl | rfl
      · exact ⟨_, .plain hslash hback, hload⟩
      · exact ⟨_, .versioned hslash hback, hload⟩
  · rintro ⟨file, htried, hload⟩
    cases htried with
    | itself => exact .inl hload
    | plain hslash hback => exact .inr ⟨⟨hslash, hback⟩, _, List.mem_pair.2 (.inl rfl), hload⟩
    | versioned hslash hback => exact .inr ⟨⟨hslash, hback⟩, _, List.mem_pair.2 (.inr rfl), hload⟩

end Library

namespace Pipe

/-! ### Requests -/

section
variable (loader : Loader) (functions : Dict FunctionSpec)

/-- The library that a request needs: that of an entry with a symbol for this system. -/
def needed (name : String) : Option String :=
  (functions.find? name).bind fun spec => spec.symbols.current?.map fun _ => spec.binary

def loadable (binary : String) : Bool := (Library.find loader binary).isOk

/-- What can be loaded, by the images of the loader and the names that are tried. -/
theorem loadable_iff {binary : String} :
    loadable loader binary = true ↔ ∃ file, Library.Tried binary file ∧ '\x00' ∉ file.toList ∧
      ∃ image, loader.image file = .ok image := Library.find_isOk_iff

/-- What a request comes to, by the manifest and the loader alone. -/
def outcome (name : String) : Except Error Function :=
  match functions.find? name with
  | none => .error (.unknownMember "Pipe" name)
  | some spec =>
    match spec.symbols.current? with
    | none => .error (.library (.noSymbol spec.binary))
    | some identifier =>
      (Library.find loader spec.binary).bind fun l =>
        (l.resolve identifier).map fun a => ⟨a, spec.convention, spec.signature⟩

/-- A look for the library of a name. -/
structure Attempt where
  binary : String
  succeeded : Bool

/-- The attempt that a request makes: the library that it needs is looked for where the pipe does
    not hold it. -/
def attempt? (name : String) (p : Pipe) : Option Attempt :=
  ((needed p.functions name).filter fun b => (p.libraries.lookup b).isNone).map fun b =>
    ⟨b, loadable loader b⟩

/-- What a request gave, and the attempt that it made. -/
structure Answer where
  result : Except Error Function
  attempt : Option Attempt

/-- Asks for functions one after the other. -/
def requests : List String → Pipe × World ρ → List Answer × (Pipe × World ρ)
  | [], s => ([], s)
  | name :: names, s =>
    let (result, next) := get loader name s
    let (answers, last) := requests names next
    (⟨result, attempt? loader name s.1⟩ :: answers, last)

/-- The attempts that requests make, in their order. -/
def attempts (names : List String) (s : Pipe × World ρ) : List Attempt :=
  (requests loader names s).1.filterMap (·.attempt)

end

/-! ### The libraries that a pipe holds -/

/-- A counter that began at `start` has grown by `n`, round the end of its word. -/
def Grown (start n now : Nat) : Prop :=
  now ≡ start + n [MOD 2 ^ 64] ∧ (start + n < 2 ^ 64 → now = start + n)

theorem Grown.zero (start : Nat) : Grown start 0 start := ⟨rfl, fun _ => rfl⟩

theorem Grown.succ {start n now : Nat} (h : Grown start n now) :
    Grown start (n + 1) ((now + 1) % 2 ^ 64) := by
  refine ⟨(Nat.mod_modEq ..).trans (h.1.add_right 1), fun hroom => ?_⟩
  have hnow : now = start + n := h.2 (by omega)
  rw [hnow]
  exact Nat.mod_eq_of_lt hroom

/-- The pipe over `functions` holds just the libraries that were asked for and can be loaded, and as
    many were loaded since the counter was at `start`. -/
structure Follows (loader : Loader) (functions : Dict FunctionSpec) (start : Nat)
    (asked : Finset String) (s : Pipe × World ρ) : Prop where
  functions : s.1.functions = functions
  libraries : ∀ b, s.1.libraries.lookup b =
    if b ∈ asked then (Library.find loader b).toOption else none
  counter : Grown start (asked.filter fun b => loadable loader b).card
    s.2.ledger.counters.librariesLoaded

section
variable {loader : Loader} {functions : Dict FunctionSpec} {start : Nat} {asked : Finset String}
variable {s : Pipe × World ρ}

theorem follows_new (loader : Loader) (functions : Dict FunctionSpec) (w : World ρ) :
    Follows loader functions w.ledger.counters.librariesLoaded ∅ (new functions, w) where
  functions := rfl
  libraries _ := rfl
  counter := .zero _

/-- What only notes that something was found changes nothing of this. -/
theorem Follows.note (h : Follows loader functions start asked s) {e : Event}
    (he : ∀ c : Counters, c.tally e = c) :
    Follows loader functions start asked (s.1, s.2.note e) where
  functions := h.functions
  libraries := h.libraries
  counter := by
    change Grown start _ (s.2.ledger.counters.tally e).librariesLoaded
    rw [he]
    exact h.counter

/-- A library that was asked for before, or cannot be loaded, is no new one. -/
theorem Follows.insert_same (h : Follows loader functions start asked s) {b : String}
    (hb : b ∈ asked ∨ loadable loader b = false) :
    Follows loader functions start (insert b asked) s := by
  by_cases hmem : b ∈ asked
  · rwa [Finset.insert_eq_of_mem hmem]
  have hno : loadable loader b = false := hb.resolve_left hmem
  refine ⟨h.functions, fun c => ?_, ?_⟩
  · rw [h.libraries]
    by_cases hc : c = b
    · subst hc
      rw [if_neg hmem, if_pos (Finset.mem_insert_self ..)]
      cases hfind : Library.find loader c with
      | error e => rfl
      | ok l => simp [loadable, hfind, Except.isOk, Except.toBool] at hno
    · simp [Finset.mem_insert, hc]
  · rw [Finset.filter_insert, if_neg (by rw [hno]; exact Bool.noConfusion)]
    exact h.counter

/-- A library that was found for the first time is held, and counted. -/
theorem Follows.insert_new (h : Follows loader functions start asked s) {b : String} {l : Library}
    (hb : b ∉ asked) (hfind : Library.find loader b = .ok l) :
    Follows loader functions start (insert b asked)
      ({ s.1 with libraries := (b, l) :: s.1.libraries }, s.2.note (.libraryLoaded l.name)) where
  functions := h.functions
  libraries c := by
    rw [Dict.lookup_cons_eq, h.libraries]
    by_cases hc : c = b
    · rw [if_pos hc, if_pos (hc ▸ Finset.mem_insert_self ..), hc, hfind]
      rfl
    · simp [Finset.mem_insert, hc]
  counter := by
    have hloadable : loadable loader b = true := by rw [loadable, hfind]; rfl
    rw [Finset.filter_insert, if_pos hloadable,
      Finset.card_insert_of_notMem fun hmem => hb (Finset.mem_filter.1 hmem).1]
    exact h.counter.succ

/-- The library of a name is what the loader finds, and is held from then on if it was found. -/
theorem Follows.library (h : Follows loader functions start asked s) (b : String) :
    (library loader b s).1 = Library.find loader b ∧
      Follows loader functions start (insert b asked) (library loader b s).2 := by
  have hheld := h.libraries b
  unfold Pipe.library
  cases hfind : Library.find loader b with
  | error e =>
    have hnone : s.1.libraries.lookup b = none := by
      rw [hheld, hfind]
      exact ite_self none
    simp only [hnone, Library.opened]
    exact ⟨trivial, h.insert_same (.inr (by rw [loadable, hfind]; rfl))⟩
  | ok l =>
    by_cases hmem : b ∈ asked
    · have hsome : s.1.libraries.lookup b = some l := by
        rw [hheld, if_pos hmem, hfind]
        rfl
      simp only [hsome]
      exact ⟨trivial, h.insert_same (.inl hmem)⟩
    · have hnone : s.1.libraries.lookup b = none := by rw [hheld, if_neg hmem]
      simp only [hnone, Library.opened]
      exact ⟨trivial, h.insert_new hmem hfind⟩

/-- The address of an identifier is found in the library; that may be noted. -/
theorem Follows.resolved (h : Follows loader functions start asked s) (l : Library)
    (identifier : String) :
    (l.resolved identifier s.2).1 = l.resolve identifier ∧
      Follows loader functions start asked (s.1, (l.resolved identifier s.2).2) := by
  obtain ⟨w, hresolved, rfl | rfl⟩ := l.resolved_cases identifier s.2
  · rw [hresolved]
    exact ⟨rfl, h⟩
  · rw [hresolved]
    exact ⟨rfl, h.note fun _ => rfl⟩

/-- The function of a description with a symbol for this system: the library is asked for first. -/
theorem Follows.resolve (h : Follows loader functions start asked s) {spec : FunctionSpec}
    {identifier : String} (hsymbol : spec.symbols.current? = some identifier) :
    (resolve loader spec s).1 = ((Library.find loader spec.binary).bind fun l =>
        (l.resolve identifier).map fun a => ⟨a, spec.convention, spec.signature⟩) ∧
      Follows loader functions start (insert spec.binary asked) (resolve loader spec s).2 := by
  obtain ⟨hlibrary, hnext⟩ := h.library spec.binary
  unfold Pipe.resolve
  rw [← hlibrary]
  rcases hfound : Pipe.library loader spec.binary s with ⟨_ | l, p, w⟩
  · rw [hfound] at hnext
    simp only [hsymbol]
    exact ⟨rfl, hnext⟩
  · rw [hfound] at hnext
    obtain ⟨haddress, hlast⟩ := hnext.resolved l identifier
    simp only [hsymbol]
    rw [Except.bind, ← haddress]
    generalize l.resolved identifier w = r at hlast ⊢
    rcases r with ⟨_ | a, w⟩
    · exact ⟨rfl, hlast⟩
    · exact ⟨rfl, hlast.note fun _ => rfl⟩

/-- A request comes to what the manifest and the loader say, and its library counts as asked for. -/
theorem Follows.get (h : Follows loader functions start asked s) (name : String) :
    (get loader name s).1 = outcome loader functions name ∧
      Follows loader functions start (asked ∪ (needed functions name).toFinset)
        (get loader name s).2 := by
  unfold Pipe.get outcome needed spec?
  rw [h.functions]
  cases functions.find? name with
  | none => exact ⟨rfl, by simpa using h⟩
  | some spec =>
    cases hsymbol : spec.symbols.current? with
    | none =>
      simp only [Pipe.resolve, hsymbol]
      exact ⟨trivial, by simpa [hsymbol] using h⟩
    | some identifier =>
      have hasked : asked ∪ ((some spec).bind fun spec =>
          spec.symbols.current?.map fun _ => spec.binary).toFinset = insert spec.binary asked := by
        simp [hsymbol]
      rw [hasked]
      simp only [hsymbol]
      exact h.resolve hsymbol

/-! ### Attempts -/

/-- An attempt is on the library that is needed and not held, and succeeds if that can be loaded. -/
theorem attempt?_eq_some_iff {p : Pipe} {name : String} {a : Attempt} :
    attempt? loader name p = some a ↔ needed p.functions name = some a.binary ∧
      p.libraries.lookup a.binary = none ∧ a.succeeded = loadable loader a.binary := by
  rw [attempt?, Option.map_eq_some_iff]
  constructor
  · rintro ⟨b, hb, rfl⟩
    obtain ⟨hneeded, hlookup⟩ := Option.filter_eq_some_iff.1 hb
    exact ⟨hneeded, Option.isNone_iff_eq_none.1 hlookup, rfl⟩
  · rintro ⟨hneeded, hlookup, hsucceeded⟩
    exact ⟨a.binary, Option.filter_eq_some_iff.2 ⟨hneeded, Option.isNone_iff_eq_none.2 hlookup⟩,
      congrArg (Attempt.mk a.binary) hsucceeded.symm⟩

/-- The loader is asked for a library that is not held, and for no other. -/
theorem library_congr {b : String} {other : Loader}
    (h : s.1.libraries.lookup b = none → Library.find other b = Library.find loader b) :
    library other b s = library loader b s := by
  unfold library
  cases hlookup : s.1.libraries.lookup b with
  | some l => rfl
  | none => rw [h hlookup]

/-- All that a request asks of the loader is the library of its attempt. -/
theorem get_congr {name : String} {other : Loader}
    (h : ∀ a, attempt? loader name s.1 = some a →
      Library.find other a.binary = Library.find loader a.binary) :
    get other name s = get loader name s := by
  unfold get spec?
  cases hspec : s.1.functions.find? name with
  | none => rfl
  | some spec =>
    simp only [resolve]
    cases hsymbol : spec.symbols.current? with
    | none => rfl
    | some identifier =>
      have hneeded : needed s.1.functions name = some spec.binary := by
        rw [needed, hspec, Option.bind_some, hsymbol]
        rfl
      have hsame : library other spec.binary s = library loader spec.binary s :=
        library_congr fun hlookup =>
          h ⟨spec.binary, loadable loader spec.binary⟩
            (attempt?_eq_some_iff.2 ⟨hneeded, hlookup, rfl⟩)
      rw [hsame]

/-- A library that was asked for before is looked for again only if it cannot be loaded. -/
theorem Follows.attempt (h : Follows loader functions start asked s) {name : String} {a : Attempt}
    (ha : attempt? loader name s.1 = some a) (hasked : a.binary ∈ asked) :
    a.succeeded = false := by
  obtain ⟨-, hlookup, hsucceeded⟩ := attempt?_eq_some_iff.1 ha
  rw [h.libraries, if_pos hasked] at hlookup
  rw [hsucceeded, loadable]
  cases hfind : Library.find loader a.binary with
  | error e => rfl
  | ok l =>
    rw [hfind] at hlookup
    cases hlookup

/-! ### A run of requests -/

theorem Follows.run (h : Follows loader functions start asked s) (names : List String) :
    (requests loader names s).1.map (·.result) = names.map (outcome loader functions) ∧
      Follows loader functions start (asked ∪ (names.filterMap (needed functions)).toFinset)
        (requests loader names s).2 := by
  induction names generalizing asked s with
  | nil =>
    rw [List.filterMap_nil, List.toFinset_nil, Finset.union_empty]
    exact ⟨rfl, h⟩
  | cons name names ih =>
    obtain ⟨hresult, hnext⟩ := h.get name
    obtain ⟨hresults, hlast⟩ := ih hnext
    have hasked : asked ∪ ((name :: names).filterMap (needed functions)).toFinset =
        asked ∪ (needed functions name).toFinset ∪
          (names.filterMap (needed functions)).toFinset := by
      cases hneeded : needed functions name <;> simp [hneeded]
    rw [hasked]
    exact ⟨congrArg₂ List.cons hresult hresults, hlast⟩

theorem attempts_cons (name : String) (names : List String) :
    attempts loader (name :: names) s =
      (attempt? loader name s.1).toList ++ attempts loader names (get loader name s).2 := by
  rw [attempts, requests, attempts]
  cases attempt? loader name s.1 <;> simp

/-- An attempt says whether the library can be loaded, and only one that failed is made again. -/
theorem Follows.attempts (h : Follows loader functions start asked s) (names : List String) :
    (attempts loader names s).Pairwise (fun a b => a.binary = b.binary → a.succeeded = false) ∧
      ∀ a ∈ attempts loader names s, a.succeeded = loadable loader a.binary ∧
        (a.binary ∈ asked → a.succeeded = false) := by
  induction names generalizing asked s with
  | nil => exact ⟨.nil, nofun⟩
  | cons name names ih =>
    obtain ⟨hpair, hall⟩ := ih (h.get name).2
    have hlater : ∀ b ∈ attempts loader names (Pipe.get loader name s).2,
        b.succeeded = loadable loader b.binary ∧ (b.binary ∈ asked → b.succeeded = false) :=
      fun b hb => ⟨(hall b hb).1, fun hasked => (hall b hb).2 (Finset.mem_union_left _ hasked)⟩
    rw [attempts_cons]
    cases ha : attempt? loader name s.1 with
    | none => exact ⟨hpair, hlater⟩
    | some a =>
      obtain ⟨hneeded, -, hsucceeded⟩ := attempt?_eq_some_iff.1 ha
      rw [h.functions] at hneeded
      refine ⟨List.pairwise_cons.2 ⟨fun b hb hsame => ?_, hpair⟩, ?_⟩
      · have hasked : b.binary ∈ asked ∪ (needed functions name).toFinset := by
          simp [hneeded, hsame]
        rw [hsucceeded, hsame, ← (hall b hb).1]
        exact (hall b hb).2 hasked
      · exact List.forall_mem_cons.2 ⟨⟨hsucceeded, h.attempt ha⟩, hlater⟩

end

/-- Requests to a new pipe come to what each of them comes to by itself, whatever was asked before.
    The counter of libraries has then grown by the number of libraries, as they are spelled, that
    were needed and can be loaded, which is where the loader has an image for one of the file names
    that are tried. A library is looked for again only if every look before failed,
    and a request asks nothing of the loader but the library of its attempt, if it makes one. -/
theorem requests_independent (loader : Loader) (functions : Dict FunctionSpec) (names : List String)
    (w : World ρ) :
    (requests loader names (new functions, w)).1.map (·.result) =
        names.map (outcome loader functions) ∧
      (∀ name (other : World ρ),
        (get loader name (requests loader names (new functions, w)).2).1 =
          (get loader name (new functions, other)).1) ∧
      Grown w.ledger.counters.librariesLoaded
        ((names.filterMap (needed functions)).filter fun b => loadable loader b).toFinset.card
        (requests loader names (new functions, w)).2.2.ledger.counters.librariesLoaded ∧
      (∀ b, loadable loader b = true ↔ ∃ file, Library.Tried b file ∧ '\x00' ∉ file.toList ∧
        ∃ image, loader.image file = .ok image) ∧
      ((attempts loader names (new functions, w)).Pairwise fun a b =>
        a.binary = b.binary → a.succeeded = false) ∧
      (∀ a ∈ attempts loader names (new functions, w),
        a.succeeded = loadable loader a.binary) ∧
      ∀ name (s : Pipe × World ρ) (other : Loader),
        (∀ a, attempt? loader name s.1 = some a →
          Library.find other a.binary = Library.find loader a.binary) →
        get other name s = get loader name s := by
  have hnew := follows_new loader functions w
  obtain ⟨hresults, hlast⟩ := hnew.run names
  obtain ⟨hpair, hall⟩ := hnew.attempts names
  refine ⟨hresults, fun name other => ?_, ?_, fun b => loadable_iff loader, hpair,
    fun a ha => (hall a ha).1, fun _ _ _ => get_congr⟩
  · rw [(hlast.get name).1, ((follows_new loader functions other).get name).1]
  · rw [List.toFinset_filter]
    simpa using hlast.counter

end Pipe

end NativeGate
