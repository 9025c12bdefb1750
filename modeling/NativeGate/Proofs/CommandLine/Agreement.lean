import NativeGate.CommandLine.Run
import NativeGate.Proofs.Call.History
import NativeGate.Proofs.Manifest

/-!
The two ways to call from the command line. A manifest whose only function has a binary, a symbol, a
convention and a signature names what the same four words name directly: what reading the manifest
finds wrong is the signature, which the direct way finds wrong as well if it comes that far, and the
library and the symbol are looked for alike (`found_agree`). Up to the call the world changes in its
ledger only, so both ways fail, or both take the call machine through the same steps and print the
same (`call_agrees_with_pipe`).
-/

namespace NativeGate

/-! ### Looking for the function -/

section
variable {ρ : Type}

/-- Worlds that differ in their ledger only have the same memory and the same native state. -/
theorem World.of_unledgered_eq {w w' : World ρ} (h : w.unledgered = w'.unledgered) :
    w.memory = w'.memory ∧ w.native = w'.native :=
  World.mk.inj h |>.imp_right And.right

theorem Library.resolved_unledgered (l : Library) (identifier : String) (w : World ρ) :
    ∃ w', l.resolved identifier w = (l.resolve identifier, w') ∧ w'.unledgered = w.unledgered := by
  obtain ⟨w', hresolved, rfl | rfl⟩ := l.resolved_cases identifier w
  · exact ⟨_, hresolved, rfl⟩
  · exact ⟨_, hresolved, rfl⟩

namespace Pipe

theorem library_unledgered (loader : Loader) (binary : String) (s : Pipe × World ρ) :
    (library loader binary s).2.2.unledgered = s.2.unledgered := by
  unfold library Library.opened
  split
  · rfl
  · cases Library.find loader binary <;> rfl

/-- A request changes nothing in the world but the ledger. -/
theorem get_unledgered (loader : Loader) (name : String) (s : Pipe × World ρ) :
    (get loader name s).2.2.unledgered = s.2.unledgered := by
  unfold get
  cases s.1.spec? name with
  | none => rfl
  | some spec =>
    simp only [resolve]
    cases spec.symbols.current? with
    | none => rfl
    | some identifier =>
      have hlibrary := library_unledgered loader spec.binary s
      generalize library loader spec.binary s = r at hlibrary ⊢
      rcases r with ⟨_ | l, p, w⟩
      · exact hlibrary
      · obtain ⟨w', hresolved, hsame⟩ := l.resolved_unledgered identifier w
        simp only [hresolved]
        cases l.resolve identifier with
        | error e => exact hsame.trans hlibrary
        | ok a => exact hsame.trans hlibrary

end Pipe

namespace CommandLine

theorem exported_eq (loader : Loader) (binary identifier : String) (convention : Convention)
    (signature : String) (w : World ρ) :
    (exported loader binary identifier convention signature w).1 =
        ((Library.find loader binary).bind fun l => (l.resolve identifier).bind fun a =>
          (Function.parse a convention signature).mapError Error.ofSignature) ∧
      (exported loader binary identifier convention signature w).2.unledgered = w.unledgered := by
  unfold exported Library.opened
  cases Library.find loader binary with
  | error e => exact ⟨rfl, rfl⟩
  | ok l =>
    obtain ⟨w', hresolved, hsame⟩ :=
      l.resolved_unledgered identifier (w.note (.libraryLoaded l.name))
    simp only [hresolved, Except.bind]
    cases l.resolve identifier with
    | error e => exact ⟨rfl, hsame⟩
    | ok a => exact ⟨rfl, hsame⟩

section
variable (loader : Loader) (binary identifier : String) (convention : Convention)
variable {signature : String} (w : World ρ)

/-- With a malformed signature there is no function, wherever that is found out. -/
theorem exported_malformed {fault : SignatureError} (h : Signature.parse signature = .error fault) :
    (exported loader binary identifier convention signature w).1.toOption = none := by
  rw [(exported_eq loader binary identifier convention signature w).1]
  cases Library.find loader binary with
  | error e => rfl
  | ok l =>
    simp only [Except.bind, Function.parse, h]
    cases l.resolve identifier <;> rfl

theorem exported_parsed {s : Signature} (h : Signature.parse signature = .ok s) :
    (exported loader binary identifier convention signature w).1 =
      (Library.find loader binary).bind fun l =>
        (l.resolve identifier).map fun a => ⟨a, convention, s⟩ := by
  rw [(exported_eq loader binary identifier convention signature w).1]
  cases Library.find loader binary with
  | error e => rfl
  | ok l =>
    simp only [Except.bind, Function.parse, h]
    cases l.resolve identifier <;> rfl

end

theorem manifested_eq (loader : Loader) {files : Files} {path : String} {c : Config}
    (h : Config.load files path = .ok c) (name : String) (w : World ρ) :
    (manifested loader files path name w).1 =
        Pipe.outcome loader (Config.default.merge c).functions name ∧
      (manifested loader files path name w).2.unledgered = w.unledgered := by
  have hpipe : Pipe.ofFiles files [path] =
      .ok (.new (Config.default.merge c).functions) := by
    rw [Pipe.ofFiles, List.foldlM_cons, h]
    rfl
  rw [manifested, hpipe]
  exact ⟨((Pipe.follows_new loader _ w).get name).1, Pipe.get_unledgered loader name _⟩

section
variable {files : Files} {path text name binary identifier signature : String}
variable {convention : Convention}

/-- Both ways look for the same function, and find it in the same world but for the ledger. -/
theorem found_agree (loader : Loader) (hfile : files.read path = .ok text)
    (h : Manifests text name binary identifier convention signature) (w : World ρ) :
    (exported loader binary identifier convention signature w).1.toOption =
        (manifested loader files path name w).1.toOption ∧
      (exported loader binary identifier convention signature w).2.unledgered =
        (manifested loader files path name w).2.unledgered := by
  have hload : Config.load files path = Config.parse text := by rw [Config.load, hfile]
  rw [(exported_eq loader binary identifier convention signature w).2]
  cases hc : Config.parse text with
  | error e =>
    obtain ⟨fault, hs⟩ := h.malformed hc
    have hpipe : Pipe.ofFiles files [path] = .error e := by
      rw [Pipe.ofFiles, List.foldlM_cons, hload, hc]
      rfl
    rw [exported_malformed loader binary identifier convention w hs, manifested, hpipe]
    exact ⟨rfl, rfl⟩
  | ok c =>
    obtain ⟨s, hs, houtcome⟩ := h.outcome_eq hc
    obtain ⟨hmanifested, hleft⟩ := manifested_eq loader (hload.trans hc) name w
    rw [exported_parsed loader binary identifier convention w hs, hmanifested, hleft, houtcome]
    exact ⟨rfl, rfl⟩

end

/-! ### The call -/

/-- The steps that the call machine is taken through when a function was looked for to be called
    with words. -/
def foundSteps (b : Build) (code : Code ρ) (capacity : Nat) (words : List String) :
    Except Error Function × World ρ → List Step
  | (.error _, _) => []
  | (.ok f, w) =>
    match readWords b f.signature words with
    | .error _ => []
    | .ok args =>
      (f.call (Gate.machine code).observed args ((Gate.withCapacity capacity, []), w)).2.1.2

/-- The steps that the call machine is taken through by a command. -/
def steps (b : Build) (code : Code ρ) (loader : Loader) (files : Files) (capacity : Nat)
    (command : Command) (w : World ρ) : List Step :=
  match command with
  | .describe _ _ => []
  | .call library identifier signature convention args =>
    foundSteps b code capacity args (exported loader library identifier convention signature w)
  | .pipe manifest name args =>
    foundSteps b code capacity args (manifested loader files manifest name w)

section
variable (b : Build) (code : Code ρ) (capacity : Nat) (words : List String)

/-- A call with words fails before the machine has taken a step, or takes the machine through the
    protocol of the call and prints. -/
theorem callWords_cases (f : Function) (w : World ρ) :
    (∃ e, (callWords b code capacity f words w).1 = .error e ∧
        foundSteps b code capacity words (.ok f, w) = []) ∨
      ∃ ws printed, (callWords b code capacity f words w).1 = .ok printed ∧
        foundSteps b code capacity words (.ok f, w) = f.protocol ws := by
  rw [callWords, foundSteps]
  cases readWords b f.signature words with
  | error e => exact .inl ⟨e, rfl, rfl⟩
  | ok args =>
    cases hp : f.prepare args with
    | error e =>
      have hrefused := Function.prepare_eq_error_iff.1 hp
      simp only [Function.call_of_refused _ hrefused]
      exact .inl ⟨.refused e, rfl, rfl⟩
    | ok ws =>
      have hfit := Function.prepare_eq_ok_iff.1 hp
      simp only [Function.call_observed _ hfit]
      simp only [Function.call_of_fitted _ hfit]
      exact .inr ⟨ws, _, rfl, rfl⟩

/-- A call through a new gate gives the same, with the same error code, and leaves the same, in
    worlds that differ in their ledger only. -/
theorem call_unledgered (f : Function) (args : List Value) {w w' : World ρ}
    (h : w.unledgered = w'.unledgered) :
    let r := f.call (Gate.machine code) args (Gate.withCapacity capacity, w)
    let r' := f.call (Gate.machine code) args (Gate.withCapacity capacity, w')
    r.1 = r'.1 ∧ r.2.1.error = r'.2.1.error ∧ r.2.2.unledgered = r'.2.2.unledgered := by
  intro r r'
  obtain ⟨hm, hn⟩ := World.of_unledgered_eq h
  have hg := Gate.sound_withCapacity capacity
  obtain ⟨hresult, hmemory, hnative⟩ := Function.call_agree (fun _ => code) hg hg f args hm hn
  refine ⟨hresult, ?_, World.unledgered_congr hmemory hnative⟩
  cases hp : f.prepare args with
  | error e =>
    have hrefused := Function.prepare_eq_error_iff.1 hp
    simp only [r, r', Function.call_of_refused _ hrefused, noted]
  | ok ws =>
    have hfit := Function.prepare_eq_ok_iff.1 hp
    have herror := (Function.call_sound (fun _ => code) hfit hg w).2.2.2
    exact herror.trans (Function.call_sound (fun _ => code) hfit hg w').2.2.2.symm

/-- A call with words prints and leaves the same in worlds that differ in their ledger only, and
    takes the machine through the same steps. -/
theorem callWords_agree (f : Function) {w w' : World ρ} (h : w.unledgered = w'.unledgered) :
    (callWords b code capacity f words w).1 = (callWords b code capacity f words w').1 ∧
      (callWords b code capacity f words w).2.unledgered =
        (callWords b code capacity f words w').2.unledgered ∧
      foundSteps b code capacity words (.ok f, w) =
        foundSteps b code capacity words (.ok f, w') := by
  simp only [callWords, foundSteps]
  cases readWords b f.signature words with
  | error e => exact ⟨rfl, h, rfl⟩
  | ok args =>
    obtain ⟨hresult, herror, hleft⟩ := call_unledgered code capacity f args h
    refine ⟨by simp only [hresult, herror], hleft, ?_⟩
    cases hp : f.prepare args with
    | error e =>
      have hrefused := Function.prepare_eq_error_iff.1 hp
      simp only [Function.call_of_refused _ hrefused, noted]
    | ok ws =>
      have hfit := Function.prepare_eq_ok_iff.1 hp
      simp only [Function.call_observed _ hfit]

/-- A function that was looked for is called in full, or the command fails before the machine has
    taken a step. -/
theorem callFound_cases (r : Except Error Function × World ρ) :
    (∃ e, (callFound b code capacity words r).1 = .error e ∧
        foundSteps b code capacity words r = []) ∨
      ∃ (f : Function) (ws : List Value) (printed : Printed),
        (callFound b code capacity words r).1 = .ok printed ∧
        foundSteps b code capacity words r = f.protocol ws := by
  obtain ⟨e | f, w⟩ := r
  · exact .inl ⟨.refused e, rfl, rfl⟩
  · exact (callWords_cases b code capacity words f w).imp_right fun hcall => ⟨f, hcall⟩

/-- So do calls of functions that were looked for, if both were found and are the same, or neither
    was found; then the build stops at neither. -/
theorem callFound_agree {r r' : Except Error Function × World ρ}
    (hfound : r.1.toOption = r'.1.toOption) (h : r.2.unledgered = r'.2.unledgered) :
    (callFound b code capacity words r).1.toOption =
        (callFound b code capacity words r').1.toOption ∧
      (∀ o, (callFound b code capacity words r).1 = .error (.stopped o) ↔
        (callFound b code capacity words r').1 = .error (.stopped o)) ∧
      (callFound b code capacity words r).2.unledgered =
        (callFound b code capacity words r').2.unledgered ∧
      foundSteps b code capacity words r = foundSteps b code capacity words r' := by
  obtain ⟨_ | f, w⟩ := r
  · obtain ⟨_ | f', w'⟩ := r'
    · exact ⟨rfl, fun o => ⟨nofun, nofun⟩, h, rfl⟩
    · cases hfound
  · obtain ⟨_ | f', w'⟩ := r'
    · cases hfound
    · cases hfound
      obtain ⟨hresult, hleft, hsteps⟩ := callWords_agree b code capacity words f h
      exact ⟨congrArg _ hresult, fun o => hresult ▸ Iff.rfl, hleft, hsteps⟩

end

/-- A call of what an identifier names in a library agrees with a call of the only function of a
    manifest that describes it: both fail before the call machine has taken a step, or both take it
    through the same call, which invokes the same address with the same values, and print the same.
    Where the build stops at one it stops at the other. What they leave differs in the ledger
    only. -/
theorem call_agrees_with_pipe (b : Build) (code : Code ρ) (loader : Loader) {files : Files}
    (capacity : Nat) (args : List String) (w : World ρ)
    {path text name binary identifier signature : String} {convention : Convention}
    (hfile : files.read path = .ok text)
    (h : Manifests text name binary identifier convention signature) :
    let call := Command.call binary identifier signature convention args
    let pipe := Command.pipe path name args
    let called := execute b code loader files capacity call w
    let piped := execute b code loader files capacity pipe w
    called.2.unledgered = piped.2.unledgered ∧
      (∀ o, called.1 = .error (.stopped o) ↔ piped.1 = .error (.stopped o)) ∧
      ((∃ e e', called.1 = .error e ∧ piped.1 = .error e' ∧
          steps b code loader files capacity call w = [] ∧
          steps b code loader files capacity pipe w = []) ∨
        ∃ (f : Function) (vs : List Value) (printed : Printed),
          called.1 = .ok printed ∧ piped.1 = .ok printed ∧
          steps b code loader files capacity call w = f.protocol vs ∧
          steps b code loader files capacity pipe w = f.protocol vs) := by
  intro call pipe called piped
  obtain ⟨hfound, hworld⟩ := found_agree loader hfile h w
  obtain ⟨hresult, hstops, hleft, hsteps⟩ := callFound_agree b code capacity args hfound hworld
  refine ⟨hleft, hstops, ?_⟩
  rcases callFound_cases b code capacity args
      (exported loader binary identifier convention signature w) with
    ⟨e, he, hnone⟩ | ⟨f, vs, printed, hok, hprotocol⟩
  · obtain ⟨e', he'⟩ := Except.exists_error_of_toOption_eq hresult he
    exact .inl ⟨e, e', he, he', hnone, hsteps.symm.trans hnone⟩
  · have hok' := Except.eq_ok_of_toOption_eq hresult hok
    exact .inr ⟨f, vs, printed, hok, hok', hprotocol, hsteps.symm.trans hprotocol⟩

/-- A loader with one library, under a file name that its bare name stands for. -/
def onlyLibrary : Loader where
  image name :=
    if name = "libm.so" then .ok ⟨fun symbol => if symbol = "abs" then some ⟨4096⟩ else none, none⟩
    else .error "cannot open"

/-- Code that gives back its first argument. -/
def giveBack : Code Unit := fun _ words w => (words.headD 0, w)

theorem read_only (text : String) : Files.read ⟨[(["f"], text)], []⟩ "f" = .ok text := by
  -- `splitOn` recurses by position, so it is unfolded once for each of the two positions
  have hsplit : "f".splitOn "/" = ["f"] := by
    rw [String.splitOn, if_neg (by decide), String.splitOnAux, if_neg (by decide +kernel),
      if_neg (by decide +kernel), String.splitOnAux, if_pos (by decide +kernel)]
    decide +kernel
  have hparts : Files.parts "f" = ["f"] := by
    rw [Files.parts, hsplit]
    rfl
  have hstart : "f".startsWith "/" = false := by decide +kernel
  have hend : "f".endsWith "/" = false := by decide +kernel
  have hplace : Files.place ⟨[(["f"], text)], []⟩ "f" = .ok ["f"] := by
    rw [Files.place, hparts, hstart, hend]
    rfl
  rw [Files.read, hplace]
  rfl

/-- A number is given back both ways, under a convention that the system does not have. -/
theorem number_given_back_both_ways :
    ∃ (text : String) (files : Files) (printed : Printed),
      Manifests text "back" "m" "abs" .stdcall "i)i" ∧ files.read "f" = .ok text ∧
      printed = ⟨"-5\n", Outcome.line (warning .stdcall)⟩ ∧
      (execute .checked giveBack onlyLibrary files 0 (.call "m" "abs" "i)i" .stdcall ["-5"])
        (.start ())).1 = .ok printed ∧
      (execute .checked giveBack onlyLibrary files 0 (.pipe "f" "back" ["-5"]) (.start ())).1 =
        .ok printed := by
  obtain ⟨text, h⟩ := exists_manifests "back" "m" "abs" .stdcall "i)i"
  refine ⟨text, _, _, h, read_only text, rfl, rfl, ?_⟩
  obtain ⟨-, -, ⟨e, _, hcalled, -⟩ | ⟨_, _, printed, hcalled, hpiped, -⟩⟩ :=
    call_agrees_with_pipe .checked giveBack onlyLibrary 0 ["-5"] (.start ()) (read_only text) h
  · cases hcalled
  · cases hcalled
    exact hpiped

end CommandLine

end

end NativeGate
