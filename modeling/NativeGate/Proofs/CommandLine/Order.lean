import NativeGate.CommandLine.Arguments
import NativeGate.Proofs.Outcome

/-!
The order of a command line. Its words are read as items: operands, options with all their words,
and words that stop the reading; and they end in one of three ways, of which one is the lone `--`
with everything behind it. Every list of words is the line of its items and its ending, and of no
others (`readLine_eq_iff`). An operand only goes behind the operands before it, and an option never
looks at operands; so a line comes to what its options come to, with all the operands put in at the
end (`scan_line`). The order between operands and options is therefore without effect, and what
stands behind the lone `--` is kept as it is (`option_order_irrelevant`).
-/

namespace NativeGate.CommandLine

/-! ### Items of a line -/

/-- The word looks like no option: it does not begin like a long one, and is no short one. -/
def IsOperand (word : String) : Prop :=
  "--".toList.isPrefixOf word.toList = false ∧ word ≠ "-v" ∧ word ≠ "-h"

instance (word : String) : Decidable (IsOperand word) := inferInstanceAs (Decidable (_ ∧ _))

/-- The words that mean something where a long option may stand. -/
def longWords : List String :=
  ["--json", "--verbose", "--stats", "--help", "--convention", "--config", "--"]

/-- The word begins like a long option and is none. -/
def IsUnknown (word : String) : Prop :=
  "--".toList.isPrefixOf word.toList = true ∧ word ∉ longWords

instance (word : String) : Decidable (IsUnknown word) := inferInstanceAs (Decidable (_ ∧ _))

/-- A word that is positional wherever an option may stand. -/
structure Operand where
  word : String
  isOperand : IsOperand word

/-- A flag, or an option with its argument. -/
inductive Switch where
  | json
  | verbose (short : Bool)
  | stats
  | convention (word : String)
  | config (word : String)

/-- A word that stops the reading. -/
inductive Stopper where
  | help (short : Bool)
  | unknown (word : String) (h : IsUnknown word)

/-- What a line consists of. -/
inductive Item where
  | operand (o : Operand)
  | switch (s : Switch)
  | stopper (s : Stopper)

/-- How a line ends: with its last item, with a lone `--` and the words behind it, or with an option
    that lacks its argument. -/
inductive Ending where
  | done
  | escape (rest : List String)
  | noConvention
  | noConfig

def Switch.words : Switch → List String
  | json => ["--json"]
  | verbose short => [if short then "-v" else "--verbose"]
  | stats => ["--stats"]
  | convention word => ["--convention", word]
  | config word => ["--config", word]

def Stopper.word : Stopper → String
  | help short => if short then "-h" else "--help"
  | unknown word _ => word

def Item.words : Item → List String
  | operand o => [o.word]
  | switch s => s.words
  | stopper s => [s.word]

def Ending.words : Ending → List String
  | done => []
  | escape rest => "--" :: rest
  | noConvention => ["--convention"]
  | noConfig => ["--config"]

/-- The words of items and an ending. -/
def line (items : List Item) (ending : Ending) : List String :=
  items.flatMap Item.words ++ ending.words

theorem line_cons (i : Item) (items : List Item) (ending : Ending) :
    line (i :: items) ending = i.words ++ line items ending := by
  rw [line, List.flatMap_cons, List.append_assoc]
  rfl

/-- The operands of a line, in their order. -/
def operands (items : List Item) : List Operand :=
  items.filterMap fun
    | .operand o => some o
    | _ => none

/-- Everything on a line but the operands, in its order. -/
def options (items : List Item) : List Item :=
  items.filter fun
    | .operand _ => false
    | _ => true

/-! ### Reading items -/

/-- Puts an item in front. -/
def Item.before (i : Item) (r : List Item × Ending) : List Item × Ending := (i :: r.1, r.2)

/-- What a word does where an option may stand: it is an item by itself, or wants one more word, or
    it is the lone `--`. -/
inductive Head where
  | item (i : Item)
  | wants (option : String → Switch) (otherwise : Ending)
  | escape

def head (word : String) : Head :=
  if h : IsOperand word then .item (.operand ⟨word, h⟩)
  else if h : IsUnknown word then .item (.stopper (.unknown word h))
  else if word = "--json" then .item (.switch .json)
  else if word = "--verbose" then .item (.switch (.verbose false))
  else if word = "-v" then .item (.switch (.verbose true))
  else if word = "--stats" then .item (.switch .stats)
  else if word = "--help" then .item (.stopper (.help false))
  else if word = "-h" then .item (.stopper (.help true))
  else if word = "--convention" then .wants .convention .noConvention
  else if word = "--config" then .wants .config .noConfig
  else .escape

/-- The items and the ending of a line. -/
def readLine : List String → List Item × Ending
  | [] => ([], .done)
  | word :: rest =>
    match head word with
    | .item i => i.before (readLine rest)
    | .wants option otherwise =>
      match rest with
      | [] => ([], otherwise)
      | argument :: rest => (Item.switch (option argument)).before (readLine rest)
    | .escape => ([], .escape rest)

/-- What a head leads to is made of the word itself, and of one more word where that is wanted. -/
def Head.Leads (word : String) : Head → Prop
  | .item i => i.words = [word]
  | .wants option otherwise =>
    otherwise.words = [word] ∧ ∀ argument, (option argument).words = [word, argument]
  | .escape => word = "--"

/-- A word that looks like an option, and is not an unknown one, has a meaning. -/
theorem mem_longWords {word : String} (ho : ¬ IsOperand word) (hu : ¬ IsUnknown word)
    (hv : word ≠ "-v") (hh : word ≠ "-h") : word ∈ longWords := by
  have hlong : "--".toList.isPrefixOf word.toList = true := by
    rw [← Bool.not_eq_false]
    exact fun hno => ho ⟨hno, hv, hh⟩
  exact Decidable.byContradiction fun hno => hu ⟨hlong, hno⟩

theorem head_leads (word : String) : (head word).Leads word := by
  fun_cases head word
  case case11 ho hu hjson hverbose hv hstats hhelp hh hconvention hconfig =>
    have hmem := mem_longWords ho hu hv hh
    simp only [longWords, List.mem_cons, List.not_mem_nil, or_false] at hmem
    exact (((((hmem.resolve_left hjson).resolve_left hverbose).resolve_left hstats).resolve_left
      hhelp).resolve_left hconvention).resolve_left hconfig
  all_goals subst_vars
  all_goals first | exact rfl | exact ⟨rfl, fun _ => rfl⟩

theorem leads_of_head {word : String} {k : Head} (h : head word = k) : k.Leads word :=
  h ▸ head_leads word

theorem head_operand (o : Operand) : head o.word = .item (.operand o) := dif_pos o.isOperand

theorem head_unknown {word : String} (h : IsUnknown word) :
    head word = .item (.stopper (.unknown word h)) :=
  (dif_neg fun ho => Bool.noConfusion (ho.1.symm.trans h.1)).trans (dif_pos h)

theorem readLine_of_head_item {word : String} {i : Item} (h : head word = .item i)
    (rest : List String) : readLine (word :: rest) = i.before (readLine rest) := by
  simp only [readLine, h]

/-- An item is read from its words. -/
theorem readLine_words (i : Item) (rest : List String) :
    readLine (i.words ++ rest) = i.before (readLine rest) := by
  cases i with
  | operand o => exact readLine_of_head_item (head_operand o) rest
  | switch s => rcases s with _ | (_ | _) | _ | word | word <;> rfl
  | stopper s =>
    rcases s with (_ | _) | ⟨word, h⟩
    · rfl
    · rfl
    · exact readLine_of_head_item (head_unknown h) rest

theorem readLine_line (items : List Item) (ending : Ending) :
    readLine (line items ending) = (items, ending) := by
  induction items with
  | nil => cases ending <;> rfl
  | cons i items ih => rw [line_cons, readLine_words, ih, Item.before]

theorem line_readLine (words : List String) :
    line (readLine words).1 (readLine words).2 = words := by
  fun_induction readLine words with
  | case1 => rfl
  | case2 word rest i h ih =>
    have hlead : i.words = [word] := leads_of_head h
    rw [Item.before, line_cons, ih, hlead, List.singleton_append]
  | case3 word option otherwise h => exact (leads_of_head h).1
  | case4 word option otherwise h argument rest ih =>
    rw [Item.before, line_cons, ih, Item.words, (leads_of_head h).2 argument]
    rfl
  | case5 word rest h =>
    have hlead : word = "--" := leads_of_head h
    rw [hlead]
    rfl

/-- Every list of words is the line of its items and its ending, and of no others. -/
theorem readLine_eq_iff {words : List String} {items : List Item} {ending : Ending} :
    readLine words = (items, ending) ↔ line items ending = words := by
  constructor
  · intro h
    rw [← line_readLine words, h]
  · rintro rfl
    exact readLine_line items ending

/-! ### What a line comes to -/

/-- Puts positional words behind the others. -/
def Words.push (w : Words) (words : List String) : Words :=
  { w with positional := w.positional ++ words }

theorem Words.push_push (w : Words) (words more : List String) :
    (w.push words).push more = w.push (words ++ more) := by
  rw [push, push, push, List.append_assoc]

/-- What an option does to the words before it. -/
def Switch.apply (w : Words) : Switch → Except Fault Words
  | .json => .ok { w with json := true }
  | .verbose _ => .ok { w with verbose := true }
  | .stats => .ok { w with stats := true }
  | .convention word =>
    match Convention.parse? word with
    | some c => .ok { w with convention := c }
    | none => .error (.unknownConvention word)
  | .config word => .ok { w with config := some word }

def Stopper.fault : Stopper → Fault
  | help _ => .usage
  | unknown word _ => .unknownOption word

/-- What an item does to the words before it. -/
def Item.apply (w : Words) : Item → Except Fault Words
  | operand o => .ok (w.push [o.word])
  | switch s => s.apply w
  | stopper s => .error s.fault

/-- What an ending does to the words before it. -/
def Ending.apply (w : Words) : Ending → Except Fault Words
  | done => .ok w
  | escape rest => .ok (w.push rest)
  | noConvention => .error (.optionWithoutArgument "--convention")
  | noConfig => .error (.optionWithoutArgument "--config")

theorem isPrefixOf_of_mem_longWords :
    ∀ word ∈ longWords, "--".toList.isPrefixOf word.toList = true := by decide

/-- The words that have a meaning of their own. -/
def namedWords : List String := "-v" :: "-h" :: longWords

theorem IsOperand.notMem {word : String} (h : IsOperand word) : word ∉ namedWords := by
  simp only [namedWords, List.mem_cons, not_or]
  refine ⟨h.2.1, h.2.2, fun hmem => ?_⟩
  exact Bool.noConfusion (h.1.symm.trans (isPrefixOf_of_mem_longWords word hmem))

theorem IsUnknown.notMem {word : String} (h : IsUnknown word) : word ∉ namedWords := by
  simp only [namedWords, List.mem_cons, not_or]
  refine ⟨?_, ?_, h.2⟩
  · rintro rfl
    exact absurd h.1 (by decide)
  · rintro rfl
    exact absurd h.1 (by decide)

section
variable (w : Words) (rest : List String)

/-- Of a word without a meaning of its own, only the beginning is looked at. -/
theorem scan_other {word : String} (h : word ∉ namedWords) :
    w.scan (word :: rest) =
      if "--".toList.isPrefixOf word.toList then .error (.unknownOption word)
      else (w.push [word]).scan rest := by
  simp only [namedWords, longWords, List.mem_cons, List.not_mem_nil, or_false, not_or] at h
  obtain ⟨hv, hh, hjson, hverbose, hstats, hhelp, hconvention, hconfig, hescape⟩ := h
  rw [Words.scan]
  · rfl
  -- the word is none of those that the earlier cases are for
  all_goals
    intros
    contradiction

/-- An item does what it does, and the rest is read from there. -/
theorem scan_words (i : Item) :
    w.scan (i.words ++ rest) = (i.apply w).bind fun w => w.scan rest := by
  cases i with
  | operand o =>
    have hno : ¬ "--".toList.isPrefixOf o.word.toList = true := Bool.not_eq_true _ ▸ o.isOperand.1
    exact (scan_other w rest o.isOperand.notMem).trans (if_neg hno)
  | switch s =>
    rcases s with _ | (_ | _) | _ | word | word
    case convention =>
      rw [Item.words, Switch.words, Item.apply, Switch.apply, List.cons_append,
        List.singleton_append, Words.scan]
      cases Convention.parse? word <;> rfl
    all_goals rfl
  | stopper s =>
    rcases s with (_ | _) | ⟨word, h⟩
    · rfl
    · rfl
    · exact (scan_other w rest h.notMem).trans (if_pos h.1)

theorem scan_ending (ending : Ending) : w.scan ending.words = ending.apply w := by
  cases ending <;> rfl

/-- What items do in turn. -/
def applyAll (items : List Item) : Except Fault Words := items.foldlM Item.apply w

theorem applyAll_cons (i : Item) (items : List Item) :
    applyAll w (i :: items) = (i.apply w).bind fun w => applyAll w items := rfl

/-- A line does what its items do in turn, and then what its ending does. -/
theorem scan_items (items : List Item) (ending : Ending) :
    w.scan (line items ending) = (applyAll w items).bind ending.apply := by
  induction items generalizing w with
  | nil => exact scan_ending w ending
  | cons i items ih =>
    rw [line_cons, scan_words, applyAll_cons]
    cases i.apply w with
    | error e => rfl
    | ok w => exact ih w

/-- An option looks at no positional words. -/
theorem switch_apply_push (s : Switch) (words : List String) :
    s.apply (w.push words) = (s.apply w).map (·.push words) := by
  cases s with
  | convention word =>
    rw [Switch.apply, Switch.apply]
    cases Convention.parse? word <;> rfl
  | _ => rfl

end

/-- Options may be applied before positional words are put behind the others. -/
theorem applyAll_options_push (w : Words) (words : List String) (items : List Item) :
    applyAll (w.push words) (options items) =
      (applyAll w (options items)).map (·.push words) := by
  induction items generalizing w with
  | nil => rfl
  | cons i items ih =>
    cases i with
    | operand o => exact ih w
    | switch s =>
      change ((s.apply (w.push words)).bind fun w => applyAll w (options items)) =
        ((s.apply w).bind fun w => applyAll w (options items)).map (·.push words)
      rw [switch_apply_push]
      cases s.apply w with
      | error e => rfl
      | ok w => exact ih w
    | stopper s => rfl

/-- The words of the operands of a line. -/
def operandWords (items : List Item) : List String := (operands items).map (·.word)

/-- Items come to what the options among them come to, with the operands put behind. -/
theorem applyAll_eq (w : Words) (items : List Item) :
    applyAll w items =
      (applyAll w (options items)).map (·.push (operandWords items)) := by
  induction items generalizing w with
  | nil => exact congrArg Except.ok (congrArg (Words.mk · _ _ _ _ _) (List.append_nil _).symm)
  | cons i items ih =>
    cases i with
    | operand o =>
      change applyAll (w.push [o.word]) items =
        (applyAll w (options items)).map (·.push (o.word :: operandWords items))
      rw [ih, applyAll_options_push]
      cases applyAll w (options items) with
      | error e => rfl
      | ok w => exact congrArg Except.ok (Words.push_push w [o.word] (operandWords items))
    | switch s =>
      change ((s.apply w).bind fun w => applyAll w items) =
        ((s.apply w).bind fun w => applyAll w (options items)).map (·.push (operandWords items))
      cases s.apply w with
      | error e => rfl
      | ok w => exact ih w
    | stopper s => rfl

/-- What a line comes to is told by its options, its operands and its ending. -/
theorem scan_line (w : Words) (items : List Item) (ending : Ending) :
    w.scan (line items ending) =
      ((applyAll w (options items)).map (·.push (operandWords items))).bind ending.apply := by
  rw [scan_items, applyAll_eq]

/-- Lines with the same options, the same operands and the same ending come to the same. -/
theorem scan_line_congr {items items' : List Item} (w : Words) (ending : Ending)
    (hoptions : options items = options items') (hoperands : operands items = operands items') :
    w.scan (line items ending) = w.scan (line items' ending) := by
  rw [scan_line, scan_line, hoptions, operandWords, operandWords, hoperands]

/-- An operand and the option behind it may change places. -/
theorem scan_exchange (w : Words) (before after : List Item) (o : Operand) (s : Switch)
    (ending : Ending) :
    w.scan (line (before ++ .operand o :: .switch s :: after) ending) =
      w.scan (line (before ++ .switch s :: .operand o :: after) ending) := by
  apply scan_line_congr
  · simp [options]
  · simp [operands]

/-- The words behind the lone `--` come behind the positional words before it. -/
theorem scan_escape (w : Words) (items : List Item) (rest : List String) :
    w.scan (line items (.escape rest)) = (w.scan (line items .done)).map (·.push rest) := by
  rw [scan_items, scan_items]
  cases applyAll w items <;> rfl

theorem positional_of_switch_apply {w w' : Words} {s : Switch} (h : s.apply w = .ok w') :
    w'.positional = w.positional := by
  cases s with
  | convention word =>
    rw [Switch.apply] at h
    cases hword : Convention.parse? word with
    | none => cases hword ▸ h
    | some c =>
      rw [hword] at h
      rw [← Except.ok.inj h]
  | _ => rw [← Except.ok.inj h]

/-- Items put in the words of their operands, and no others. -/
theorem positional_of_applyAll {w w' : Words} {items : List Item}
    (h : applyAll w items = .ok w') : w'.positional = w.positional ++ operandWords items := by
  induction items generalizing w with
  | nil =>
    cases h
    exact (List.append_nil _).symm
  | cons i items ih =>
    obtain ⟨next, hi, hitems⟩ := Except.bind_eq_ok_iff.1 h
    rw [ih hitems]
    cases i with
    | operand o =>
      cases hi
      exact List.append_assoc _ _ _
    | switch s => rw [positional_of_switch_apply hi]; rfl
    | stopper s => cases hi

/-- The words of an ending that become positional. -/
def Ending.rest : Ending → List String
  | escape rest => rest
  | _ => []

theorem positional_of_scan {w w' : Words} {items : List Item} {ending : Ending}
    (h : w.scan (line items ending) = .ok w') :
    w'.positional = w.positional ++ operandWords items ++ ending.rest := by
  rw [scan_items] at h
  obtain ⟨next, hitems, hending⟩ := Except.bind_eq_ok_iff.1 h
  rw [← positional_of_applyAll hitems]
  cases ending with
  | done =>
    cases hending
    exact (List.append_nil _).symm
  | escape rest =>
    cases hending
    rfl
  | noConvention => cases hending
  | noConfig => cases hending

theorem parse_eq (words : List String) :
    parse words = (Words.none.scan words).bind fun w =>
      w.command.map fun c => ⟨c, w.config, w.verbose, w.stats⟩ := by
  rw [parse]
  cases Words.none.scan words with
  | error e => rfl
  | ok w =>
    change (w.command.bind fun c => _) = w.command.map _
    cases w.command <;> rfl

section
variable {items : List Item} {w : Words}

theorem command_push (h : Words.none.scan (line items .done) = .ok w) (args : List String) :
    (w.push args).command = { w with positional := operandWords items ++ args }.command := by
  have hpositional : w.positional = operandWords items :=
    (positional_of_scan h).trans (List.append_nil _)
  rw [Words.push, hpositional]

/-- A line ends in the lone `--` and words behind it as it ends without them, but for these. -/
theorem parse_escape (h : Words.none.scan (line items .done) = .ok w) (args : List String) :
    parse (line items (.escape args)) =
      { w with positional := operandWords items ++ args }.command.map
        fun c => ⟨c, w.config, w.verbose, w.stats⟩ := by
  rw [parse_eq, scan_escape, h, ← command_push h]
  rfl

/-- A call whose operands stand before the lone `--` is given exactly the words behind it. -/
theorem parse_call {library symbol signature : String}
    (h : Words.none.scan (line items .done) = .ok w)
    (hwords : operandWords items = ["call", library, symbol, signature]) (args : List String) :
    parse (line items (.escape args)) =
      .ok ⟨.call library symbol signature w.convention args, w.config, w.verbose, w.stats⟩ := by
  rw [parse_escape h, hwords]
  rfl

/-- So is a function of a manifest. -/
theorem parse_pipe {manifest name : String} (h : Words.none.scan (line items .done) = .ok w)
    (hwords : operandWords items = ["pipe", manifest, name]) (args : List String) :
    parse (line items (.escape args)) =
      .ok ⟨.pipe manifest name args, w.config, w.verbose, w.stats⟩ := by
  rw [parse_escape h, hwords]
  rfl

end

/-- Where there are only operands, no option is set. -/
theorem scan_operands (os : List Operand) :
    Words.none.scan (line (os.map .operand) .done) = .ok (Words.none.push (os.map (·.word))) := by
  have hoptions : options (os.map .operand) = [] := by simp [options]
  have hoperands : operands (os.map .operand) = os := by
    rw [operands, List.filterMap_map]
    exact List.filterMap_some
  rw [scan_line, hoptions, operandWords, hoperands]
  rfl

/-- Every list of words is read in one way as operands, options and an ending. An operand and an
    option beside it may change places, and the line comes to the same, be it an invocation or an
    error. The words behind the lone `--` become positional as they stand and in their order, so
    that `call` and `pipe` pass on exactly these if all their operands stand before it. -/
theorem option_order_irrelevant :
    (∀ words items ending, readLine words = (items, ending) ↔ line items ending = words) ∧
    (∀ before after o s ending,
      parse (line (before ++ .operand o :: .switch s :: after) ending) =
        parse (line (before ++ .switch s :: .operand o :: after) ending)) ∧
    (∀ items rest, Words.none.scan (line items (.escape rest)) =
      (Words.none.scan (line items .done)).map (·.push rest)) ∧
    (∀ items rest w, Words.none.scan (line items (.escape rest)) = .ok w →
      w.positional = operandWords items ++ rest) ∧
    (∀ (library symbol signature : Operand) (args : List String),
      parse (["call", library.word, symbol.word, signature.word, "--"] ++ args) =
        .ok ⟨.call library.word symbol.word signature.word .cdecl args, none, false, false⟩) ∧
    ∀ (manifest name : Operand) (args : List String),
      parse (["pipe", manifest.word, name.word, "--"] ++ args) =
        .ok ⟨.pipe manifest.word name.word args, none, false, false⟩ := by
  refine ⟨fun _ _ _ => readLine_eq_iff, ?_, fun items rest => scan_escape _ items rest,
    fun _ _ _ h => positional_of_scan h, ?_, ?_⟩
  · intro before after o s ending
    rw [parse_eq, parse_eq, scan_exchange]
  · intro library symbol signature args
    exact parse_call (scan_operands [⟨"call", by decide⟩, library, symbol, signature]) rfl args
  · intro manifest name args
    exact parse_pipe (scan_operands [⟨"pipe", by decide⟩, manifest, name]) rfl args

end NativeGate.CommandLine
