import NativeGate.Event
import NativeGate.Text.Blank

/-!
Which lines are kept. A filter is a list of rules, each a threshold for the lines that begin with a
target and have a field; of the rules that apply to a line the most specific decides. Directives are
added one at a time, a later rule taking the place of an earlier one for the same lines.
-/

namespace NativeGate.Log

/-- A threshold for lines. Every target begins with the empty one. -/
structure Rule where
  target : String
  field : Option String
  threshold : Threshold

namespace Rule

/-- A rule for every line. -/
def everywhere (t : Threshold) : Rule := ⟨"", none, t⟩

def applies (r : Rule) (l : Line) : Bool :=
  r.target.toList.isPrefixOf l.target.toList && r.field.all l.hasField

/-- Whether two rules are about the same lines. -/
def sameScope (a b : Rule) : Bool := a.target = b.target && a.field = b.field

/-- Whether `b` is more specific than `a`. The longer target is, and with targets of one length the
    rule that asks for a field; of two fields the one later in the alphabet counts. -/
def yieldsTo (a b : Rule) : Bool :=
  let field (r : Rule) := r.field.getD ""
  a.target.length < b.target.length || (a.target.length = b.target.length && field a < field b)

/-- The more specific of two rules. -/
def narrower (a b : Rule) : Rule := if a.yieldsTo b then b else a

end Rule

/-! ### Directives -/

/-- What a directive asks for: a rule for lines, or something about spans, which touches no line. -/
inductive Directive where
  | lines (r : Rule)
  | spans

/-- A target begins with a letter, a digit, `-`, `:` or `_`. Characters beyond ASCII are let pass,
    for no line has a target that begins with one. -/
def beginsTarget (c : Char) : Bool := c.isAlphanum || c ∈ ['-', ':', '_'] || c.toNat ≥ 128

/-- Reads what follows an equals sign: a threshold, or nothing for the lowest. -/
def thresholdOrTrace? (cs : List Char) : Option Threshold :=
  if cs.isEmpty then some (.upTo .trace) else Threshold.parse? (String.ofList cs)

/-- Reads what follows a part in brackets. -/
def afterScope? : List Char → Option Threshold
  | [] => some (.upTo .trace)
  | '=' :: rest => thresholdOrTrace? rest
  | _ => none

/-- Reads the part in brackets behind a target, after the opening bracket, and what follows it: the
    name of a span, a field in braces, or both. Only a field on its own, of which no value is asked,
    is about lines. -/
def scoped? (target : String) (cs : List Char) : Option Directive :=
  let span := cs.takeWhile fun c => c ≠ ']' && c ≠ '{'
  match cs.dropWhile fun c => c ≠ ']' && c ≠ '{' with
  | ']' :: after => (afterScope? after).map fun _ => .spans
  | '{' :: inside =>
    let field := inside.takeWhile (· ≠ '}')
    match inside.dropWhile (· ≠ '}') with
    | '}' :: ']' :: after =>
      if field.isEmpty then none
      else
        (afterScope? after).map fun t =>
          if !span.isEmpty || '=' ∈ field then .spans
          else .lines ⟨target, some (String.ofList field), t⟩
    | _ => none
  | _ => none

/-- Reads a directive: a threshold for every line, or a target with an optional part in brackets and
    an optional threshold; the target may be missing before a bracket. -/
def Directive.parse? (text : String) : Option Directive :=
  let cs := text.toList
  let name := cs.takeWhile fun c => c ≠ '=' && c ≠ '['
  let target := String.ofList name
  match cs.dropWhile fun c => c ≠ '=' && c ≠ '[' with
  | '[' :: rest => if name.isEmpty || name.head?.any beginsTarget then scoped? target rest else none
  | '=' :: rest =>
    if name.head?.any beginsTarget then
      (thresholdOrTrace? rest).map fun t => .lines ⟨target, none, t⟩
    else none
  | _ =>
    if name.head?.any beginsTarget then
      match Threshold.parse? target with
      | some t => some (.lines (.everywhere t))
      | none => some (.lines ⟨target, none, .upTo .trace⟩)
    else none

/-! ### Filters -/

/-- Rules, each about other lines than all others. -/
structure Filter where
  rules : List Rule

namespace Filter

def add (f : Filter) : Directive → Filter
  | .lines r => ⟨r :: f.rules.filter fun old => !old.sameScope r⟩
  | .spans => f

/-- The filter of a base level and a list of directives between commas; what is no directive is
    passed over. -/
def ofDirectives (base : Level) (directives : Option String) : Filter :=
  let words := ((directives.getD "").splitOn ",").map fun w => String.ofList (Text.trim w.toList)
  (words.filterMap Directive.parse?).foldl add ⟨[.everywhere (.upTo base)]⟩

/-- The most specific rule that applies to a line. -/
def rule? (f : Filter) (l : Line) : Option Rule :=
  match f.rules.filter fun r => r.applies l with
  | [] => none
  | r :: rest => some (rest.foldl Rule.narrower r)

def keeps (f : Filter) (l : Line) : Bool := (f.rule? l).any fun r => r.threshold.passes l.level

end Filter

end NativeGate.Log
