import NativeGate.Kind

/-!
Signatures: the kinds of a function's parameters and of its result. In a text the letters of the
parameters stand before a `)` and the letter of the result behind it; a lone `v` before the `)`
says that there are no parameters. No parameter is void, and the type says so.
-/

namespace NativeGate

/-- Why a text is no signature; positions count characters from zero. -/
inductive SignatureFault where
  | unknownKind (c : Char) (position : Nat)
  | voidParameter (position : Nat)
  | expectedDelimiter (position : Nat)
  | missingDelimiter
  | missingReturnKind
  | trailingCharacters (position : Nat)
deriving DecidableEq

def SignatureFault.message : SignatureFault → String
  | unknownKind c position =>
    "unknown parameter type '" ++ String.singleton c ++ "' at position " ++ toString position
  | voidParameter position =>
    "void may only lead the parameter list (position " ++ toString position ++ ")"
  | expectedDelimiter position => "expected ')' at position " ++ toString position
  | missingDelimiter => "missing ')' delimiter"
  | missingReturnKind => "signature has no return type"
  | trailingCharacters position =>
    "unexpected characters after return type at position " ++ toString position

/-- A text that was refused: malformed, or with a result of no known kind. -/
inductive SignatureError where
  | malformed (text : String) (fault : SignatureFault)
  | returnKind (c : Char) (position : Nat)
deriving DecidableEq

/-- Parameter kinds, none of them void, and the kind of the result. -/
structure Signature where
  params : List Kind
  ret : Kind
  noVoid : Kind.void ∉ params
deriving DecidableEq

namespace Signature

/-- Ends the parameters. -/
def delimiter : Char := ')'

def arity (s : Signature) : Nat := s.params.length

/-- What the reading of a text meets first. -/
inductive Verdict where
  | fault (f : SignatureFault)
  | badReturn (c : Char) (position : Nat)

/-- Reads what follows the delimiter: one letter and the end of the text. -/
def readReturn (position : Nat) : List Char → Except Verdict Kind
  | [] => .error (.fault .missingReturnKind)
  | c :: rest =>
    match Kind.ofLetter? c with
    | none => .error (.badReturn c position)
    | some k =>
      match rest with
      | [] => .ok k
      | _ :: _ => .error (.fault (.trailingCharacters (position + 1)))

/-- Reads parameters from `position` on. A `v` is the mark of an empty list at position zero and a
    fault behind a parameter. -/
def readParams (position : Nat) : List Char → Except Verdict (List Kind × Kind)
  | [] => .error (.fault .missingDelimiter)
  | c :: rest =>
    if c = delimiter then (readReturn (position + 1) rest).map fun k => ([], k)
    else
      match Kind.ofLetter? c with
      | none => .error (.fault (.unknownKind c position))
      | some .void =>
        if position = 0 then
          match rest with
          | [] => .error (.fault .missingDelimiter)
          | d :: tail =>
            if d = delimiter then (readReturn 2 tail).map fun k => ([], k)
            else .error (.fault (.expectedDelimiter 1))
        else .error (.fault (.voidParameter position))
      | some k => (readParams (position + 1) rest).map fun r => (k :: r.1, r.2)

theorem void_not_mem_of_readParams {cs : List Char} {position : Nat} {ps : List Kind} {ret : Kind}
    (h : readParams position cs = .ok (ps, ret)) : Kind.void ∉ ps := by
  have mapped {β γ : Type} {e : Except Verdict β} {g : β → γ} {x : γ} (he : e.map g = .ok x) :
      ∃ y, e = .ok y ∧ g y = x := by
    cases e with
    | error => cases he
    | ok y => exact ⟨y, rfl, by cases he; rfl⟩
  induction cs generalizing position ps ret with
  | nil => cases h
  | cons c rest ih =>
    unfold readParams at h
    split at h
    · obtain ⟨_, _, hk⟩ := mapped h
      cases hk; simp
    · split at h
      · cases h
      · split at h
        · split at h
          · cases h
          · split at h
            · obtain ⟨_, _, hk⟩ := mapped h
              cases hk; simp
            · cases h
        · cases h
      · rename_i k hvoid hk
        obtain ⟨⟨qs, r⟩, hr, hq⟩ := mapped h
        cases hq
        simp only [List.mem_cons, not_or]
        exact ⟨fun e => hvoid e.symm, ih hr⟩

/-- Reads a signature from the characters of a text. -/
def ofChars (cs : List Char) : Except Verdict Signature :=
  match h : readParams 0 cs with
  | .error v => .error v
  | .ok (ps, ret) => .ok ⟨ps, ret, void_not_mem_of_readParams h⟩

/-- Reads a signature; a malformed text is kept in the error. -/
def parse (text : String) : Except SignatureError Signature :=
  (ofChars text.toList).mapError fun
    | .fault f => .malformed text f
    | .badReturn c position => .returnKind c position

/-- The listing of kinds that a refused parameter list is shown as. -/
def listing (ks : List Kind) : String := "[" ++ ", ".intercalate (ks.map Kind.title) ++ "]"

/-- A signature of these kinds; the first void parameter is refused. -/
def make (params : List Kind) (ret : Kind) : Except SignatureError Signature :=
  match h : params.findIdx? (· == Kind.void) with
  | some position => .error (.malformed (listing params) (.voidParameter position))
  | none => .ok ⟨params, ret, by
      intro hm
      have := List.findIdx?_eq_none_iff.1 h Kind.void hm
      simp at this⟩

/-- The signature with one more parameter in front. -/
def withLeading (s : Signature) (k : Kind) : Except SignatureError Signature :=
  make (k :: s.params) s.ret

/-- The characters of the signature's one canonical text. -/
def toChars (s : Signature) : List Char :=
  s.params.map Kind.letter ++ [delimiter, s.ret.letter]

def text (s : Signature) : String := String.ofList s.toChars

end Signature

end NativeGate
