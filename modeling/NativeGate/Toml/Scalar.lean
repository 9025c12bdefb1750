import NativeGate.Data.Tree
import NativeGate.Decimal.Reader
import NativeGate.Toml.Text

/-!
Numbers and times of a TOML document. Digits may be grouped by single underscores; integers have 64
bits and a sign; a time is kept as a table with one entry that holds its canonical text.
-/

namespace NativeGate.Toml
open Data

/-! ### Numbers -/

/-- Digits after a first digit; an underscore stands between two digits only. -/
def moreDigits (isDigit : Char → Bool) : Scanner (List Char)
  | [] => some ([], [])
  | '_' :: c :: rest => if isDigit c then before c (moreDigits isDigit rest) else none
  | c :: rest =>
    if isDigit c then before c (moreDigits isDigit rest)
    else if c = '_' then none
    else some ([], c :: rest)

/-- At least one digit. -/
def digits (isDigit : Char → Bool) : Scanner (List Char)
  | c :: rest => if isDigit c then before c (moreDigits isDigit rest) else none
  | [] => none

/-- Decimal digits without a zero in front. -/
def wholeDigits : Scanner (List Char)
  | '0' :: rest => some (['0'], rest)
  | cs => digits Char.isDigit cs

/-- An integer of 64 bits. -/
def integer? (n : Int) : Option Tree :=
  if FitsSigned 64 n then some (.integer n) else none

/-- An integer in another base, after the mark of the base. -/
def based (base : Nat) (cs : List Char) : Option (Tree × List Char) :=
  (digits (fun c => (Text.digit? base c).isSome) cs).bind fun (ds, rest) =>
    (Text.natural? base ds).bind fun n => (integer? n).map fun t => (t, rest)

/-- A fraction, if a point begins one. -/
def fraction : Scanner (List Char)
  | '.' :: rest => (digits Char.isDigit rest).map fun (ds, rest) => ('.' :: ds, rest)
  | cs => some ([], cs)

/-- An exponent, if a letter begins one. -/
def exponent : Scanner (List Char)
  | [] => some ([], [])
  | c :: rest =>
    if c = 'e' ∨ c = 'E' then
      let (sign, rest) :=
        match rest with
        | '+' :: rest => ([], rest)
        | '-' :: rest => (['-'], rest)
        | rest => ([], rest)
      (digits Char.isDigit rest).map fun (ds, rest) => ('e' :: sign ++ ds, rest)
    else some ([], c :: rest)

/-- A floating-point number from its characters; one too great for the format is refused. -/
def float? (cs : List Char) : Option Tree :=
  (Decimal.read? cs).bind fun x =>
    if x.bits.toNat = Binary.double.infinity then none else some (.float x)

/-- A decimal integer or a floating-point number, after its sign. -/
def decimal (negative : Bool) (cs : List Char) : Option (Tree × List Char) := do
  let sign := if negative then ['-'] else []
  let (whole, rest) ← wholeDigits cs
  let (fraction, rest) ← fraction rest
  let (exponent, rest) ← exponent rest
  let written := sign ++ whole ++ fraction ++ exponent
  if fraction.isEmpty && exponent.isEmpty then
    return (← integer? (← Text.signed? 10 written), rest)
  else return (← float? written, rest)

/-- A number that is none, or has no bound, after its sign. -/
def special (negative : Bool) : Scanner Tree
  | 'i' :: 'n' :: 'f' :: rest =>
    some (.float (.ofBits (Binary.double.signBit negative + Binary.double.infinity)), rest)
  | 'n' :: 'a' :: 'n' :: rest => some (.float (.ofBits (Binary.double.nanBits negative 0)), rest)
  | _ => none

def number : Scanner Tree
  | '0' :: 'x' :: rest => based 16 rest
  | '0' :: 'o' :: rest => based 8 rest
  | '0' :: 'b' :: rest => based 2 rest
  | '+' :: rest => (special false rest).or (decimal false rest)
  | '-' :: rest => (special true rest).or (decimal true rest)
  | cs => (special false cs).or (decimal false cs)

/-! ### Times -/

/-- A number of exactly `width` digits between two bounds. -/
def fixed (width least greatest : Nat) (cs : List Char) : Option (Nat × List Char) :=
  let ds := cs.take width
  if ds.length = width ∧ ds.all Char.isDigit then
    (Text.natural? 10 ds).bind fun n =>
      if least ≤ n ∧ n ≤ greatest then some (n, cs.drop width) else none
  else none

/-- Takes one character. -/
def mark (c : Char) : List Char → Option (List Char)
  | d :: rest => if d = c then some rest else none
  | [] => none

def daysIn (year month : Nat) : Nat :=
  if month = 2 then
    if year % 4 = 0 ∧ (year % 100 ≠ 0 ∨ year % 400 = 0) then 29 else 28
  else if month ∈ [4, 6, 9, 11] then 30
  else 31

/-- A calendar date. -/
def date (cs : List Char) : Option (String × List Char) := do
  let (year, cs) ← fixed 4 0 9999 cs
  let (month, cs) ← fixed 2 1 12 (← mark '-' cs)
  let (day, cs) ← fixed 2 1 (daysIn year month) (← mark '-' cs)
  return (Text.padded 10 4 year ++ "-" ++ Text.padded 10 2 month ++ "-" ++ Text.padded 10 2 day, cs)

/-- The written fraction of a second, to nine places and without zeros at its end. -/
def secondFraction (ds : List Char) : String :=
  match ((ds.take 9).reverse.dropWhile (· = '0')).reverse with
  | [] => ""
  | kept => "." ++ String.ofList kept

/-- A time of day. -/
def timeOfDay (cs : List Char) : Option (String × List Char) := do
  let (hour, cs) ← fixed 2 0 23 cs
  let (minute, cs) ← fixed 2 0 59 (← mark ':' cs)
  let (second, cs) ← fixed 2 0 60 (← mark ':' cs)
  let clock := ":".intercalate ([hour, minute, second].map (Text.padded 10 2))
  match cs with
  | '.' :: rest =>
    let ds := rest.takeWhile Char.isDigit
    if ds.isEmpty then none else return (clock ++ secondFraction ds, rest.dropWhile Char.isDigit)
  | cs => return (clock, cs)

/-- An offset from universal time, if there is one. -/
def timeOffset (cs : List Char) : Option (String × List Char) :=
  let away (sign : String) (rest : List Char) : Option (String × List Char) := do
    let (hour, rest) ← fixed 2 0 23 rest
    let (minute, rest) ← fixed 2 0 59 (← mark ':' rest)
    let sign := if hour = 0 ∧ minute = 0 then "+" else sign
    return (sign ++ Text.padded 10 2 hour ++ ":" ++ Text.padded 10 2 minute, rest)
  match cs with
  | 'Z' :: rest | 'z' :: rest => some ("Z", rest)
  | '+' :: rest => away "+" rest
  | '-' :: rest => away "-" rest
  | cs => some ("", cs)

/-- A time of day behind a date, if there is one. -/
def timeAfterDate (cs : List Char) : String × List Char :=
  let read (rest : List Char) : Option (String × List Char) := do
    let (clock, rest) ← timeOfDay rest
    let (offset, rest) ← timeOffset rest
    return ("T" ++ clock ++ offset, rest)
  match cs with
  | 'T' :: rest | 't' :: rest | ' ' :: rest => (read rest).getD ("", cs)
  | cs => ("", cs)

/-- A date, a time of day, or both. -/
def time (cs : List Char) : Option (Tree × List Char) :=
  let written :=
    match date cs with
    | some (day, rest) =>
      let (clock, rest) := timeAfterDate rest
      some (day ++ clock, rest)
    | none => timeOfDay cs
  written.map fun (text, rest) => (.time text, rest)

end NativeGate.Toml
