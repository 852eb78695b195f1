import ModelServer.Number.Decimal
import ModelServer.Text.Blank
import ModelServer.Text.Digits

/-!
# Numbers entered as text

A person may enter a double as text: with blanks around it, in the digits of any script, a single `_`
between two digits, in decimal or by the names of the values that are no finite number, in upper or
lower case. The whole text must be one number.
-/

namespace ModelServer.Entered

/-- A decimal digit of any script becomes the ASCII digit of its value; all else stays. -/
def plainDigit (c : Char) : Char :=
  match Text.decimalValue? c with
  | some n => Text.hexDigit n
  | none => c

/-- The characters without each `_` that stands between two digits; `none` if one stands elsewhere.
`before` is the character before them. -/
def dropMarks : Char → List Char → Option (List Char)
  | _, [] => some []
  | before, '_' :: c :: rest =>
    if Text.isAsciiDigit before && Text.isAsciiDigit c then (dropMarks c rest).map (c :: ·) else none
  | _, '_' :: [] => none
  | _, c :: rest => (dropMarks c rest).map (c :: ·)

/-- The sign at the front: whether it is a minus, and the rest. -/
def sign : List Char → Bool × List Char
  | '-' :: rest => (true, rest)
  | '+' :: rest => (false, rest)
  | cs => (false, cs)

/-- The exponent that the characters are, if they are one; no characters stand for none. -/
def exponent? : List Char → Option Int
  | [] => some 0
  | c :: rest =>
    let (negative, ds) := sign rest
    if (c = 'e' ∨ c = 'E') ∧ ds ≠ [] ∧ ds.all Text.isAsciiDigit then
      let n : Int := Text.natOfDigits ds
      some (if negative then -n else n)
    else none

/-- The finite number that the characters are, behind their sign. -/
def decimal? (negative : Bool) (cs : List Char) : Option Binary64 :=
  let (whole, rest) := cs.span Text.isAsciiDigit
  let (frac, rest) :=
    match rest with
    | '.' :: rest => rest.span Text.isAsciiDigit
    | _ => ([], rest)
  if whole.isEmpty && frac.isEmpty then none
  else
    (exponent? rest).map fun e ↦
      .ofDecimal negative ⟨Text.natOfDigits (whole ++ frac), e - frac.length⟩

/-- The names of values that are no finite numbers. -/
def special? (negative : Bool) (cs : List Char) : Option Binary64 :=
  let name := String.ofList (cs.map Char.toLower)
  if name = "inf" ∨ name = "infinity" then some (.infinity negative)
  else if name = "nan" then some .nan
  else none

/-- The double that a text is. -/
def double? (s : String) : Option Binary64 := do
  let cs ← dropMarks ' ' ((Text.trimBoth Text.isBlank s.toList).map plainDigit)
  let (negative, rest) := sign cs
  special? negative rest <|> decimal? negative rest

end ModelServer.Entered
