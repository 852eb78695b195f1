import ModelServer.Schema.Checked
import ModelServer.Text.Blank

/-!
# Numbers and truth values in documents

Where a document should hold an integer it may hold a truth value, a whole number written as a
double, or a text that spells an integer. `integerText` fixes the spelling: an optional sign, ASCII
digits with single underscores between them, and behind a point at least one zero and nothing else.
Zeros at the front do not count, and a minus may stand behind them.
-/

namespace ModelServer.Schema

/-- Leading zeros and underscores among them are dropped, one zero being kept before a point and at
the end; a minus may stand in front or behind them. `none` if the text does not start with a digit or a
minus, or the zeros run into something else. -/
def dropLeadingZeros : List Char → Option (List Char)
  | '0' :: rest => go '0' rest
  | c :: rest => if ('1' ≤ c && c ≤ '9') || c == '-' then some (c :: rest) else none
  | [] => none
where
  /-- The zeros or underscores so far end in `last`. -/
  go (last : Char) : List Char → Option (List Char)
    | [] => some [last]
    | c :: rest =>
      if c == '0' || c == '_' then go c rest
      else if ('1' ≤ c && c ≤ '9') || c == '-' then some (c :: rest)
      else if c == '.' then some (last :: c :: rest)
      else none

/-- A minus, and the digits behind it without their leading zeros. -/
def dropSignedZeros : List Char → Option (List Char)
  | '-' :: rest => (dropLeadingZeros rest).map ('-' :: ·)
  | cs => some cs

/-- A point and the zeros behind it, up to the end, are dropped. -/
def dropPointZeros (cs : List Char) : List Char :=
  match cs.dropWhile (· != '.') with
  | _ :: '0' :: zeros => if zeros.all (· == '0') then cs.takeWhile (· != '.') else cs
  | _ => cs

/-- Underscores are dropped, if each stands alone between two other characters. -/
def dropUnderscores (cs : List Char) : Option (List Char) :=
  let doubled := (cs.zip (cs.drop 1)).any fun p ↦ p.1 == '_' && p.2 == '_'
  if cs.head? == some '_' || cs.getLast? == some '_' || doubled then none
  else some (cs.filter (· != '_'))

/-- The integer that a sign and digits denote. -/
def signedDigits? : List Char → Option Int
  | '-' :: ds => if !ds.isEmpty && ds.all Text.isAsciiDigit then some (-(Text.natOfDigits ds)) else none
  | ds => if !ds.isEmpty && ds.all Text.isAsciiDigit then some (Text.natOfDigits ds) else none

/-- A plus at the front is dropped; a minus must not follow it. -/
def dropPlus : List Char → Option (List Char)
  | '+' :: '-' :: _ => none
  | '+' :: rest => some rest
  | cs => some cs

/-- The text starts, behind a minus if there is one, with more digits than an integer may have. -/
def tooManyDigits (cs : List Char) : Bool :=
  let ds := if cs.head? == some '-' then cs.drop 1 else cs
  ds.head? != some '0' && Text.maxDigits < (ds.takeWhile Text.isAsciiDigit).length

/-- The integer that the characters spell; all that does not count is dropped first. -/
def spelledInteger (cs : List Char) : Checked Int :=
  let cleaned := do
    let cs ← dropPlus (Text.trimBoth Text.isWhiteSpace cs)
    let cs ← dropSignedZeros (← dropLeadingZeros cs)
    dropUnderscores (dropPointZeros cs)
  match cleaned with
  | none => .fail .integerText
  | some cs =>
    if tooManyDigits cs then .fail .tooLarge
    else
      match signedDigits? cs with
      | some n => .ok n
      | none => .fail .integerText

/-- The integer that a text spells. -/
def integerText (s : String) : Checked Int :=
  if !Text.isWhole s then .fail .brokenText
  else if tooManyDigits s.toList then .fail .tooLarge
  else spelledInteger s.toList

/-- The integer that a double is. It must be finite, whole, and between -2⁶³ and 2⁶³. -/
def integerDouble (x : Binary64) : Checked Int :=
  match x with
  | .nan | .infinity _ => .fail .infinite
  | .finite _ _ =>
    match x.toInt? with
    | none => .fail .fractional
    | some n => if -Int.pow 2 63 < n ∧ n < Int.pow 2 63 then .ok n else .fail .tooLarge

/-- An integer. -/
def integer : Reader Int
  | .int n => .ok n
  | .bool b => .ok (if b then 1 else 0)
  | .float x => integerDouble x
  | .text s => integerText s
  | _ => .fail .integer

/-- The spellings of the truth values, in lower case. -/
def truthWords : List (String × Bool) :=
  [("0", false), ("off", false), ("f", false), ("false", false), ("n", false), ("no", false),
    ("1", true), ("on", true), ("t", true), ("true", true), ("y", true), ("yes", true)]

/-- The truth value that an integer stands for; one outside 64 bits is not looked at. -/
def booleanInt (n : Int) : Checked Bool :=
  if n = 0 then .ok false
  else if n = 1 then .ok true
  else if -Int.pow 2 63 ≤ n ∧ n < Int.pow 2 63 then .fail .booleanText
  else .fail .boolean

/-- A truth value. -/
def boolean : Reader Bool
  | .bool b => .ok b
  | .int n => booleanInt n
  | .float x =>
    match integerDouble x with
    | .ok n => booleanInt n
    | .bad _ => .fail .boolean
  | .text s =>
    match truthWords.lookup s.toLower with
    | some b => .ok b
    | none => .fail (if Text.isWhole s then .booleanText else .brokenText)
  | _ => .fail .boolean

/-- A pair of integers, written as a list. -/
def integerPair : Reader (Int × Int)
  | .list vs =>
    match vs with
    | [a, b] =>
      (((integer a).under (.index 0)).map Prod.mk).seq ((integer b).under (.index 1))
    | [a] =>
      (((integer a).under (.index 0)).map Prod.mk).seq ((Checked.fail .missing).under (.index 1))
    | [] =>
      (((Checked.fail .missing).under (.index 0)).map Prod.mk).seq
        ((Checked.fail .missing).under (.index 1))
    | vs => .fail (.tupleLength vs.length)
  | _ => .fail .tuple

end ModelServer.Schema
