import ModelServer.Number.Decimal
import ModelServer.Text.Digits

/-!
# Numbers in settings

An integer is written in decimal, with a sign if one likes, or without a sign in hexadecimal, octal or
binary; a number with a fraction or an exponent is a double. A single `_` may stand between two digits.
-/

namespace ModelServer.Toml

/-- A number as it is written. -/
inductive Number where
  /-- An integer; `written` counts its digits if it is in decimal, and is zero otherwise. -/
  | int (n : Int) (written : Nat)
  | float (x : Binary64)
  deriving DecidableEq, Repr

namespace Number

/-- Further digits at the front, each of which may have a `_` before it. -/
def moreDigits (isDigit : Char → Bool) : List Char → List Char × List Char
  | '_' :: c :: rest =>
    if isDigit c then
      let (ds, rest') := moreDigits isDigit rest
      (c :: ds, rest')
    else ([], '_' :: c :: rest)
  | c :: rest =>
    if isDigit c then
      let (ds, rest') := moreDigits isDigit rest
      (c :: ds, rest')
    else ([], c :: rest)
  | [] => ([], [])

/-- Digits at the front, at least one. -/
def digits? (isDigit : Char → Bool) : List Char → Option (List Char × List Char)
  | c :: rest =>
    if isDigit c then
      let (ds, rest') := moreDigits isDigit rest
      some (c :: ds, rest')
    else none
  | [] => none

/-- A digit of the base. -/
def isDigitOf (base : Nat) (c : Char) : Bool :=
  (Text.hexValue? c).any (· < base)

/-- The number that digits of a base denote. -/
def ofDigits (base : Nat) (ds : List Char) : Nat :=
  ds.foldl (fun n c ↦ base * n + (Text.hexValue? c).getD 0) 0

/-- The base that a letter stands for. -/
def base? : Char → Option Nat
  | 'x' => some 16
  | 'o' => some 8
  | 'b' => some 2
  | _ => none

/-- An integer that tells its base. -/
def based? : List Char → Option (Number × List Char)
  | '0' :: letter :: rest => do
    let base ← base? letter
    let (ds, rest') ← digits? (isDigitOf base) rest
    return (.int (ofDigits base ds) 0, rest')
  | _ => none

/-- The sign at the front: whether it is a minus, and the rest. -/
def sign : List Char → Bool × List Char
  | '-' :: rest => (true, rest)
  | '+' :: rest => (false, rest)
  | cs => (false, cs)

/-- The digits before the point: a zero alone, or digits that start with another. -/
def whole? : List Char → Option (List Char × List Char)
  | '0' :: rest => some (['0'], rest)
  | cs => digits? Text.isAsciiDigit cs

/-- The digits behind a point. -/
def fraction? : List Char → Option (List Char × List Char)
  | '.' :: rest => digits? Text.isAsciiDigit rest
  | _ => none

/-- The exponent at the front. -/
def exponent? : List Char → Option (Int × List Char)
  | c :: rest =>
    if c = 'e' ∨ c = 'E' then do
      let (negative, rest') := sign rest
      let (ds, rest'') ← digits? Text.isAsciiDigit rest'
      let n : Int := Text.natOfDigits ds
      return (if negative then -n else n, rest'')
    else none
  | [] => none

/-- A number in decimal. -/
def decimal? (cs : List Char) : Option (Number × List Char) := do
  let (negative, cs) := sign cs
  let (whole, cs) ← whole? cs
  let (frac, behindPoint) := (fraction? cs).getD ([], cs)
  match exponent? behindPoint with
  | some (e, rest) =>
    return (.float (.ofDecimal negative ⟨Text.natOfDigits (whole ++ frac), e - frac.length⟩), rest)
  | none =>
    if frac.isEmpty then
      let n : Int := Text.natOfDigits whole
      return (.int (if negative then -n else n) whole.length, cs)
    else
      return (.float (.ofDecimal negative ⟨Text.natOfDigits (whole ++ frac), -frac.length⟩),
        behindPoint)

/-- The words for what is no finite number. -/
def special? (cs : List Char) : Option (Number × List Char) :=
  let (negative, rest) := sign cs
  match rest with
  | 'i' :: 'n' :: 'f' :: rest => some (.float (.infinity negative), rest)
  | 'n' :: 'a' :: 'n' :: rest => some (.float .nan, rest)
  | _ => none

/-- The number at the front. -/
def read? (cs : List Char) : Option (Number × List Char) :=
  based? cs <|> decimal? cs <|> special? cs

end Number

end ModelServer.Toml
