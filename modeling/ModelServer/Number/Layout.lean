import ModelServer.Number.Decimal
import ModelServer.Text.Digits

/-!
# The text of a double

The digits of a double are those of its shortest decimal. `Layout` decides how they are set: between
which exponents the number is written positionally, how wide an exponent is, and how the values that
are no numbers are spelled. Two layouts are in use, which differ in those spellings only.
-/

namespace ModelServer

/-- How the digits of a double are set. -/
structure Layout where
  /-- Positional notation ends where the first digit stands this far before the point … -/
  greatestPoint : Int
  /-- … or this far behind it. -/
  leastPoint : Int
  /-- The least number of digits of an exponent. -/
  exponentWidth : Nat
  nan : String
  infinity : String

namespace Layout

/-- Positional below 10¹⁶ and from 10⁻⁴ on; exponents have a sign and two digits. -/
def plain : Layout :=
  ⟨16, -3, 2, "nan", "inf"⟩

/-- The layout inside a document: as `plain`, but for the names of the values that are no
numbers. -/
def document : Layout :=
  { plain with nan := "NaN", infinity := "Infinity" }

/-- A run of `n` zeros. -/
def zeros (n : Nat) : List Char :=
  List.replicate n '0'

/-- The digits without the zeros at their end; one digit is kept. -/
def stripZeros (ds : List Char) : List Char :=
  match (ds.reverse.dropWhile (· == '0')).reverse with
  | [] => ['0']
  | kept => kept

/-- The digits, the first of them standing just before the point moved by `point`, in positional
notation: at least one digit stands on each side of the point. -/
def positional (ds : List Char) (point : Int) : List Char :=
  if point ≤ 0 then '0' :: '.' :: (zeros (-point).toNat ++ ds)
  else
    let whole := point.toNat
    if ds.length ≤ whole then ds ++ zeros (whole - ds.length) ++ ['.', '0']
    else ds.take whole ++ '.' :: ds.drop whole

/-- The digits with an exponent: one digit before the point, which is left out if nothing follows
it. -/
def scientific (l : Layout) (ds : List Char) (point : Int) : List Char :=
  let e := point - 1
  let digits := (toString e.natAbs).toList
  let mantissa :=
    match ds with
    | [] => []
    | [d] => [d]
    | d :: rest => d :: '.' :: rest
  mantissa ++ 'e' :: (if e < 0 then '-' else '+') ::
    (zeros (l.exponentWidth - digits.length) ++ digits)

/-- The text of a magnitude. -/
def magnitude (l : Layout) (m : Magnitude) : List Char :=
  if m.units = 0 then ['0', '.', '0']
  else
    let d := m.shortest
    let all := (toString d.digits).toList
    let point := (all.length : Int) + d.exponent
    let ds := stripZeros all
    if l.leastPoint ≤ point ∧ point ≤ l.greatestPoint then positional ds point
    else l.scientific ds point

/-- The sign of a negative number. -/
def sign (negative : Bool) : List Char :=
  if negative then ['-'] else []

/-- The text of a double. -/
def render (l : Layout) : Binary64 → String
  | .nan => l.nan
  | .infinity negative => String.ofList (sign negative ++ l.infinity.toList)
  | .finite negative m => String.ofList (sign negative ++ l.magnitude m)

end Layout

end ModelServer
