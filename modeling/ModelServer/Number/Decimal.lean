import ModelServer.Number.Binary64

/-!
# Decimals and doubles

A decimal is `digits · 10 ^ exponent`. `Magnitude.ofDecimal?` reads one, rounded correctly;
`Magnitude.shortest` writes a magnitude as one with the fewest digits that read back, and of the
decimals with that many digits the nearest, a tie going to the even digit.

`shortest` only ever answers with a decimal that it has read back, or, should no decimal of
seventeen digits do, with the exact expansion, which every magnitude has.
-/

namespace ModelServer

/-- The number `digits · 10 ^ exponent`. -/
structure Decimal where
  digits : Nat
  exponent : Int
  deriving DecidableEq, Repr

namespace Decimal

/-- How many decimal digits a number has; zero has one. -/
def digitCount (n : Nat) : Nat :=
  (Nat.toDigits 10 n).length

end Decimal

namespace Magnitude

/-- The magnitude nearest to a decimal; `none` if it lies beyond the greatest. The first two tests
settle exponents far out of range without computing the power. -/
def ofDecimal? (d : Decimal) : Option Magnitude :=
  let top := (Decimal.digitCount d.digits : Int) + d.exponent
  if d.digits = 0 then some zero
  else if 310 < top then none
  else if top < -330 then some zero
  else
    match d.exponent with
    | .ofNat k => ofRatio? (d.digits * Nat.pow 10 k * Nat.pow 2 1074) 1
    | .negSucc k => ofRatio? (d.digits * Nat.pow 2 1074) (Nat.pow 10 (k + 1))

/-- How many places behind the point the first digit of a number below one stands, less one, given
the number as a quotient. -/
def leadingZeros (num den : Nat) : Nat → Nat
  | 0 => 0
  | fuel + 1 => if den ≤ num * 10 then 0 else leadingZeros (num * 10) den fuel + 1

/-- Where the first digit stands: the exponent `p` with `10 ^ (p - 1) ≤ m < 10 ^ p`. -/
def decimalPoint (m : Magnitude) : Int :=
  let whole := m.units / Nat.pow 2 1074
  if whole = 0 then -(leadingZeros m.units (Nat.pow 2 1074) 400 : Int)
  else Decimal.digitCount whole

/-- The magnitude as a quotient of the decimal grid `10 ^ exponent`. -/
def onGrid (m : Magnitude) : Int → Nat × Nat
  | .ofNat k => (m.units, Nat.pow 2 1074 * Nat.pow 10 k)
  | .negSucc k => (m.units * Nat.pow 10 (k + 1), Nat.pow 2 1074)

/-- The neighbours of the magnitude on a decimal grid that read back as it, the nearer one first;
at the same distance the even one goes first. -/
def candidates (m : Magnitude) (exponent : Int) : List Decimal :=
  let (num, den) := m.onGrid exponent
  let low := num / den
  let nearest := roundDiv num den
  let other := if nearest = low then low + 1 else low
  [⟨nearest, exponent⟩, ⟨other, exponent⟩].filter fun d ↦ ofDecimal? d = some m

/-- The exact decimal expansion: a unit is `5 ^ 1074 · 10 ^ -1074`. -/
def expansion (m : Magnitude) : Decimal :=
  ⟨m.units * Nat.pow 5 1074, -1074⟩

/-- The decimal with the fewest digits that reads back as the magnitude, and the nearest of
those. -/
def shortest (m : Magnitude) : Decimal :=
  let found := (List.range 17).findSome? fun (n : Nat) ↦
    (m.candidates (m.decimalPoint - (n + 1 : Nat))).head?
  found.getD m.expansion

end Magnitude

/-- The double of that sign nearest to a decimal; beyond the greatest it is infinite. -/
def Binary64.ofDecimal (negative : Bool) (d : Decimal) : Binary64 :=
  Binary64.ofMagnitude? negative (Magnitude.ofDecimal? d)

end ModelServer
