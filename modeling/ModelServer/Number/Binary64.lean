/-!
# Double-precision numbers

A finite number of the 64-bit format of IEEE 754 is a sign and a whole number of units, the unit
being 2⁻¹⁰⁷⁴, with at most 53 significant bits. `Magnitude` is that whole number in its canonical
form `significand · 2 ^ shift`, and the form is unique, so equal magnitudes are equal as data.

`Magnitude.ofRatio?` rounds a quotient of units to the nearest magnitude, a half going to the even
one. Everything else (reading a decimal, converting an integer) is that function at a quotient, so
there is one place where rounding happens, and no operation depends on the machine's arithmetic.
-/

namespace ModelServer

/-- The form `significand · 2 ^ shift` in which a magnitude is kept. -/
def IsCanonical (significand shift : Nat) : Prop :=
  significand < Nat.pow 2 53 ∧ shift ≤ 2045 ∧ (Nat.pow 2 52 ≤ significand ∨ shift = 0)

instance (m s : Nat) : Decidable (IsCanonical m s) :=
  inferInstanceAs (Decidable (m < Nat.pow 2 53 ∧ s ≤ 2045 ∧ (Nat.pow 2 52 ≤ m ∨ s = 0)))

/-- The absolute value of a finite double: `significand · 2 ^ shift` units of 2⁻¹⁰⁷⁴. -/
structure Magnitude where
  significand : Nat
  shift : Nat
  canonical : IsCanonical significand shift
  deriving DecidableEq, Repr

namespace Magnitude

/-- The number of units of 2⁻¹⁰⁷⁴. -/
def units (m : Magnitude) : Nat :=
  m.significand * Nat.pow 2 m.shift

/-- The magnitude zero. -/
def zero : Magnitude :=
  ⟨0, 0, by decide⟩

instance : Inhabited Magnitude := ⟨zero⟩

/-- The quotient `num / den` rounded to the nearest whole number, a half to the even one. -/
def roundDiv (num den : Nat) : Nat :=
  let q := num / den
  let r := num % den
  if 2 * r < den then q
  else if den < 2 * r then q + 1
  else if q % 2 = 0 then q else q + 1

/-- How many binary digits a number has; zero has none. -/
def bitLength (n : Nat) : Nat :=
  if n = 0 then 0 else Nat.log2 n + 1

/-- The magnitude with the given significand and shift, if it is canonical. -/
def of? (significand shift : Nat) : Option Magnitude :=
  if h : IsCanonical significand shift then some ⟨significand, shift, h⟩ else none

/-- The magnitude nearest to `num / den` units, a half going to the one with the even significand;
`none` if it lies beyond the greatest. -/
def ofRatio? (num den : Nat) : Option Magnitude :=
  let shift := bitLength (num / den) - 53
  let significand := roundDiv num (den * Nat.pow 2 shift)
  if significand = Nat.pow 2 53 then of? (Nat.pow 2 52) (shift + 1) else of? significand shift

/-- The magnitude nearest to a whole number, if it does not lie beyond the greatest. -/
def ofNat? (n : Nat) : Option Magnitude :=
  ofRatio? (n * Nat.pow 2 1074) 1

/-- The magnitude as a whole number, if it is one. -/
def toNat? (m : Magnitude) : Option Nat :=
  if m.units % Nat.pow 2 1074 = 0 then some (m.units / Nat.pow 2 1074) else none

end Magnitude

/-- A double. -/
inductive Binary64 where
  | nan
  | infinity (negative : Bool)
  | finite (negative : Bool) (magnitude : Magnitude)
  deriving DecidableEq, Repr, Inhabited

namespace Binary64

/-- The double is greater than zero. Zero of either sign is not, and NaN is not. -/
def isPositive : Binary64 → Bool
  | nan => false
  | infinity negative => !negative
  | finite negative m => !negative && m.units != 0

/-- The double of that sign nearest to the magnitude, infinite if the magnitude lies beyond. -/
def ofMagnitude? (negative : Bool) : Option Magnitude → Binary64
  | some m => finite negative m
  | none => infinity negative

/-- The double nearest to an integer; `none` if the integer is too large for one. -/
def ofInt? (n : Int) : Option Binary64 :=
  (Magnitude.ofNat? n.natAbs).map (finite (n < 0))

/-- The double as an integer, if it is finite and whole. -/
def toInt? : Binary64 → Option Int
  | finite negative m => m.toNat?.map fun n ↦ if negative then -(n : Int) else n
  | _ => none

end Binary64

end ModelServer
