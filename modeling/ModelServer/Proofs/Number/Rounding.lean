import Mathlib.Algebra.Group.Nat.Defs
import ModelServer.Number.Binary64

/-!
# Rounding a quotient

`Magnitude.ofRatio?` is the one place where rounding happens, and two facts of it are all that is needed of
it here. It rounds the quotient, not the fraction: fractions that are equal are rounded alike
(`ofRatio?_of_cross`), so it is of no account how far a decimal has been cancelled. And a quotient that is a
magnitude already is left as it is (`ofRatio?_units`), which is what makes the exact expansion of a
magnitude one that reads back.
-/

namespace ModelServer.Magnitude

variable {num den num' den' : Nat}

/-! ### Fractions that are equal -/

theorem roundDiv_mul_left {c : Nat} (hc : 0 < c) (num den : Nat) :
    roundDiv (c * num) (c * den) = roundDiv num den := by
  have hdouble : 2 * (c * (num % den)) = c * (2 * (num % den)) := Nat.mul_left_comm 2 c _
  simp only [roundDiv, Nat.mul_div_mul_left num den hc, Nat.mul_mod_mul_left, hdouble,
    Nat.mul_lt_mul_left hc]

theorem ofRatio?_mul_left {c : Nat} (hc : 0 < c) (num den : Nat) :
    ofRatio? (c * num) (c * den) = ofRatio? num den := by
  simp only [ofRatio?, Nat.mul_div_mul_left num den hc, Nat.mul_assoc c den, roundDiv_mul_left hc]

/-- **Equal fractions are rounded alike.** -/
theorem ofRatio?_of_cross (hden : 0 < den) (hden' : 0 < den') (h : num * den' = num' * den) :
    ofRatio? num den = ofRatio? num' den' :=
  calc
    ofRatio? num den = ofRatio? (den' * num) (den' * den) := (ofRatio?_mul_left hden' num den).symm
    _ = ofRatio? (den * num') (den * den') := by
      rw [Nat.mul_comm den' num, h, Nat.mul_comm num', Nat.mul_comm den' den]
    _ = ofRatio? num' den' := ofRatio?_mul_left hden num' den'

/-! ### Quotients that are magnitudes -/

theorem bitLength_of_lt {n k : Nat} (h : n < 2 ^ k) : bitLength n ≤ k := by
  rw [bitLength]
  split
  · exact Nat.zero_le k
  · next hn => exact Nat.succ_le_of_lt ((Nat.log2_lt hn).2 h)

theorem bitLength_eq {n k : Nat} (hle : 2 ^ k ≤ n) (hlt : n < 2 ^ (k + 1)) : bitLength n = k + 1 := by
  have hn : n ≠ 0 := Nat.ne_of_gt (Nat.lt_of_lt_of_le (Nat.two_pow_pos k) hle)
  refine Nat.le_antisymm (bitLength_of_lt hlt) ?_
  rw [bitLength, if_neg hn]
  exact Nat.succ_le_succ ((Nat.le_log2 hn).2 hle)

/-- A magnitude has as many binary digits as its shift adds to the 53 of a significand. -/
theorem bitLength_units (m : Magnitude) : bitLength m.units - 53 = m.shift := by
  obtain ⟨significand, shift, hlt, -, hleast⟩ := m
  show bitLength (significand * 2 ^ shift) - 53 = shift
  rcases hleast with hleast | rfl
  · have hlower : 2 ^ (52 + shift) ≤ significand * 2 ^ shift := by
      rw [Nat.pow_add]
      exact Nat.mul_le_mul_right _ hleast
    have hupper : significand * 2 ^ shift < 2 ^ (52 + shift + 1) := by
      rw [Nat.add_right_comm, Nat.pow_add]
      exact Nat.mul_lt_mul_of_pos_right hlt (Nat.two_pow_pos shift)
    rw [bitLength_eq hlower hupper]
    omega
  · rw [Nat.pow_zero, Nat.mul_one]
    exact Nat.sub_eq_zero_of_le (bitLength_of_lt hlt)

theorem roundDiv_mul_self {den : Nat} (hden : 0 < den) (n : Nat) : roundDiv (n * den) den = n := by
  simp only [roundDiv, Nat.mul_div_cancel n hden, Nat.mul_mod_left, Nat.mul_zero, if_pos hden]

theorem of?_self (m : Magnitude) : of? m.significand m.shift = some m :=
  dif_pos m.canonical

/-- **A quotient that is a magnitude is rounded to that.** -/
theorem ofRatio?_units (m : Magnitude) : ofRatio? m.units 1 = some m := by
  have hround : roundDiv m.units (1 * Nat.pow 2 m.shift) = m.significand := by
    rw [Nat.one_mul]
    exact roundDiv_mul_self (Nat.two_pow_pos m.shift) m.significand
  have hne : m.significand ≠ Nat.pow 2 53 := Nat.ne_of_lt m.canonical.1
  simp only [ofRatio?, Nat.div_one, bitLength_units, hround, if_neg hne, of?_self]

end ModelServer.Magnitude
