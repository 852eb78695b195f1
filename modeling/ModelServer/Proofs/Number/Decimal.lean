import ModelServer.Number.Decimal
import ModelServer.Proofs.Number.Rounding

/-!
# The shortest decimal reads back

`Magnitude.shortest` answers with a decimal that it has read back, or with the exact expansion, so what is
left to prove is that the expansion reads back too (`ofDecimal?_expansion`). That and the layout of digits,
which sets a decimal as another of the same value (`ofDecimal?_scale`), come from one description:
within the range that is computed, a decimal is read as the quotient of two whole numbers
(`ofDecimal?_eq_ofRatio?`), and equal quotients are rounded alike.
-/

namespace ModelServer

namespace Decimal

/-- Where the first digit stands, counted from the point. -/
def top (d : Decimal) : Int :=
  digitCount d.digits + d.exponent

/-- A decimal in units: the number above the line. -/
def num (d : Decimal) : Nat :=
  d.digits * 10 ^ d.exponent.toNat * Nat.pow 2 1074

/-- The number below the line. -/
def den (d : Decimal) : Nat :=
  10 ^ (-d.exponent).toNat

theorem digitCount_le_iff {n k : Nat} (hk : 0 < k) : digitCount n ≤ k ↔ n < 10 ^ k :=
  Nat.length_toDigits_le_iff (by omega) hk

theorem digitCount_mul_pow {n : Nat} (hn : n ≠ 0) (k : Nat) :
    digitCount (n * 10 ^ k) = digitCount n + k := by
  induction k with
  | zero => rw [Nat.pow_zero, Nat.mul_one, Nat.add_zero]
  | succ k ih =>
    have hpos : 0 < n * 10 ^ k := Nat.mul_pos (Nat.pos_of_ne_zero hn) (Nat.pow_pos (by omega))
    have hnext : Nat.toDigits 10 (n * 10 ^ (k + 1)) = Nat.toDigits 10 (n * 10 ^ k) ++ Nat.toDigits 10 0 := by
      rw [Nat.toDigits_append_toDigits (by omega) hpos (by omega), Nat.pow_succ, ← Nat.mul_assoc,
        Nat.mul_comm, Nat.add_zero]
    rw [digitCount, hnext, List.length_append, ← digitCount, ih]
    rfl

end Decimal

namespace Magnitude

open Decimal

variable {d : Decimal}

/-- A decimal is read as a quotient unless it is far out of range. -/
theorem ofDecimal?_eq_ofRatio? (hd : d.digits ≠ 0) (hle : d.top ≤ 310) (hge : -330 ≤ d.top) :
    ofDecimal? d = ofRatio? d.num d.den := by
  obtain ⟨n, e⟩ := d
  simp only [top] at hle hge
  rw [ofDecimal?]
  simp only [if_neg hd, if_neg (Int.not_lt.2 hle), if_neg (Int.not_lt.2 hge)]
  cases e with
  | ofNat k =>
    have hneg : (-Int.ofNat k).toNat = 0 := by
      rw [Int.ofNat_eq_natCast]
      omega
    rw [num, den, hneg]
    rfl
  | negSucc k =>
    rw [num, den]
    show _ = ofRatio? (n * 10 ^ 0 * Nat.pow 2 1074) (10 ^ (k + 1))
    rw [Nat.pow_zero, Nat.mul_one]
    rfl

theorem den_pos (d : Decimal) : 0 < d.den :=
  Nat.pow_pos (by omega)

/-- **Zeros may be moved from the digits of a decimal to its exponent.** -/
theorem ofDecimal?_scale (n k : Nat) (e : Int) : ofDecimal? ⟨n * 10 ^ k, e⟩ = ofDecimal? ⟨n, e + k⟩ := by
  by_cases hn : n = 0
  · subst hn
    rw [Nat.zero_mul]
    rfl
  have hn' : n * 10 ^ k ≠ 0 := Nat.mul_ne_zero hn (Nat.ne_of_gt (Nat.pow_pos (by omega)))
  have htop : top ⟨n * 10 ^ k, e⟩ = top ⟨n, e + k⟩ := by
    simp only [top, digitCount_mul_pow hn]
    omega
  by_cases hrange : top ⟨n, e + k⟩ ≤ 310 ∧ -330 ≤ top ⟨n, e + k⟩
  · obtain ⟨hle, hge⟩ := hrange
    rw [ofDecimal?_eq_ofRatio? hn' (htop ▸ hle) (htop ▸ hge), ofDecimal?_eq_ofRatio? hn hle hge]
    refine ofRatio?_of_cross (den_pos _) (den_pos _) ?_
    have hexponents : k + e.toNat + (-(e + k)).toNat = (e + k).toNat + (-e).toNat := by omega
    calc
      n * 10 ^ k * 10 ^ e.toNat * Nat.pow 2 1074 * 10 ^ (-(e + k)).toNat
        = n * 10 ^ (k + e.toNat + (-(e + k)).toNat) * Nat.pow 2 1074 := by
          rw [Nat.pow_add, Nat.pow_add]
          simp only [Nat.mul_assoc, Nat.mul_left_comm, Nat.mul_comm]
      _ = n * 10 ^ (e + k).toNat * Nat.pow 2 1074 * 10 ^ (-e).toNat := by
          rw [hexponents, Nat.pow_add]
          simp only [Nat.mul_assoc, Nat.mul_left_comm, Nat.mul_comm]
  · simp only [top] at htop hrange
    rw [ofDecimal?, ofDecimal?]
    simp only [if_neg hn, if_neg hn', htop]
    by_cases hgreat : 310 < (digitCount n : Int) + (e + k)
    · rw [if_pos hgreat, if_pos hgreat]
    · have hsmall : (digitCount n : Int) + (e + k) < -330 := by omega
      rw [if_neg hgreat, if_neg hgreat, if_pos hsmall, if_pos hsmall]

/-! ### What `shortest` answers with -/

theorem units_lt {m : Magnitude} {k : Nat} (h : m.shift ≤ k) : m.units < Nat.pow 2 53 * Nat.pow 2 k := by
  have hpow : Nat.pow 2 m.shift ≤ Nat.pow 2 k := Nat.pow_le_pow_right (Nat.succ_pos 1) h
  exact Nat.lt_of_lt_of_le (Nat.mul_lt_mul_of_pos_right m.canonical.1 (Nat.two_pow_pos m.shift))
    (Nat.mul_le_mul_left _ hpow)

theorem pow_five_pos (k : Nat) : 0 < Nat.pow 5 k :=
  Nat.pow_pos (Nat.succ_pos 4)

/-- How many digits there are to a number of units that is multiplied by a power of five. -/
theorem digitCount_units_bounds {m : Magnitude} (hm : m.units ≠ 0) {bound : Nat}
    {p least greatest : Nat} (hbound : m.units < bound) (hleast : Nat.pow 10 least ≤ Nat.pow 5 p)
    (hpos : 0 < least) (hgreatest : bound * Nat.pow 5 p ≤ Nat.pow 10 greatest) (hpos' : 0 < greatest) :
    least < digitCount (m.units * Nat.pow 5 p) ∧ digitCount (m.units * Nat.pow 5 p) ≤ greatest := by
  constructor
  · refine Nat.lt_of_not_le fun h ↦ absurd ((digitCount_le_iff hpos).1 h) (Nat.not_lt.2 ?_)
    exact Nat.le_trans hleast (Nat.le_mul_of_pos_left _ (Nat.pos_of_ne_zero hm))
  · refine (digitCount_le_iff hpos').2 (Nat.lt_of_lt_of_le ?_ hgreatest)
    exact Nat.mul_lt_mul_of_pos_right hbound (pow_five_pos p)

/-- The expansion has a digit. -/
theorem digits_expansion_ne_zero {m : Magnitude} (hm : m.units ≠ 0) : m.expansion.digits ≠ 0 := by
  rw [expansion]
  generalize 1074 = k
  exact Nat.mul_ne_zero hm (Nat.ne_of_gt (pow_five_pos k))

/-- The expansion is within the range that is computed. -/
theorem top_expansion {m : Magnitude} (hm : m.units ≠ 0) :
    m.expansion.top ≤ 310 ∧ -330 ≤ m.expansion.top := by
  rw [expansion]
  -- The exponent is kept apart, or else the power would be computed at each step.
  generalize hk : 1074 = k
  have hbounds : 743 < digitCount (m.units * Nat.pow 5 k) ∧
      digitCount (m.units * Nat.pow 5 k) ≤ 1384 :=
    digitCount_units_bounds hm (units_lt m.canonical.2.1) (by rw [← hk]; decide +kernel) (by omega)
      (by rw [← hk]; decide +kernel) (by omega)
  simp only [top]
  omega

/-- **The exact expansion reads back.** -/
theorem ofDecimal?_expansion {m : Magnitude} (hm : m.units ≠ 0) : ofDecimal? m.expansion = some m := by
  obtain ⟨hle, hge⟩ := top_expansion hm
  have hcross (k : Nat) : m.units * Nat.pow 5 k * 10 ^ 0 * Nat.pow 2 k * 1 = m.units * 10 ^ k := by
    show m.units * 5 ^ k * 10 ^ 0 * 2 ^ k * 1 = m.units * (5 * 2) ^ k
    rw [Nat.mul_pow, Nat.pow_zero, Nat.mul_one, Nat.mul_one, Nat.mul_assoc]
  rw [ofDecimal?_eq_ofRatio? (digits_expansion_ne_zero hm) hle hge, ← ofRatio?_units m]
  refine ofRatio?_of_cross (den_pos _) Nat.one_pos ?_
  have hneg : (-1074 : Int).toNat = 0 := rfl
  have hpos : (-(-1074) : Int).toNat = 1074 := rfl
  rw [num, den, expansion, hneg, hpos]
  generalize 1074 = k
  exact hcross k

/-- **The shortest decimal of a magnitude reads back.** -/
theorem ofDecimal?_shortest {m : Magnitude} (hm : m.units ≠ 0) : ofDecimal? m.shortest = some m := by
  rw [shortest]
  cases hfound : (List.range 17).findSome? fun n : Nat ↦
      (m.candidates (m.decimalPoint - (n + 1 : Nat))).head? with
  | none => exact ofDecimal?_expansion hm
  | some d =>
    obtain ⟨n, -, hhead⟩ := List.exists_of_findSome?_eq_some hfound
    have hmem : d ∈ m.candidates (m.decimalPoint - (n + 1 : Nat)) := List.mem_of_mem_head? hhead
    exact of_decide_eq_true (List.mem_filter.1 hmem).2

end Magnitude

end ModelServer
