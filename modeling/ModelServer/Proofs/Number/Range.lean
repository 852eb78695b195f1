import ModelServer.Proofs.Number.Rounding

/-!
# Which quotients are out of range

A quotient has no nearest magnitude if it lies beyond the greatest one by half a place of that or more
(`ofRatio?_eq_none_iff`): half a place is rounded to the even side, and that is up. For a whole number the
bound is `(2 ^ 54 - 1) * 2 ^ 970` (`ofNat?_eq_none_iff`). At the other end, a quotient of one unit or more is
not rounded to zero (`units_pos_of_ofRatio?`).

All of it rests on one fact of rounding (`le_roundDiv_iff`) and on the number of places that rounding leaves
(`div_shifted_lt`, `le_div_shifted`).
-/

namespace ModelServer

namespace Magnitude

variable {num den : Nat}

/-! ### Rounding to a whole number -/

/-- An even number is reached from half below it. -/
theorem le_roundDiv_iff {n : Nat} (hn : n % 2 = 0) (hden : 0 < den) :
    n ≤ roundDiv num den ↔ 2 * n * den ≤ 2 * num + den := by
  obtain ⟨q, r, hr, rfl⟩ : ∃ q r, r < den ∧ num = den * q + r :=
    ⟨num / den, num % den, Nat.mod_lt num hden, (Nat.div_add_mod num den).symm⟩
  have hq : (den * q + r) / den = q := by
    rw [Nat.mul_add_div hden, Nat.div_eq_of_lt hr, Nat.add_zero]
  have hmod : (den * q + r) % den = r := by
    rw [Nat.mul_add_mod, Nat.mod_eq_of_lt hr]
  -- What stands on the right, up to a number of whole steps.
  have hstep (m : Nat) : 2 * m * den ≤ 2 * (den * q + r) + den ↔
      2 * (m * den) ≤ 2 * (q * den) + (2 * r + den) := by
    rw [Nat.mul_assoc, Nat.mul_comm den q]
    omega
  have hle {m k : Nat} (h : m ≤ k) : m * den ≤ k * den := Nat.mul_le_mul_right den h
  simp only [roundDiv, hq, hmod, hstep]
  split
  · next hbelow =>
    refine ⟨fun h ↦ ?_, fun h ↦ ?_⟩
    · have := hle h
      omega
    · refine Nat.le_of_not_lt fun hlt ↦ ?_
      have := hle (Nat.succ_le_of_lt hlt)
      rw [Nat.succ_mul] at this
      omega
  split
  · next habove =>
    refine ⟨fun h ↦ ?_, fun h ↦ ?_⟩
    · have := hle h
      rw [Nat.succ_mul] at this
      omega
    · refine Nat.le_of_not_lt fun hlt ↦ ?_
      have := hle (Nat.succ_le_of_lt hlt)
      rw [Nat.succ_mul, Nat.succ_mul] at this
      omega
  · next hnotbelow hnotabove =>
    -- Just half: the right side says that `n` is at most `q + 1`, and of these two the even one counts.
    have hhalf : 2 * (n * den) ≤ 2 * (q * den) + (2 * r + den) ↔ n ≤ q + 1 := by
      have hsteps := Nat.mul_le_mul_right_iff (n := n) (m := q + 1) hden
      rw [Nat.succ_mul] at hsteps
      omega
    rw [hhalf]
    split <;> omega

theorem div_le_roundDiv (num den : Nat) : num / den ≤ roundDiv num den := by
  simp only [roundDiv]
  split
  · exact Nat.le_refl _
  · split
    · exact Nat.le_succ _
    · split
      · exact Nat.le_refl _
      · exact Nat.le_succ _

theorem roundDiv_le (num den : Nat) : roundDiv num den ≤ num / den + 1 := by
  simp only [roundDiv]
  split
  · exact Nat.le_succ _
  · split
    · exact Nat.le_refl _
    · split
      · exact Nat.le_succ _
      · exact Nat.le_refl _

/-! ### How many places are left -/

theorem lt_of_bitLength_le {n k : Nat} (h : bitLength n ≤ k) : n < 2 ^ k := by
  rw [bitLength] at h
  split at h
  · next hn =>
    rw [hn]
    exact Nat.two_pow_pos k
  · next hn => exact (Nat.log2_lt hn).1 h

theorem le_of_lt_bitLength {n k : Nat} (h : k < bitLength n) : 2 ^ k ≤ n := by
  rw [bitLength] at h
  split at h
  · exact absurd h (Nat.not_lt_zero k)
  · next hn => exact (Nat.le_log2 hn).1 (Nat.le_of_lt_succ h)

/-- By how many places a quotient is shifted. -/
def shiftOf (num den : Nat) : Nat :=
  bitLength (num / den) - 53

theorem div_shifted_lt (num den : Nat) : num / (den * 2 ^ shiftOf num den) < 2 ^ 53 := by
  rw [← Nat.div_div_eq_div_mul, Nat.div_lt_iff_lt_mul (Nat.two_pow_pos _), ← Nat.pow_add]
  refine lt_of_bitLength_le ?_
  rw [shiftOf]
  omega

/-- A quotient that is shifted has all places left. -/
theorem le_div_shifted (h : shiftOf num den ≠ 0) : 2 ^ 52 ≤ num / (den * 2 ^ shiftOf num den) := by
  rw [← Nat.div_div_eq_div_mul, Nat.le_div_iff_mul_le (Nat.two_pow_pos _), ← Nat.pow_add]
  refine le_of_lt_bitLength ?_
  rw [shiftOf] at h ⊢
  omega

/-! ### Out of range -/

theorem of?_eq_none_iff {significand shift : Nat} :
    of? significand shift = none ↔ ¬IsCanonical significand shift := by
  rw [of?]
  split
  · next h => simpa using h
  · next h => simpa using h

/-- There is no magnitude if the shift is too large, or would be after rounding up. -/
theorem ofRatio?_eq_none_iff_shiftOf : ofRatio? num den = none ↔
    2045 < shiftOf num den ∨
      shiftOf num den = 2045 ∧ 2 ^ 53 ≤ roundDiv num (den * 2 ^ shiftOf num den) := by
  have hlt := div_shifted_lt num den
  have hdown := div_le_roundDiv num (den * 2 ^ shiftOf num den)
  have hup := roundDiv_le num (den * 2 ^ shiftOf num den)
  have hplaces : shiftOf num den ≠ 0 → 2 ^ 52 ≤ num / (den * 2 ^ shiftOf num den) := le_div_shifted
  rw [ofRatio?, show bitLength (num / den) - 53 = shiftOf num den from rfl]
  dsimp only [Nat.pow_eq]
  generalize roundDiv num (den * 2 ^ shiftOf num den) = significand at *
  generalize num / (den * 2 ^ shiftOf num den) = whole at *
  generalize shiftOf num den = shift at *
  split
  · next h =>
    rw [of?_eq_none_iff, IsCanonical]
    simp only [Nat.pow_eq]
    omega
  · next h =>
    rw [of?_eq_none_iff, IsCanonical]
    simp only [Nat.pow_eq]
    omega

/-- **A quotient is out of range from half a place beyond the greatest magnitude.** -/
theorem ofRatio?_eq_none_iff (hden : 0 < den) :
    ofRatio? num den = none ↔ (2 ^ 54 - 1) * 2 ^ 2044 * den ≤ num := by
  -- The exponent is given a name, so that no power of two of that size is ever computed.
  obtain ⟨e, he⟩ : ∃ e, e = 2044 := ⟨2044, rfl⟩
  rw [ofRatio?_eq_none_iff_shiftOf, ← he]
  have hbelow : 2 ^ 53 * 2 ^ e * den ≤ (2 ^ 54 - 1) * 2 ^ e * den :=
    Nat.mul_le_mul_right _ (Nat.mul_le_mul_right _ (by decide))
  have habove : (2 ^ 54 - 1) * 2 ^ e * den ≤ 2 ^ 54 * 2 ^ e * den :=
    Nat.mul_le_mul_right _ (Nat.mul_le_mul_right _ (by decide))
  rcases Nat.lt_trichotomy (shiftOf num den) (e + 1) with hshift | hshift | hshift
  · -- There is a place to spare.
    have hsmall : num < 2 ^ 53 * 2 ^ e * den := by
      rw [← Nat.div_lt_iff_lt_mul hden, ← Nat.pow_add]
      refine lt_of_bitLength_le ?_
      rw [shiftOf] at hshift
      omega
    have hfits : ¬(2045 < shiftOf num den ∨
        shiftOf num den = 2045 ∧ 2 ^ 53 ≤ roundDiv num (den * 2 ^ shiftOf num den)) := by
      rintro (h | ⟨h, -⟩) <;> omega
    exact iff_of_false hfits (Nat.not_le_of_lt (Nat.lt_of_lt_of_le hsmall hbelow))
  · have hround : 2 ^ 53 ≤ roundDiv num (den * 2 ^ (e + 1)) ↔ (2 ^ 54 - 1) * (2 ^ e * den) ≤ num := by
      rw [le_roundDiv_iff (by decide) (Nat.mul_pos hden (Nat.two_pow_pos _)),
        show den * 2 ^ (e + 1) = 2 * (2 ^ e * den) by rw [Nat.pow_succ]; ac_rfl]
      generalize 2 ^ e * den = place
      omega
    rw [hshift, hround, ← Nat.mul_assoc]
    exact ⟨fun h ↦ h.elim (fun h ↦ absurd h (by omega)) (·.2), fun h ↦ .inr ⟨by omega, h⟩⟩
  · have hlarge : 2 ^ 54 * 2 ^ e * den ≤ num := by
      rw [← Nat.le_div_iff_mul_le hden, ← Nat.pow_add]
      refine le_of_lt_bitLength ?_
      rw [shiftOf] at hshift
      omega
    exact iff_of_true (.inl (by omega)) (Nat.le_trans habove hlarge)

/-- **A whole number is too large from `(2 ^ 54 - 1) * 2 ^ 970` on.** -/
theorem ofNat?_eq_none_iff {n : Nat} : ofNat? n = none ↔ (2 ^ 54 - 1) * 2 ^ 970 ≤ n := by
  obtain ⟨e, he⟩ : ∃ e, e = 970 := ⟨970, rfl⟩
  obtain ⟨f, hf⟩ : ∃ f, f = 1074 := ⟨1074, rfl⟩
  rw [ofNat?, ← he, ← hf, ofRatio?_eq_none_iff Nat.one_pos, Nat.mul_one, Nat.pow_eq,
    show 2044 = e + f by omega, Nat.pow_add, ← Nat.mul_assoc]
  exact Nat.mul_le_mul_right_iff (Nat.two_pow_pos f)

/-! ### Not zero -/

/-- A quotient of at least one unit is not rounded to zero. -/
theorem units_pos_of_ofRatio? {m : Magnitude} (hden : 0 < den) (hle : den ≤ num)
    (h : ofRatio? num den = some m) : 0 < m.units := by
  have hround : 0 < roundDiv num (den * 2 ^ shiftOf num den) := by
    refine Nat.lt_of_lt_of_le ?_ (div_le_roundDiv _ _)
    by_cases hshift : shiftOf num den = 0
    · rw [hshift, Nat.pow_zero, Nat.mul_one]
      exact Nat.div_pos hle hden
    · exact Nat.lt_of_lt_of_le (Nat.two_pow_pos 52) (le_div_shifted hshift)
  have hof {significand shift : Nat} (hpos : 0 < significand) (h : of? significand shift = some m) :
      0 < m.units := by
    rw [of?] at h
    split at h
    · cases h
      exact Nat.mul_pos hpos (Nat.two_pow_pos shift)
    · cases h
  rw [ofRatio?] at h
  split at h
  · exact hof (Nat.two_pow_pos 52) h
  · exact hof hround h

theorem units_pos_of_ofNat? {n : Nat} {m : Magnitude} (hn : 0 < n) (h : ofNat? n = some m) :
    0 < m.units := by
  have hpow (e : Nat) : 0 < Nat.pow 2 e := Nat.two_pow_pos e
  exact units_pos_of_ofRatio? Nat.one_pos (Nat.mul_pos hn (hpow _)) h

end Magnitude

namespace Binary64

/-- **An integer is no double just if it is too large**, be it negative or not. -/
theorem ofInt?_eq_none_iff {n : Int} : ofInt? n = none ↔ (2 ^ 54 - 1) * 2 ^ 970 ≤ n.natAbs := by
  rw [ofInt?, Option.map_eq_none_iff, Magnitude.ofNat?_eq_none_iff]

/-- The double nearest to a positive integer is positive. -/
theorem isPositive_of_ofInt? {n : Int} {x : Binary64} (hn : 0 < n) (h : ofInt? n = some x) :
    x.isPositive = true := by
  obtain ⟨m, hm, rfl⟩ := Option.map_eq_some_iff.1 h
  have hunits := Magnitude.units_pos_of_ofNat? (Int.natAbs_pos.2 (Int.ne_of_gt hn)) hm
  rw [isPositive, decide_eq_false (Int.not_lt.2 (Int.le_of_lt hn)), Bool.not_false, Bool.true_and,
    bne_iff_ne]
  exact Nat.ne_of_gt hunits

end Binary64

end ModelServer
