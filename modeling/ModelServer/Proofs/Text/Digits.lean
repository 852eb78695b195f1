import Mathlib.Algebra.Group.Nat.Defs
import Mathlib.Data.Nat.Digits.Defs
import ModelServer.Text.Digits

/-!
# Digits read back

A number is written by `Nat.toDigits`, and `natOfDigits` reads it. Zeros count for nothing before the other
digits (`natOfDigits_zeros_append`), and each multiplies by ten behind them (`natOfDigits_append_zeros`); a
number that is not zero starts with neither (`toDigits_eq_cons`), which is what a reader that takes a zero
alone for a whole number has to know.

What a user typed may be written in the digits of any script. `nat?` reads just the numerals there are
(`nat?_eq_some_iff`); a character that merely stands for a digit is in none of them.
-/

namespace ModelServer.Text

/-! ### Decimal digits -/

theorem isAsciiDigit_iff {c : Char} : isAsciiDigit c = true ↔ 48 ≤ c.toNat ∧ c.toNat ≤ 57 := by
  rw [isAsciiDigit, Bool.and_eq_true, decide_eq_true_eq, decide_eq_true_eq]
  exact Iff.rfl

theorem isAsciiDigit_of_mem_toDigits {n : Nat} {c : Char} (h : c ∈ Nat.toDigits 10 n) :
    isAsciiDigit c = true := by
  have hdigit := Nat.isDigit_of_mem_toDigits (by omega) (by omega) h
  rw [Char.isDigit, Bool.and_eq_true, decide_eq_true_eq, decide_eq_true_eq] at hdigit
  exact isAsciiDigit_iff.2 hdigit

theorem natOfDigits_eq (cs : List Char) : natOfDigits cs = Nat.ofDigitChars 10 cs 0 := by
  rw [Nat.ofDigitChars_eq_foldl]
  rfl

/-- **A number is read from the digits it is written with.** -/
theorem natOfDigits_toDigits (n : Nat) : natOfDigits (Nat.toDigits 10 n) = n := by
  rw [natOfDigits_eq, Nat.ofDigitChars_ten_toDigits]

theorem natOfDigits_append_zeros (cs : List Char) (k : Nat) :
    natOfDigits (cs ++ List.replicate k '0') = natOfDigits cs * 10 ^ k := by
  rw [natOfDigits_eq, natOfDigits_eq, Nat.ofDigitChars_append, Nat.ofDigitChars_replicate_zero, Nat.mul_comm]

theorem natOfDigits_zeros_append (k : Nat) (cs : List Char) :
    natOfDigits (List.replicate k '0' ++ cs) = natOfDigits cs := by
  rw [natOfDigits_eq, natOfDigits_eq, Nat.ofDigitChars_append, Nat.ofDigitChars_replicate_zero, Nat.mul_zero]

/-- A number that is not zero is written with no zero in front. -/
theorem toDigits_eq_cons {n : Nat} (hn : n ≠ 0) :
    ∃ c cs, Nat.toDigits 10 n = c :: cs ∧ isAsciiDigit c = true ∧ c ≠ '0' := by
  induction n using Nat.strongRecOn with
  | ind n ih =>
    rw [Nat.toDigits_eq_if (by omega)]
    split
    · next hlt =>
      refine ⟨_, [], rfl, ?_, fun h ↦ hn (Nat.digitChar_eq_zero.1 h)⟩
      exact isAsciiDigit_of_mem_toDigits (Nat.toDigits_of_lt_base hlt ▸ List.mem_singleton_self _)
    · obtain ⟨c, cs, hdigits, hdigit, hzero⟩ := ih (n / 10) (by omega) (by omega)
      exact ⟨c, cs ++ [(n % 10).digitChar], by rw [hdigits, List.cons_append], hdigit, hzero⟩

/-! ### Decimal digits of all scripts -/

section Numeral

variable {c : Char} {cs : List Char} {d m n : Nat}

/-- The characters are decimal digits, each of whatever script, and there is at least one; the number is the
one that they denote, ones last. -/
def Denotes (cs : List Char) (n : Nat) : Prop :=
  cs ≠ [] ∧ ∃ ds : List Nat, cs.map decimalValue? = ds.map some ∧ n = Nat.ofDigits 10 ds.reverse

theorem isDigit_of_isSome (h : (decimalValue? c).isSome = true) : isDigit c = true := by
  rw [isDigit, h, Bool.true_or]

theorem Denotes.isSome (h : Denotes cs n) : ∀ c ∈ cs, (decimalValue? c).isSome = true := by
  obtain ⟨-, ds, hds, -⟩ := h
  intro c hc
  obtain ⟨d, -, hd⟩ := List.mem_map.1 (hds ▸ List.mem_map_of_mem hc)
  rw [← hd, Option.isSome_some]

/-- Any decimal digits denote a number. -/
theorem exists_denotes_iff :
    (∃ n, Denotes cs n) ↔ cs ≠ [] ∧ ∀ c ∈ cs, (decimalValue? c).isSome = true := by
  refine ⟨fun ⟨_, h⟩ ↦ ⟨h.1, h.isSome⟩, fun ⟨hne, h⟩ ↦ ?_⟩
  refine ⟨_, hne, cs.map fun c ↦ (decimalValue? c).getD 0, ?_, rfl⟩
  rw [List.map_map]
  refine List.map_congr_left fun c hc ↦ ?_
  obtain ⟨d, hd⟩ := Option.isSome_iff_exists.1 (h c hc)
  rw [Function.comp_apply, hd, Option.getD_some]

/-- Nothing is read behind a character that is no decimal digit. -/
theorem foldl_digits_none (cs : List Char) :
    cs.foldl (fun n c ↦ do return 10 * (← n) + (← decimalValue? c)) none = none := by
  induction cs with
  | nil => rfl
  | cons c cs ih => exact ih

/-- Digits are read behind others, which have denoted `m`. -/
theorem foldl_digits_eq_some_iff :
    cs.foldl (fun n c ↦ do return 10 * (← n) + (← decimalValue? c)) (some m) = some n ↔
      ∃ ds : List Nat, cs.map decimalValue? = ds.map some ∧
        n = Nat.ofDigits 10 ds.reverse + 10 ^ ds.length * m := by
  induction cs generalizing m with
  | nil =>
    constructor
    · intro h
      exact ⟨[], rfl, by simpa using h.symm⟩
    · rintro ⟨ds, hds, rfl⟩
      obtain rfl : ds = [] := List.map_eq_nil_iff.1 hds.symm
      simp
  | cons c cs ih =>
    rw [List.foldl_cons, List.map_cons]
    cases hd : decimalValue? c with
    | none =>
      refine iff_of_false (fun h ↦ ?_) ?_
      · exact Option.some_ne_none n (h.symm.trans (foldl_digits_none cs))
      · rintro ⟨_ | ⟨d, ds⟩, hds, -⟩ <;> cases hds
    | some d =>
      -- Each digit moves what stands before it up by one place.
      have hweights (ds : List Nat) : Nat.ofDigits 10 (d :: ds).reverse + 10 ^ (d :: ds).length * m =
          Nat.ofDigits 10 ds.reverse + 10 ^ ds.length * (10 * m + d) := by
        rw [Nat.ofDigits_reverse_cons, List.length_cons]
        ring
      refine (ih (m := 10 * m + d)).trans ⟨?_, ?_⟩
      · rintro ⟨ds, hds, rfl⟩
        exact ⟨d :: ds, by rw [hds, List.map_cons], (hweights ds).symm⟩
      · rintro ⟨_ | ⟨d', ds⟩, hds, rfl⟩
        · cases hds
        · obtain ⟨hhead, htail⟩ := List.cons.inj hds
          obtain rfl := Option.some.inj hhead
          exact ⟨ds, htail, hweights ds⟩

/-- **A numeral is read as the number that it denotes, and nothing else is read.** -/
theorem nat?_eq_some_iff : nat? cs = some n ↔ Denotes cs n := by
  cases cs with
  | nil => exact iff_of_false nofun fun h ↦ h.1 rfl
  | cons c cs =>
    rw [nat?, List.isEmpty_cons, if_neg Bool.false_ne_true, foldl_digits_eq_some_iff]
    simp only [Denotes, Nat.mul_zero, Nat.add_zero, ne_eq, reduceCtorEq, not_false_eq_true, true_and]

end Numeral

/-! ### Hexadecimal digits -/

theorem hexValue?_hexDigit {n : Nat} (h : n < 16) : hexValue? (hexDigit n) = some n := by
  have hall : ∀ k < 16, hexValue? (hexDigit k) = some k := by decide
  exact hall n h

theorem hex_four (n : Nat) :
    hex 4 n = [hexDigit (n / 4096 % 16), hexDigit (n / 256 % 16), hexDigit (n / 16 % 16),
      hexDigit (n % 16)] := by
  show [hexDigit (n / 4096 % 16), _, _, hexDigit (n / 1 % 16)] = _
  rw [Nat.div_one]

end ModelServer.Text
