import Mathlib.Data.List.Chain
import ModelServer.Json.Printer
import ModelServer.Json.Reader
import ModelServer.Proofs.Text.Digits
import ModelServer.Proofs.Text.Order

/-!
# Text literals read back

A literal is written code point by code point, and each escape is read as the code point that it was
written for (`literal_codePoint`), with one exception. Two escapes that name a high and a low surrogate are
read as the one character which the pair denotes. Such a pair is how a character beyond the first plane is
written, so this is as it should be, unless the text keeps a high surrogate and a low one each alone, the
one right before the other. `Text.Apart` says that it does not.
-/

namespace ModelServer

namespace Text

/-- The first half of a pair. -/
def isHigh (n : Nat) : Bool :=
  0xD800 ≤ n && n ≤ 0xDBFF

/-- The second half of a pair. -/
def isLow (n : Nat) : Bool :=
  0xDC00 ≤ n && n ≤ 0xDFFF

theorem isHigh_iff {n : Nat} : isHigh n = true ↔ 0xD800 ≤ n ∧ n ≤ 0xDBFF := by
  rw [isHigh, Bool.and_eq_true, decide_eq_true_eq, decide_eq_true_eq]

theorem isLow_iff {n : Nat} : isLow n = true ↔ 0xDC00 ≤ n ∧ n ≤ 0xDFFF := by
  rw [isLow, Bool.and_eq_true, decide_eq_true_eq, decide_eq_true_eq]

theorem isSurrogate_iff {n : Nat} : isSurrogate n = true ↔ 0xD800 ≤ n ∧ n ≤ 0xDFFF := by
  rw [isSurrogate, Bool.and_eq_true, decide_eq_true_eq, decide_eq_true_eq]

/-- No high surrogate stands alone right before a low one. -/
def Apart (s : String) : Prop :=
  (units s.toList).IsChain fun m n ↦ isHigh m = true → isLow n = false

instance (s : String) : Decidable (Apart s) :=
  inferInstanceAs (Decidable ((units s.toList).IsChain fun m n ↦ isHigh m = true → isLow n = false))

theorem units_lt (cs : List Char) : ∀ n ∈ units cs, n < 0x110000 := by
  have hchar (c : Char) : c.toNat < 0x110000 := by
    have h : c.toNat.isValidChar := c.valid
    simp only [Nat.isValidChar] at h
    omega
  fun_induction units cs with
  | case1 => exact fun n hn ↦ absurd hn List.not_mem_nil
  | case2 c => exact fun n hn ↦ List.mem_singleton.1 hn ▸ hchar c
  | case3 m c rest h ih =>
    refine List.forall_mem_cons.2 ⟨?_, ih⟩
    exact Nat.lt_of_le_of_lt (Nat.sub_le _ _) (hchar c)
  | case4 m c rest h ih => exact List.forall_mem_cons.2 ⟨hchar m, ih⟩

end Text

namespace Json

open Text

/-! ### One escape -/

theorem unit?_hex {n : Nat} (hn : n < 0x10000) (rest : List Char) :
    unit? (hex 4 n ++ rest) = some (n, rest) := by
  have hvalue : (n / 4096 % 16 * 16 + n / 256 % 16) * 256 + (n / 16 % 16 * 16 + n % 16) = n := by omega
  rw [hex_four]
  show unit? (_ :: _ :: _ :: _ :: rest) = _
  simp only [unit?, hexValue?_hexDigit (Nat.mod_lt _ (Nat.succ_pos 15)), Option.bind_eq_bind,
    Option.bind_some, hvalue]
  rfl

theorem escapedUnit_hex {n : Nat} (hn : n < 0x10000) {rest : List Char} (hrest : rest ≠ []) :
    escapedUnit ('u' :: (hex 4 n ++ rest)) = .ok (n, rest) := by
  rw [escapedUnit, List.drop_succ_cons, List.drop_zero, unit?_hex hn]
  cases rest with
  | nil => exact absurd rfl hrest
  | cons c rest => rfl

/-- An escape that names no high surrogate is read by itself. -/
theorem unicodeEscape_single {n : Nat} (hn : n < 0x10000) (hhigh : isHigh n = false) {rest : List Char}
    (hrest : rest ≠ []) : unicodeEscape ('u' :: (hex 4 n ++ rest)) = .ok (ofUnit n, rest) := by
  have hnot : ¬(0xD800 ≤ n ∧ n ≤ 0xDBFF) := by
    rw [← isHigh_iff, hhigh]
    exact Bool.false_ne_true
  rw [unicodeEscape, escapedUnit_hex hn hrest]
  exact if_neg hnot

/-- No escape of a low surrogate is at the front. -/
def NoLow (rest : List Char) : Prop :=
  ∀ digits, rest = '\\' :: 'u' :: digits →
    ∃ n more, digits = hex 4 n ++ more ∧ n < 0x10000 ∧ isLow n = false ∧ more ≠ []

/-- An escape that names a high surrogate is read by itself if none of a low one follows. -/
theorem unicodeEscape_alone {n : Nat} (hhigh : isHigh n = true) {rest : List Char} (hrest : rest ≠ [])
    (hlow : NoLow rest) : unicodeEscape ('u' :: (hex 4 n ++ rest)) = .ok (ofUnit n, rest) := by
  have hrange := isHigh_iff.1 hhigh
  rw [unicodeEscape, escapedUnit_hex (by omega) hrest]
  dsimp only [bind, Except.bind]
  rw [if_pos hrange]
  split
  · next digits =>
    obtain ⟨k, more, rfl, hk, hnot, hmore⟩ := hlow digits rfl
    have hnone : surrogates? n k = none := by
      rw [surrogates?, if_neg]
      rintro ⟨-, -, hrange⟩
      rw [isLow_iff.2 hrange] at hnot
      cases hnot
    split
    · rfl
    · rw [escapedUnit_hex hk hmore]
      dsimp only
      rw [hnone]
      rfl
  · rfl

/-- Two escapes that name a pair are read as the character that it denotes. -/
theorem unicodeEscape_pair {high low : Nat} {c : Char} (hpair : surrogates? high low = some c)
    {rest : List Char} (hrest : rest ≠ []) :
    unicodeEscape ('u' :: (hex 4 high ++ ('\\' :: 'u' :: (hex 4 low ++ rest)))) = .ok ([c], rest) := by
  have hrange : 0xD800 ≤ high ∧ high ≤ 0xDBFF ∧ 0xDC00 ≤ low ∧ low ≤ 0xDFFF := by
    by_contra h
    rw [surrogates?, if_neg h] at hpair
    cases hpair
  have hlong : ¬(hex 4 low ++ rest).length ≤ 4 := by
    have hpos := List.length_pos_iff.2 hrest
    rw [List.length_append, hex_four]
    simp only [List.length_cons, List.length_nil]
    omega
  rw [unicodeEscape, escapedUnit_hex (by omega) (List.cons_ne_nil _ _)]
  dsimp only [bind, Except.bind]
  rw [if_pos ⟨hrange.1, hrange.2.1⟩]
  show (if (hex 4 low ++ rest).length ≤ 4 then _ else _) = _
  rw [if_neg hlong, escapedUnit_hex (by omega) hrest]
  dsimp only
  rw [hpair]
  rfl

/-- The pair that a character beyond the first plane is written as denotes it. -/
theorem surrogates?_halves {n : Nat} (hge : 0x10000 ≤ n) (hlt : n < 0x110000) :
    surrogates? (0xD800 + (n - 0x10000) / 0x400) (0xDC00 + (n - 0x10000) % 0x400) =
      some (Char.ofNat n) := by
  have hvalue : 0x10000 + (0xD800 + (n - 0x10000) / 0x400 - 0xD800) * 0x400 +
      (0xDC00 + (n - 0x10000) % 0x400 - 0xDC00) = n := by omega
  rw [surrogates?, if_pos (by omega), hvalue]

/-! ### One code point -/

theorem literal_unicode {read rest rest' : List Char} (h : unicodeEscape ('u' :: rest) = .ok (read, rest'))
    (opening : List Char) (fuel : Nat) (seen : List Char) :
    literal opening (fuel + 1) seen ('\\' :: 'u' :: rest) =
      literal opening fuel (read.reverse ++ seen) rest' := by
  rw [literal, h]
  rfl

theorem literal_plain {c : Char} (hquote : c ≠ '"') (hslash : c ≠ '\\') (hge : 0x20 ≤ c.toNat)
    (opening : List Char) (fuel : Nat) (seen rest : List Char) :
    literal opening (fuel + 1) seen (c :: rest) = literal opening fuel (c :: seen) rest := by
  rw [literal, if_neg (Nat.not_lt.2 hge)]
  · exact hquote
  · rintro rfl
    exact absurd rfl hslash
  · rintro _ rfl
    exact absurd rfl hslash
  · rintro _ _ rfl
    exact absurd rfl hslash

theorem ofUnit_of_not_isSurrogate {n : Nat} (h : isSurrogate n = false) : ofUnit n = [Char.ofNat n] := by
  rw [ofUnit, h]
  rfl

theorem toNat_ofNat {n : Nat} (hn : n < 0x110000) (h : isSurrogate n = false) :
    (Char.ofNat n).toNat = n := by
  have hvalid : n.isValidChar := by
    have hnot : ¬(0xD800 ≤ n ∧ n ≤ 0xDFFF) := by
      rw [← isSurrogate_iff, h]
      exact Bool.false_ne_true
    simp only [Nat.isValidChar]
    omega
  rw [Char.ofNat, dif_pos hvalid]
  rfl

/-- **The escape of a code point is read as it**, unless it is a high surrogate and the escape of a low one
follows. -/
theorem literal_codePoint {n : Nat} (hn : n < 0x110000) {rest : List Char} (hrest : rest ≠ [])
    (hlow : isHigh n = true → NoLow rest) (opening : List Char) (fuel : Nat) (seen : List Char) :
    literal opening (fuel + 1) seen (escapeCodePoint n ++ rest) =
      literal opening fuel ((ofUnit n).reverse ++ seen) rest := by
  rw [escapeCodePoint]
  cases hsurrogate : isSurrogate n with
  | true =>
    have hrange := isSurrogate_iff.1 hsurrogate
    rw [if_pos rfl]
    cases hhigh : isHigh n with
    | true => exact literal_unicode (unicodeEscape_alone hhigh hrest (hlow hhigh)) opening fuel seen
    | false => exact literal_unicode (unicodeEscape_single (by omega) hhigh hrest) opening fuel seen
  | false =>
    have hchar := toNat_ofNat hn hsurrogate
    have hhigh : isHigh n = false := by
      rw [Bool.eq_false_iff] at hsurrogate ⊢
      rw [ne_eq, isSurrogate_iff] at hsurrogate
      rw [ne_eq, isHigh_iff]
      omega
    have hunit := ofUnit_of_not_isSurrogate hsurrogate
    have hpair := surrogates?_halves (n := n)
    rw [if_neg Bool.false_ne_true, hunit]
    generalize Char.ofNat n = c at hchar hunit hpair
    subst hchar
    rw [escapeChar.eq_def]
    split
    -- The characters that have an escape of one letter.
    iterate 7 rfl
    · next hquote hslash _ _ _ _ _ =>
      dsimp only
      split
      · next hplain => exact literal_plain hquote hslash hplain.1 opening fuel seen rest
      · split
        · next hsmall =>
          have hsingle := unicodeEscape_single hsmall hhigh hrest
          rw [hunit] at hsingle
          exact literal_unicode hsingle opening fuel seen
        · next hgreat =>
          have hread := unicodeEscape_pair (hpair (Nat.not_lt.1 hgreat) hn) hrest
          rw [unitEscape, unitEscape, List.append_assoc, List.cons_append, List.cons_append]
          exact literal_unicode hread opening fuel seen

/-! ### A whole literal -/

theorem noLow_unitEscape {n : Nat} (hn : n < 0x10000) (hlow : isLow n = false) {rest : List Char}
    (hrest : rest ≠ []) : NoLow (unitEscape n ++ rest) := by
  rintro digits hdigits
  obtain rfl : hex 4 n ++ rest = digits := (List.cons.inj (List.cons.inj hdigits).2).2
  exact ⟨n, rest, rfl, hn, hlow, hrest⟩

/-- The escape of a code point that is no low surrogate does not start with one of a low surrogate. -/
theorem noLow_escapeCodePoint {n : Nat} (hn : n < 0x110000) (hlow : isLow n = false) {rest : List Char}
    (hrest : rest ≠ []) : NoLow (escapeCodePoint n ++ rest) := by
  rw [escapeCodePoint]
  cases hsurrogate : isSurrogate n with
  | true =>
    have hrange := isSurrogate_iff.1 hsurrogate
    exact noLow_unitEscape (by omega) hlow hrest
  | false =>
    have hchar := toNat_ofNat hn hsurrogate
    rw [if_neg Bool.false_ne_true]
    generalize Char.ofNat n = c at hchar
    subst hchar
    rw [escapeChar.eq_def]
    split
    iterate 7
      rintro digits hdigits
      cases hdigits
    · next hquote hslash _ _ _ _ _ =>
      dsimp only
      split
      · rintro digits hdigits
        exact absurd (List.cons.inj hdigits).1 hslash
      · split
        · next hsmall => exact noLow_unitEscape hsmall hlow hrest
        · next hgreat =>
          have hhalf : isLow (0xD800 + (c.toNat - 0x10000) / 0x400) = false := by
            rw [Bool.eq_false_iff, ne_eq, isLow_iff]
            omega
          rw [List.append_assoc]
          exact noLow_unitEscape (by omega) hhalf (List.cons_ne_nil _ _)

/-- **Code points are read from their escapes** up to the closing quote. -/
theorem literal_codePoints {ns : List Nat} (hns : ∀ n ∈ ns, n < 0x110000)
    (hapart : ns.IsChain fun m n ↦ isHigh m = true → isLow n = false) (opening : List Char) {fuel : Nat}
    (hfuel : ns.length < fuel) (seen rest : List Char) :
    literal opening fuel seen (ns.flatMap escapeCodePoint ++ '"' :: rest) =
      .ok (String.ofList (seen.reverse ++ ns.flatMap ofUnit), rest) := by
  induction ns generalizing fuel seen with
  | nil =>
    obtain ⟨fuel, rfl⟩ := Nat.exists_eq_add_one_of_ne_zero (Nat.ne_zero_of_lt hfuel)
    rw [List.flatMap_nil, List.flatMap_nil, List.append_nil]
    rfl
  | cons n ns ih =>
    obtain ⟨fuel, rfl⟩ := Nat.exists_eq_add_one_of_ne_zero (Nat.ne_zero_of_lt hfuel)
    obtain ⟨hn, hns⟩ := List.forall_mem_cons.1 hns
    have hne : ns.flatMap escapeCodePoint ++ '"' :: rest ≠ [] :=
      List.append_ne_nil_of_right_ne_nil _ (List.cons_ne_nil _ _)
    have hlow : isHigh n = true → NoLow (ns.flatMap escapeCodePoint ++ '"' :: rest) := by
      intro hhigh
      rcases ns with _ | ⟨m, ns⟩
      · rintro digits ⟨⟩
      · rw [List.flatMap_cons, List.append_assoc]
        exact noLow_escapeCodePoint (hns m List.mem_cons_self) ((List.isChain_cons_cons.1 hapart).1 hhigh)
          (List.append_ne_nil_of_right_ne_nil _ (List.cons_ne_nil _ _))
    rw [List.flatMap_cons, List.append_assoc, literal_codePoint hn hne hlow,
      ih hns hapart.tail (Nat.lt_of_succ_lt_succ hfuel), List.reverse_append, List.reverse_reverse,
      List.append_assoc, List.flatMap_cons]

theorem escapeCodePoint_ne_nil (n : Nat) : escapeCodePoint n ≠ [] := by
  rw [escapeCodePoint]
  split
  · exact List.cons_ne_nil _ _
  · rw [escapeChar.eq_def]
    split
    iterate 7 exact List.cons_ne_nil _ _
    · dsimp only
      split
      · exact List.cons_ne_nil _ _
      · split
        · exact List.cons_ne_nil _ _
        · exact List.cons_ne_nil _ _

theorem length_le_length_escaped (ns : List Nat) : ns.length ≤ (ns.flatMap escapeCodePoint).length := by
  induction ns with
  | nil => exact Nat.le_refl 0
  | cons n ns ih =>
    have hpos := List.length_pos_iff.2 (escapeCodePoint_ne_nil n)
    rw [List.flatMap_cons, List.length_append, List.length_cons]
    omega

/-- A text between its quotes, the opening one left out. -/
def closed (s : String) : List Char :=
  (units s.toList).flatMap escapeCodePoint ++ ['"']

theorem writeText_eq (s : String) : writeText s = '"' :: closed s :=
  rfl

/-- **A text is read from its literal.** -/
theorem literal_closed {s : String} (hs : Apart s) (opening rest : List Char) :
    literal opening ((closed s ++ rest).length + 1) [] (closed s ++ rest) = .ok (s, rest) := by
  have hfuel : (units s.toList).length < (closed s ++ rest).length + 1 := by
    have hlength := length_le_length_escaped (units s.toList)
    rw [closed, List.length_append, List.length_append]
    omega
  have hread := literal_codePoints (units_lt s.toList) hs opening hfuel [] rest
  rw [flatMap_ofUnit_units, List.reverse_nil, List.nil_append, String.ofList_toList] at hread
  rw [closed, List.append_assoc] at hread ⊢
  exact hread

end Json

end ModelServer
