import Mathlib.Data.List.TakeDrop
import ModelServer.Json.Reader
import ModelServer.Proofs.Number.Decimal
import ModelServer.Proofs.Text.Digits

/-!
# Numbers read back

However the digits of a double are set, with a point among them or with an exponent, it is one decimal that
is read: that of the digits, with the exponent that says where the first of them stands
(`number_positional`, `number_scientific`). It differs from the shortest decimal of the double by zeros
that are counted in the exponent, so it is rounded to the same double (`number_magnitude`).

A number ends where no character follows that could continue it. What is set out puts a comma, the end of a
line or nothing behind a value (`Delimited`).
-/

namespace ModelServer.Json

open Text

/-- What follows a value that is set out on lines. -/
def Delimited (rest : List Char) : Prop :=
  ∀ c ∈ rest.head?, c = ',' ∨ c = '\n'

/-- No digit is at the front. -/
def NoDigit (rest : List Char) : Prop :=
  ∀ c ∈ rest.head?, isAsciiDigit c = false

theorem Delimited.nil : Delimited [] := by
  intro c hc
  cases hc

theorem Delimited.noDigit {rest : List Char} (h : Delimited rest) : NoDigit rest := by
  intro c hc
  rcases h c hc with rfl | rfl
  · rfl
  · rfl

theorem noDigit_cons {c : Char} {rest : List Char} (h : isAsciiDigit c = false) : NoDigit (c :: rest) := by
  rintro d hd
  cases hd
  exact h

/-! ### Runs of digits -/

/-- The characters are all digits. -/
def AllDigits (ds : List Char) : Prop :=
  ∀ c ∈ ds, isAsciiDigit c = true

theorem AllDigits.append {ds es : List Char} (hd : AllDigits ds) (he : AllDigits es) :
    AllDigits (ds ++ es) :=
  List.forall_mem_append.2 ⟨hd, he⟩

theorem AllDigits.zeros (k : Nat) : AllDigits (Layout.zeros k) := by
  intro c hc
  rw [(List.mem_replicate.1 hc).2]
  rfl

theorem AllDigits.toDigits (n : Nat) : AllDigits (Nat.toDigits 10 n) :=
  fun _ ↦ isAsciiDigit_of_mem_toDigits

theorem digits_append {ds rest : List Char} (hd : AllDigits ds) (hrest : NoDigit rest) :
    digits (ds ++ rest) = (ds, rest) := by
  rw [digits, List.span_eq_takeWhile_dropWhile, List.takeWhile_append_of_pos hd,
    List.dropWhile_append_of_pos hd]
  cases rest with
  | nil => rw [List.takeWhile_nil, List.dropWhile_nil, List.append_nil]
  | cons c rest =>
    have hc := hrest c rfl
    rw [List.takeWhile_cons_of_neg (by rw [hc]; exact Bool.false_ne_true),
      List.dropWhile_cons_of_neg (by rw [hc]; exact Bool.false_ne_true), List.append_nil]

/-- The digits before a point: a zero alone, or digits that start with another. -/
inductive Whole : List Char → Prop
  | zero : Whole ['0']
  | digits {c : Char} {cs : List Char} (lead : c ≠ '0') (all : AllDigits (c :: cs)) : Whole (c :: cs)

theorem Whole.toDigits (n : Nat) : Whole (Nat.toDigits 10 n) := by
  by_cases hn : n = 0
  · rw [hn]
    exact .zero
  · obtain ⟨c, cs, hdigits, -, hlead⟩ := toDigits_eq_cons hn
    rw [hdigits]
    exact .digits hlead (hdigits ▸ .toDigits n)

theorem wholePart_append {ds rest : List Char} (hd : Whole ds) (hrest : NoDigit rest) :
    wholePart (ds ++ rest) = some (ds, rest) := by
  cases hd with
  | zero => rfl
  | @digits c cs hlead hall =>
    rw [List.cons_append, wholePart]
    · rw [if_pos (hall c List.mem_cons_self), ← List.cons_append, digits_append hall hrest]
    · exact hlead

/-! ### What follows the digits -/

theorem fraction_of_ne {rest : List Char} (h : ∀ c ∈ rest.head?, c ≠ '.') :
    fraction rest = ([], rest) := by
  rcases rest with _ | ⟨c, rest⟩
  · rfl
  · rw [fraction]
    rintro rest' ⟨⟩
    exact h '.' rfl rfl

theorem fraction_point {ds rest : List Char} (hne : ds ≠ []) (hd : AllDigits ds) (hrest : NoDigit rest) :
    fraction ('.' :: (ds ++ rest)) = (ds, rest) := by
  rw [fraction, digits_append hd hrest]
  cases ds with
  | nil => exact absurd rfl hne
  | cons d ds => rfl

theorem exponent?_of_delimited {rest : List Char} (h : Delimited rest) : exponent? rest = none := by
  rcases rest with _ | ⟨c, rest⟩
  · rfl
  · rcases h c rfl with rfl | rfl
    · rfl
    · rfl

theorem Delimited.ne_point {rest : List Char} (h : Delimited rest) : ∀ c ∈ rest.head?, c ≠ '.' := by
  rintro c hc rfl
  rcases h _ hc with hc | hc
  · cases hc
  · cases hc

/-- The exponent `e` behind its letter, its sign given and its digits filled up with zeros. -/
theorem exponent?_signed {rest : List Char} (hrest : Delimited rest) (e : Int) (k : Nat) :
    exponent? ('e' :: (if e < 0 then '-' else '+') ::
      (Layout.zeros k ++ (toString e.natAbs).toList ++ rest)) = some (e, rest) := by
  have hdigits : AllDigits (Layout.zeros k ++ Nat.toDigits 10 e.natAbs) :=
    (AllDigits.zeros k).append (.toDigits _)
  have hne : Layout.zeros k ++ Nat.toDigits 10 e.natAbs ≠ [] :=
    List.append_ne_nil_of_right_ne_nil _ Nat.toDigits_ne_nil
  have hvalue : natOfDigits (Layout.zeros k ++ Nat.toDigits 10 e.natAbs) = e.natAbs := by
    rw [Layout.zeros, natOfDigits_zeros_append, natOfDigits_toDigits]
  have hread := digits_append hdigits hrest.noDigit
  rw [Nat.toString_eq_ofList_toDigits, String.toList_ofList]
  generalize Layout.zeros k ++ Nat.toDigits 10 e.natAbs = ds at hne hvalue hread
  have hletter : ('e' == 'e' || 'e' == 'E') = true := rfl
  rcases ds with _ | ⟨d, ds⟩
  · exact absurd rfl hne
  · by_cases he : e < 0
    · simp only [exponent?, if_pos he, if_pos hletter, exponentSign, hread, hvalue, if_true]
      congr 2
      omega
    · simp only [exponent?, if_neg he, if_pos hletter, exponentSign, hread, hvalue, Bool.false_eq_true,
        if_false]
      congr 2
      omega

/-! ### Whole numbers -/

theorem number_whole {ds rest : List Char} (hd : Whole ds) (hrest : Delimited rest) (whole : List Char)
    (negative : Bool) : number whole negative (ds ++ rest) = integer negative ds rest := by
  rw [number, wholePart_append hd hrest.noDigit]
  simp only [fraction_of_ne hrest.ne_point, exponent?_of_delimited hrest]

/-! ### Numbers with a point or an exponent -/

theorem number_point {ds fs rest : List Char} (hd : Whole ds) (hne : fs ≠ []) (hf : AllDigits fs)
    (hrest : Delimited rest) (whole : List Char) (negative : Bool) :
    number whole negative (ds ++ '.' :: (fs ++ rest)) =
      .ok (.float (.ofDecimal negative ⟨natOfDigits (ds ++ fs), -fs.length⟩), rest) := by
  rw [number, wholePart_append hd (noDigit_cons rfl)]
  simp only [fraction_point hne hf hrest.noDigit, exponent?_of_delimited hrest]

theorem number_exponent {ds tail rest : List Char} {e : Int} (hd : Whole ds)
    (htail : exponent? ('e' :: tail) = some (e, rest)) (whole : List Char) (negative : Bool) :
    number whole negative (ds ++ 'e' :: tail) =
      .ok (.float (.ofDecimal negative ⟨natOfDigits ds, e⟩), rest) := by
  have hfraction : fraction ('e' :: tail) = ([], 'e' :: tail) := rfl
  rw [number, wholePart_append hd (noDigit_cons rfl)]
  simp only [hfraction, htail, List.append_nil, List.length_nil, Int.natCast_zero, Int.sub_zero]

theorem number_point_exponent {ds fs tail rest : List Char} {e : Int} (hd : Whole ds) (hne : fs ≠ [])
    (hf : AllDigits fs) (htail : exponent? ('e' :: tail) = some (e, rest)) (whole : List Char)
    (negative : Bool) :
    number whole negative (ds ++ '.' :: (fs ++ 'e' :: tail)) =
      .ok (.float (.ofDecimal negative ⟨natOfDigits (ds ++ fs), e - fs.length⟩), rest) := by
  have hfraction : fraction ('.' :: (fs ++ 'e' :: tail)) = (fs, 'e' :: tail) :=
    fraction_point hne hf (noDigit_cons rfl)
  rw [number, wholePart_append hd (noDigit_cons rfl)]
  simp only [hfraction, htail]

/-! ### How the digits of a double are set -/

open Layout Magnitude

/-- **Digits that are set with an exponent** are read as the decimal whose first digit stands at the
point. -/
theorem number_scientific {c : Char} {cs rest : List Char} (hlead : c ≠ '0') (hall : AllDigits (c :: cs))
    (hrest : Delimited rest) (l : Layout) (point : Int) (whole : List Char) (negative : Bool) :
    number whole negative (l.scientific (c :: cs) point ++ rest) =
      .ok (.float (.ofDecimal negative ⟨natOfDigits (c :: cs), point - (c :: cs).length⟩), rest) := by
  have htail := exponent?_signed hrest (point - 1)
    (l.exponentWidth - (toString (point - 1).natAbs).toList.length)
  have hfirst : Whole [c] :=
    .digits hlead fun d hd ↦ hall d (List.mem_singleton.1 hd ▸ List.mem_cons_self)
  have hexponent : point - 1 - cs.length = point - (c :: cs).length := by
    rw [List.length_cons]
    omega
  rw [← hexponent]
  rcases cs with _ | ⟨d, ds⟩
  · rw [List.length_nil, Int.natCast_zero, Int.sub_zero, scientific, List.append_assoc]
    exact number_exponent hfirst htail whole negative
  · have hpoint := number_point_exponent hfirst (List.cons_ne_nil d ds)
      (fun f hf ↦ hall f (List.mem_cons_of_mem c hf)) htail whole negative
    rwa [scientific, List.append_assoc]
    exact List.cons_ne_nil d ds

/-- **Digits that are set without an exponent** are read as a decimal of the same value. -/
theorem number_positional {c : Char} {cs rest : List Char} (hlead : c ≠ '0') (hall : AllDigits (c :: cs))
    (hrest : Delimited rest) (point : Int) (whole : List Char) (negative : Bool) :
    ∃ d : Decimal, ofDecimal? d = ofDecimal? ⟨natOfDigits (c :: cs), point - (c :: cs).length⟩ ∧
      number whole negative (positional (c :: cs) point ++ rest) =
        .ok (.float (.ofDecimal negative d), rest) := by
  simp only [positional]
  split
  · -- The digits stand behind the point, and zeros before them.
    next hpoint =>
    refine ⟨_, ?_, number_point .zero (List.append_ne_nil_of_right_ne_nil _ (List.cons_ne_nil c cs))
      ((AllDigits.zeros _).append hall) hrest whole negative⟩
    rw [zeros, ← List.append_assoc, ← List.replicate_one, List.replicate_append_replicate,
      natOfDigits_zeros_append, List.length_append, List.length_replicate]
    congr 2
    omega
  · next hpoint =>
    split
    · -- The digits stand before the point, and zeros behind them.
      next hlength =>
      obtain ⟨k, hk⟩ := Nat.exists_eq_add_of_le hlength
      have hzeros : point.toNat - (c :: cs).length = k := by omega
      have hwhole : Whole (c :: cs ++ zeros k) := .digits hlead (hall.append (.zeros k))
      have hvalue : natOfDigits (c :: cs ++ zeros k ++ ['0']) = natOfDigits (c :: cs) * 10 ^ (k + 1) := by
        rw [zeros, List.append_assoc, ← List.replicate_one, List.replicate_append_replicate,
          natOfDigits_append_zeros]
      have hnumber := number_point hwhole (List.cons_ne_nil '0' []) (.zeros 1) hrest whole negative
      rw [hzeros, List.append_assoc]
      refine ⟨_, ?_, hnumber⟩
      rw [hvalue, ofDecimal?_scale]
      congr 2
      simp only [List.length_cons, List.length_nil] at hk ⊢
      omega
    · -- The point stands among the digits.
      next hlength =>
      obtain ⟨k, hk⟩ := Nat.exists_eq_add_of_lt (Int.lt_toNat.2 (Int.not_le.1 hpoint))
      have hfront : (c :: cs).take point.toNat = c :: cs.take k := by
        rw [hk, Nat.zero_add, List.take_succ_cons]
      have hback : (c :: cs).drop point.toNat ≠ [] := by
        rw [ne_eq, List.drop_eq_nil_iff]
        exact hlength
      have hwhole : Whole ((c :: cs).take point.toNat) := by
        rw [hfront]
        exact .digits hlead fun d hd ↦ hall d (List.mem_of_mem_take (hfront ▸ hd))
      have hnumber := number_point hwhole hback (fun d hd ↦ hall d (List.mem_of_mem_drop hd)) hrest whole
        negative
      rw [List.append_assoc, List.cons_append]
      refine ⟨_, ?_, hnumber⟩
      rw [List.take_append_drop, List.length_drop]
      congr 2
      omega

/-- What is left when the zeros at the end are stripped starts with the same digit. -/
theorem exists_stripZeros {c : Char} (hlead : c ≠ '0') (cs : List Char) :
    ∃ ds k, stripZeros (c :: cs) = c :: ds ∧ c :: cs = c :: ds ++ zeros k := by
  have hzeros : ∃ k, ((c :: cs).reverse.takeWhile (· == '0')).reverse = zeros k := by
    refine ⟨_, List.eq_replicate_of_mem fun d hd ↦ ?_⟩
    exact eq_of_beq (List.all_eq_true.1 List.all_takeWhile d (List.mem_reverse.1 hd))
  obtain ⟨k, hk⟩ := hzeros
  have hsplit : c :: cs = ((c :: cs).reverse.dropWhile (· == '0')).reverse ++ zeros k := by
    rw [← hk, ← List.reverse_append, List.takeWhile_append_dropWhile, List.reverse_reverse]
  rw [stripZeros]
  cases hkept : ((c :: cs).reverse.dropWhile (· == '0')).reverse with
  | nil =>
    rw [hkept, List.nil_append] at hsplit
    exact absurd (List.mem_replicate.1 (hsplit ▸ List.mem_cons_self : c ∈ zeros k)).2 hlead
  | cons d ds =>
    rw [hkept] at hsplit
    obtain rfl : c = d := (List.cons.inj hsplit).1
    exact ⟨ds, k, rfl, hsplit⟩

theorem eq_zero_of_units {m : Magnitude} (h : m.units = 0) : m = zero := by
  obtain ⟨significand, shift, hcanonical⟩ := m
  have hpow : Nat.pow 2 shift ≠ 0 := Nat.ne_of_gt (Nat.two_pow_pos shift)
  obtain rfl : significand = 0 := (Nat.mul_eq_zero.1 h).resolve_right hpow
  have hleast : ¬Nat.pow 2 52 ≤ 0 := by decide
  obtain rfl : shift = 0 := hcanonical.2.2.resolve_left hleast
  rfl

/-- A magnitude whose digits read back as it has a digit that is not zero. -/
theorem digits_shortest_ne_zero {m : Magnitude} (hm : m.units ≠ 0) : m.shortest.digits ≠ 0 := by
  intro h
  have hread := ofDecimal?_shortest hm
  simp only [ofDecimal?, if_pos h] at hread
  exact hm (congrArg Magnitude.units (Option.some.inj hread).symm)

/-- **The text of a magnitude is read as it**, whatever the layout. -/
theorem number_magnitude (l : Layout) (m : Magnitude) {rest : List Char} (hrest : Delimited rest)
    (whole : List Char) (negative : Bool) :
    number whole negative (l.magnitude m ++ rest) = .ok (.float (.finite negative m), rest) := by
  rw [magnitude]
  by_cases hm : m.units = 0
  · have hzero := number_point .zero (List.cons_ne_nil '0' []) (.zeros 1) hrest whole negative
    rw [if_pos hm, eq_zero_of_units hm]
    exact hzero
  · obtain ⟨c, cs, hdigits, -, hlead⟩ := toDigits_eq_cons (digits_shortest_ne_zero hm)
    obtain ⟨ds, k, hstrip, hsplit⟩ := exists_stripZeros hlead cs
    have hall : AllDigits (c :: ds) := fun d hd ↦
      AllDigits.toDigits m.shortest.digits d (hdigits ▸ hsplit ▸ List.mem_append_left _ hd)
    have hvalue : m.shortest.digits = natOfDigits (c :: ds) * 10 ^ k := by
      rw [← natOfDigits_append_zeros, ← zeros, ← hsplit, ← hdigits, natOfDigits_toDigits]
    have hlength : (c :: cs).length = (c :: ds).length + k := by
      rw [hsplit, List.length_append, zeros, List.length_replicate]
    -- What is stripped from the digits is counted in the exponent.
    have hread : ofDecimal? ⟨natOfDigits (c :: ds),
        ((c :: cs).length : Int) + m.shortest.exponent - (c :: ds).length⟩ = some m := by
      have hexponent : ((c :: cs).length : Int) + m.shortest.exponent - (c :: ds).length =
          m.shortest.exponent + k := by omega
      rw [hexponent, ← ofDecimal?_scale, ← hvalue]
      exact ofDecimal?_shortest hm
    simp only [if_neg hm, Nat.toString_eq_ofList_toDigits, String.toList_ofList, hdigits, hstrip]
    split
    · obtain ⟨d, hd, hnumber⟩ := number_positional hlead hall hrest
        ((c :: cs).length + m.shortest.exponent) whole negative
      rw [hnumber, Binary64.ofDecimal, hd, hread]
      rfl
    · rw [number_scientific hlead hall hrest, Binary64.ofDecimal, hread]
      rfl

/-! ### Numbers among the atoms -/

theorem digit_of_number {whole cs : List Char} {negative : Bool} {r : Json × List Char}
    (h : number whole negative cs = .ok r) : ∃ c tail, cs = c :: tail ∧ isAsciiDigit c = true := by
  rcases cs with _ | ⟨c, tail⟩
  · cases h
  refine ⟨c, tail, rfl, ?_⟩
  by_contra hc
  have hnone : wholePart (c :: tail) = none := by
    rw [wholePart, if_neg hc]
    rintro rfl
    exact hc rfl
  rw [number, hnone] at h
  cases h

theorem after?_of_ne {w c : Char} (h : w ≠ c) (word cs : List Char) : after? (w :: word) (c :: cs) = none :=
  if_neg h

theorem ne_of_digit {c d : Char} (hc : isAsciiDigit c = true) (hd : isAsciiDigit d = false) : d ≠ c := by
  rintro rfl
  rw [hc] at hd
  cases hd

/-- No word starts with a digit. -/
theorem words_of_digit {c : Char} (hc : isAsciiDigit c = true) (cs : List Char) :
    (words.findSome? fun w ↦ (after? w.1.toList (c :: cs)).map (w.2, ·)) = none := by
  have hn := after?_of_ne (ne_of_digit (d := 'n') hc rfl)
  have ht := after?_of_ne (ne_of_digit (d := 't') hc rfl)
  have hf := after?_of_ne (ne_of_digit (d := 'f') hc rfl)
  have hN := after?_of_ne (ne_of_digit (d := 'N') hc rfl)
  have hI := after?_of_ne (ne_of_digit (d := 'I') hc rfl)
  have hminus := after?_of_ne (ne_of_digit (d := '-') hc rfl)
  simp [words, hn, ht, hf, hN, hI, hminus]

/-- No word has a digit behind its sign. -/
theorem words_of_minus {c : Char} (hc : isAsciiDigit c = true) (cs : List Char) :
    (words.findSome? fun w ↦ (after? w.1.toList ('-' :: c :: cs)).map (w.2, ·)) = none := by
  have hI := ne_of_digit (d := 'I') hc rfl
  simp [words, after?, hI]

theorem atom_of_number {cs : List Char} {r : Json × List Char} (h : number cs false cs = .ok r) :
    atom cs = .ok r := by
  obtain ⟨c, tail, rfl, hc⟩ := digit_of_number h
  rw [atom, words_of_digit hc]
  · exact h
  · rintro rest ⟨⟩
    cases hc

theorem atom_of_minus {cs : List Char} {r : Json × List Char} (h : number ('-' :: cs) true cs = .ok r) :
    atom ('-' :: cs) = .ok r := by
  obtain ⟨c, tail, rfl, hc⟩ := digit_of_number h
  rw [atom, words_of_minus hc]
  exact h

/-- **The text of a double is read as it.** -/
theorem atom_render (x : Binary64) {rest : List Char} (hrest : Delimited rest) :
    atom ((document.render x).toList ++ rest) = .ok (.float x, rest) := by
  cases x with
  | nan => rfl
  | infinity negative =>
    cases negative with
    | false => rfl
    | true => rfl
  | finite negative m =>
    rw [render, String.toList_ofList]
    cases negative with
    | false => exact atom_of_number (number_magnitude document m hrest _ false)
    | true => exact atom_of_minus (number_magnitude document m hrest _ true)

/-- **The text of an integer is read as it**, unless it has more digits than are read. -/
theorem atom_int {n : Int} (hn : Decimal.digitCount n.natAbs ≤ maxDigits) {rest : List Char}
    (hrest : Delimited rest) : atom ((toString n).toList ++ rest) = .ok (.int n, rest) := by
  have hnumber (whole : List Char) (negative : Bool) :
      number whole negative (Nat.toDigits 10 n.natAbs ++ rest) =
        .ok (.int (if negative then -(n.natAbs : Int) else n.natAbs), rest) := by
    have hfew : ¬maxDigits < (Nat.toDigits 10 n.natAbs).length := Nat.not_lt.2 hn
    rw [number_whole (.toDigits _) hrest, integer, if_neg hfew, natOfDigits_toDigits]
  rcases n with n | n
  · have htext : (toString (Int.ofNat n)).toList = Nat.toDigits 10 n := by
      show (toString n).toList = _
      rw [Nat.toString_eq_ofList_toDigits, String.toList_ofList]
    rw [htext]
    exact atom_of_number (hnumber _ false)
  · have htext : (toString (Int.negSucc n)).toList = '-' :: Nat.toDigits 10 (n + 1) := by
      show ("-" ++ toString (n + 1)).toList = _
      simp only [String.toList_append, Nat.toString_eq_ofList_toDigits, String.toList_ofList]
      rfl
    rw [htext]
    exact atom_of_minus (hnumber _ true)

end ModelServer.Json
