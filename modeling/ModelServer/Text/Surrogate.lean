/-!
# Surrogates that stand alone

A `String` is made of characters, and a surrogate is none. A text can name one all the same, by an
escape. Such a surrogate is kept as two characters: `mark`, which is no character of any script and is
free for uses like this one, and a private character in the surrogate's place.

`units` reads a text as code points, surrogates among them. On a text without the mark it gives the
code points of the characters (`units_eq_map`), and a surrogate that is kept is read back
(`units_standIn`). Everything that looks inside a text, or puts texts in order, goes by its units.

The two characters are taken from the text itself, and so there is one text that is read as another: one
in which the character U+10FFFF, which no text should hold, stands before one of U+E000 to U+E7FF.
-/

namespace ModelServer.Text

/-- The code point is that of a surrogate. -/
def isSurrogate (n : Nat) : Bool :=
  0xD800 ≤ n && n ≤ 0xDFFF

/-- What announces a surrogate. -/
def mark : Char := Char.ofNat 0x10FFFF

/-- The distance from a surrogate to the private character in its place. -/
def shift : Nat := 0x800

/-- The character stands in the place of a surrogate. -/
def isStandIn (c : Char) : Bool :=
  0xE000 ≤ c.toNat && c.toNat ≤ 0xE7FF

/-- How the text keeps a surrogate; the same two characters in a text are taken for one. -/
def standIn (n : Nat) : List Char :=
  [mark, Char.ofNat (n + shift)]

/-- How the text keeps a code point. -/
def ofUnit (n : Nat) : List Char :=
  if isSurrogate n then standIn n else [Char.ofNat n]

/-- The code points of a text, surrogates that stand alone among them. -/
def units : List Char → List Nat
  | [] => []
  | [c] => [c.toNat]
  | m :: c :: rest =>
    if m = mark ∧ isStandIn c then (c.toNat - shift) :: units rest else m.toNat :: units (c :: rest)

/-- How many code points there are. -/
def size (cs : List Char) : Nat :=
  (units cs).length

/-- The front of a text, of that many code points. -/
def front : Nat → List Char → List Char
  | 0, _ => []
  | _ + 1, [] => []
  | _ + 1, [c] => [c]
  | n + 1, m :: c :: rest =>
    if m = mark ∧ isStandIn c then m :: c :: front n rest else m :: front n (c :: rest)

/-- No surrogate stands alone in the text. -/
def isWhole (s : String) : Bool :=
  !(units s.toList).any isSurrogate

/-- What is shown in the place of one surrogate, by those who know characters only: one replacement
for each of the three octets that it would take. -/
def replacement : List Char := ['\uFFFD', '\uFFFD', '\uFFFD']

/-- The text with each surrogate that stands alone replaced. -/
def repaired (s : String) : String :=
  if isWhole s then s
  else
    String.ofList ((units s.toList).flatMap fun n ↦
      if isSurrogate n then replacement else [Char.ofNat n])

/-- The first text comes before the second, or is the second, by code points. -/
def inOrder (s t : String) : Bool :=
  !decide (units t.toList < units s.toList)

/-! ### What units are -/

theorem toNat_standIn {n : Nat} (h : isSurrogate n) : (Char.ofNat (n + shift)).toNat = n + shift := by
  simp only [isSurrogate, Bool.and_eq_true, decide_eq_true_eq] at h
  have hv : (n + shift).isValidChar := Or.inr ⟨by simp only [shift]; omega, by simp only [shift]; omega⟩
  rw [Char.ofNat, dif_pos hv]
  rfl

theorem units_standIn {n : Nat} (h : isSurrogate n) (rest : List Char) :
    units (standIn n ++ rest) = n :: units rest := by
  have hn := toNat_standIn h
  simp only [isSurrogate, Bool.and_eq_true, decide_eq_true_eq] at h
  have hs : isStandIn (Char.ofNat (n + shift)) := by
    simp only [shift] at hn
    simp only [isStandIn, shift, hn, Bool.and_eq_true, decide_eq_true_eq]
    omega
  simp [standIn, units, hs, hn]

theorem units_eq_map {cs : List Char} (h : mark ∉ cs) : units cs = cs.map Char.toNat := by
  fun_induction units cs with
  | case1 => rfl
  | case2 c => rfl
  | case3 m c rest hm ih => simp [hm.1] at h
  | case4 m c rest hm ih => simp [ih (fun hc ↦ h (List.mem_cons_of_mem m hc))]

end ModelServer.Text
