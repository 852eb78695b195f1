import ModelServer.Text.Surrogate

/-!
# Texts are put in order by their units

A text is compared through its code points, surrogates that stand alone among them, and not through
the characters that keep them. For the order to be one of *texts* no two texts may have the same
units. `flatMap_ofUnit_units` writes a text from its units again, which rests on two facts: no
character is a surrogate, so what is read as one was kept as one; and `standIn` is the only form in
which one is kept.

With that `inOrder` is a total order (`inOrder_trans`, `inOrder_total`, `inOrder_antisymm`), which is
what makes sorting by names forget the order in which the names came.
-/

namespace ModelServer.Text

theorem isSurrogate_toNat (c : Char) : isSurrogate c.toNat = false := by
  have h : c.toNat.isValidChar := c.valid
  simp only [Nat.isValidChar] at h
  simp only [isSurrogate, Bool.and_eq_false_iff, decide_eq_false_iff_not]
  omega

theorem ofUnit_toNat (c : Char) : ofUnit c.toNat = [c] := by
  rw [ofUnit, isSurrogate_toNat, if_neg Bool.false_ne_true, Char.ofNat_toNat]

/-- A character in the place of a surrogate is read as that surrogate and as nothing else. -/
theorem ofUnit_of_isStandIn {c : Char} (h : isStandIn c = true) :
    ofUnit (c.toNat - shift) = [mark, c] := by
  simp only [isStandIn, Bool.and_eq_true, decide_eq_true_eq] at h
  have hs : isSurrogate (c.toNat - shift) = true := by
    rw [isSurrogate, Bool.and_eq_true, decide_eq_true_eq, decide_eq_true_eq, shift]
    omega
  have hc : c.toNat - shift + shift = c.toNat := by
    rw [shift]
    omega
  rw [ofUnit, if_pos hs, standIn, hc, Char.ofNat_toNat]

/-- **A text is written from its units again.** -/
theorem flatMap_ofUnit_units (cs : List Char) : (units cs).flatMap ofUnit = cs := by
  fun_induction units cs with
  | case1 => rfl
  | case2 c => rw [List.flatMap_cons, ofUnit_toNat]; rfl
  | case3 m c rest h ih => rw [List.flatMap_cons, ih, ofUnit_of_isStandIn h.2, h.1]; rfl
  | case4 m c rest h ih => rw [List.flatMap_cons, ih, ofUnit_toNat]; rfl

theorem units_injective {cs ds : List Char} (h : units cs = units ds) : cs = ds := by
  rw [← flatMap_ofUnit_units cs, h, flatMap_ofUnit_units]

/-! ### The order of texts -/

theorem inOrder_iff {s t : String} :
    inOrder s t = true ↔ ¬units t.toList < units s.toList := by
  rw [inOrder, Bool.not_eq_true', decide_eq_false_iff_not]

theorem inOrder_trans {s t u : String} (h : inOrder s t = true) (h' : inOrder t u = true) :
    inOrder s u = true := by
  rw [inOrder_iff] at *
  exact List.le_trans h h'

theorem inOrder_total (s t : String) : (inOrder s t || inOrder t s) = true := by
  rw [Bool.or_eq_true, inOrder_iff, inOrder_iff]
  exact List.le_total (units s.toList) (units t.toList)

theorem inOrder_antisymm {s t : String} (h : inOrder s t = true) (h' : inOrder t s = true) :
    s = t := by
  rw [inOrder_iff] at h h'
  exact String.toList_inj.1 (units_injective (List.le_antisymm h h'))

end ModelServer.Text
