import ModelServer.Proofs.Text.Order

/-!
# Repairing a text

`repaired` puts replacements in the place of the surrogates that stand alone. What comes out is whole
(`isWhole_repaired`), so repairing twice is repairing once. That is no matter of course: a text that
holds the mark keeps a surrogate wherever the mark meets a character in a surrogate's place, and
taking something out of a text may bring two characters together. It does not happen here, because
each surrogate leaves a replacement behind, and no replacement stands in a surrogate's place
(`head_spelled`).
-/

namespace ModelServer.Text

/-- The characters of those code points, surrogates replaced. -/
def spelled (ns : List Nat) : List Char :=
  ns.flatMap fun n ↦ if isSurrogate n then replacement else [Char.ofNat n]

theorem spelled_toNat (c : Char) (ns : List Nat) : spelled (c.toNat :: ns) = c :: spelled ns := by
  rw [spelled, List.flatMap_cons, isSurrogate_toNat, if_neg Bool.false_ne_true, Char.ofNat_toNat]
  rfl

theorem spelled_of_isSurrogate {n : Nat} (h : isSurrogate n = true) (ns : List Nat) :
    spelled (n :: ns) = '\uFFFD' :: '\uFFFD' :: '\uFFFD' :: spelled ns := by
  rw [spelled, List.flatMap_cons, if_pos h]
  rfl

theorem repaired_eq (s : String) :
    repaired s = if isWhole s then s else String.ofList (spelled (units s.toList)) :=
  rfl

theorem repaired_of_isWhole {s : String} (h : isWhole s = true) : repaired s = s := by
  rw [repaired_eq, if_pos h]

/-- What a character in a surrogate's place is read as. -/
theorem isSurrogate_of_isStandIn {c : Char} (h : isStandIn c = true) :
    isSurrogate (c.toNat - shift) = true := by
  simp only [isStandIn, Bool.and_eq_true, decide_eq_true_eq] at h
  rw [isSurrogate, Bool.and_eq_true, decide_eq_true_eq, decide_eq_true_eq, shift]
  omega

/-- A text starts with a character in a surrogate's place only if it did before it was repaired. -/
theorem head_spelled {cs : List Char} {d : Char} (h : (spelled (units cs)).head? = some d)
    (hd : isStandIn d = true) : cs.head? = some d := by
  fun_cases units cs with
  | case1 => exact h
  | case2 c =>
    rw [units, spelled_toNat, List.head?_cons] at h
    exact h
  | case3 m c rest hm =>
    rw [units, if_pos hm, spelled_of_isSurrogate (isSurrogate_of_isStandIn hm.2),
      List.head?_cons] at h
    obtain rfl := Option.some.inj h
    exact absurd hd (by decide)
  | case4 m c rest hm =>
    rw [units, if_neg hm, spelled_toNat, List.head?_cons] at h
    exact h

/-- A character that does not announce what follows is read by itself. -/
theorem units_cons {m : Char} {cs : List Char}
    (h : m = mark → ∀ d, cs.head? = some d → isStandIn d = false) :
    units (m :: cs) = m.toNat :: units cs := by
  cases cs with
  | nil => rfl
  | cons c rest =>
    rw [units, if_neg]
    rintro ⟨hm, hc⟩
    rw [h hm c rfl] at hc
    exact Bool.false_ne_true hc

theorem units_replacement (cs : List Char) : units ('\uFFFD' :: cs) = 0xFFFD :: units cs := by
  have hne : '\uFFFD' ≠ mark := by decide
  exact units_cons fun h ↦ absurd h hne

/-- **No surrogate stands alone in what is spelled again.** -/
theorem any_units_spelled (cs : List Char) :
    (units (spelled (units cs))).any isSurrogate = false := by
  fun_induction units cs with
  | case1 => rfl
  | case2 c =>
    rw [spelled_toNat]
    simp [spelled, units, isSurrogate_toNat]
  | case3 m c rest h ih =>
    have hr : isSurrogate 0xFFFD = false := rfl
    rw [spelled_of_isSurrogate (isSurrogate_of_isStandIn h.2), units_replacement,
      units_replacement, units_replacement]
    simp only [List.any_cons, hr, ih, Bool.or_false]
  | case4 m c rest h ih =>
    -- Were `m` the mark and what follows in a surrogate's place, that would be so of the text itself.
    have hfirst : m = mark → ∀ d, (spelled (units (c :: rest))).head? = some d →
        isStandIn d = false := by
      intro hm d hd
      refine eq_false_of_ne_true fun hstand ↦ h ⟨hm, ?_⟩
      obtain rfl := Option.some.inj (head_spelled hd hstand)
      exact hstand
    rw [spelled_toNat, units_cons hfirst, List.any_cons, isSurrogate_toNat, ih]
    rfl

theorem isWhole_repaired (s : String) : isWhole (repaired s) = true := by
  rw [repaired_eq]
  split
  · assumption
  · rw [isWhole, String.toList_ofList, any_units_spelled]
    rfl

end ModelServer.Text
