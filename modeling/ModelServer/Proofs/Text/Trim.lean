import Mathlib.Data.List.DropRight
import ModelServer.Text.Blank

/-!
# What trimming leaves

Trimming leaves a text whose ends are not to be cut off, and it leaves a text alone just if that is so
already (`trim_eq_self_iff`, `trimSlashes_eq_self_iff`). So trimming twice is trimming once; but cutting
slashes off a trimmed text can lay open a blank that stood before them, and the two together are not at rest
then.
-/

namespace ModelServer.Text

section Ends

variable {p : Char → Bool} {as bs cs : List Char} {c : Char}

theorem mem_head?_of_isPrefix (h : as <+: bs) (hc : c ∈ as.head?) : c ∈ bs.head? := by
  obtain ⟨rest, rfl⟩ := h
  cases as with
  | nil => exact absurd hc (Option.not_mem_none c)
  | cons a more => exact hc

theorem dropWhile_eq_self_iff : cs.dropWhile p = cs ↔ ∀ c ∈ cs.head?, p c = false := by
  cases cs <;> simp

theorem trimRight_eq_self_iff : trimRight p cs = cs ↔ ∀ c ∈ cs.getLast?, p c = false := by
  rw [show trimRight p cs = cs.rdropWhile p from rfl]
  rcases cs.eq_nil_or_concat with rfl | ⟨more, c, rfl⟩ <;> simp

/-- The first character that is left is not to be cut off. -/
theorem of_mem_head?_dropWhile (hc : c ∈ (cs.dropWhile p).head?) : p c = false :=
  dropWhile_eq_self_iff.1 (List.dropWhile_idempotent p cs) c hc

/-- The last character that is left is not to be cut off. -/
theorem of_mem_getLast?_trimRight (hc : c ∈ (trimRight p cs).getLast?) : p c = false :=
  trimRight_eq_self_iff.1 (List.rdropWhile_idempotent p cs) c hc

theorem trimRight_isPrefix (p : Char → Bool) (cs : List Char) : trimRight p cs <+: cs :=
  List.rdropWhile_prefix p cs

/-- What is cut off at the end are the characters in question. -/
theorem exists_trimRight_append (p : Char → Bool) (cs : List Char) :
    ∃ cut, cs = trimRight p cs ++ cut ∧ ∀ c ∈ cut, p c = true :=
  ⟨cs.rtakeWhile p, (List.rdropWhile_append_rtakeWhile (p := p)).symm, fun _ ↦ List.mem_rtakeWhile_imp⟩

theorem trimRight_append {cut : List Char} (h : ∀ c ∈ cut, p c = true) (cs : List Char) :
    trimRight p (cs ++ cut) = trimRight p cs := by
  rw [trimRight, List.reverse_append, List.dropWhile_append_of_pos fun c hc ↦ h c (List.mem_reverse.1 hc),
    ← trimRight]

theorem of_mem_head?_trimBoth (hc : c ∈ (trimBoth p cs).head?) : p c = false :=
  of_mem_head?_dropWhile (mem_head?_of_isPrefix (trimRight_isPrefix p _) hc)

theorem trimBoth_eq_self_iff :
    trimBoth p cs = cs ↔ (∀ c ∈ cs.head?, p c = false) ∧ ∀ c ∈ cs.getLast?, p c = false := by
  constructor
  · intro h
    rw [← h]
    exact ⟨fun _ ↦ of_mem_head?_trimBoth, fun _ ↦ of_mem_getLast?_trimRight⟩
  · rintro ⟨hhead, hlast⟩
    rw [trimBoth, dropWhile_eq_self_iff.2 hhead, trimRight_eq_self_iff.2 hlast]

end Ends

variable {s : String}

/-- **A text is trimmed just if no blank stands at either end.** -/
theorem trim_eq_self_iff : trim s = s ↔
    (∀ c ∈ s.toList.head?, isBlank c = false) ∧ ∀ c ∈ s.toList.getLast?, isBlank c = false := by
  rw [← trimBoth_eq_self_iff, trim, ← String.toList_inj, String.toList_ofList]

theorem trim_trim (s : String) : trim (trim s) = trim s := by
  rw [trim_eq_self_iff, trim, String.toList_ofList]
  exact ⟨fun _ ↦ of_mem_head?_trimBoth, fun _ ↦ of_mem_getLast?_trimRight⟩

theorem trimSlashes_eq_self_iff : trimSlashes s = s ↔ '/' ∉ s.toList.getLast? := by
  have hends : trimRight (· == '/') s.toList = s.toList ↔ '/' ∉ s.toList.getLast? := by
    rw [trimRight_eq_self_iff]
    refine ⟨fun h hc ↦ absurd (h '/' hc) (by decide), fun h c hc ↦ ?_⟩
    exact beq_eq_false_iff_ne.2 fun heq ↦ h (heq ▸ hc)
  rw [← hends, trimSlashes, ← String.toList_inj, String.toList_ofList]

end ModelServer.Text
