import Mathlib.Data.List.Infix
import Mathlib.Data.List.Nodup
import Mathlib.Data.List.TakeWhile
import ModelServer.Completion

/-!
# What is proposed behind a line

Three things are read off the end of a line: its last word, whether it is blank, and whether it ends in an
arrow. `IsLastWord` says what the last word is without a search: of the words that the line ends in it is the
longest, and `isLastWord_lastWord` that the word found is that one.

Proposals of several grammars are put together by `union`, which keeps of equal ones the first. Put together
one after the other they are all of them in a row without repetitions (`union_nil`), so nothing is proposed
twice, and nothing is lost.
-/

namespace ModelServer

/-! ### Lists without repetitions -/

section EraseDups

variable {α β : Type} [BEq α] [LawfulBEq α]

/-- It does not matter whether repetitions are left out before or after other things. -/
theorem eraseDups_filter (q : α → Bool) (as : List α) :
    (as.filter q).eraseDups = as.eraseDups.filter q := by
  -- The items that are left shrink by more than one, so the induction is on their number.
  induction hn : as.length using Nat.strong_induction_on generalizing as with
  | _ n ih =>
    cases as with
    | nil => rfl
    | cons a rest =>
      have hlt : (rest.filter fun b ↦ !b == a).length < n := by
        rw [← hn, List.length_cons]
        exact Nat.lt_succ_of_le (List.length_filter_le _ _)
      have hrest := ih _ hlt _ rfl
      rw [List.filter_filter] at hrest
      rw [List.eraseDups_cons]
      by_cases ha : q a = true
      · rw [List.filter_cons_of_pos ha, List.filter_cons_of_pos ha, List.eraseDups_cons,
          List.filter_filter, ← hrest]
        simp only [Bool.and_comm]
      · rw [List.filter_cons_of_neg ha, List.filter_cons_of_neg ha, ← hrest]
        congr 1
        refine List.filter_congr fun b _ ↦ ?_
        by_cases hb : b = a
        · simp [hb, ha]
        · simp [hb]

/-- An item that gives nothing may be left out. -/
theorem flatMap_eraseDups_cons {f : α → List β} {a : α} (ha : f a = []) (rest : List α) :
    (a :: rest).eraseDups.flatMap f = rest.eraseDups.flatMap f := by
  rw [List.eraseDups_cons, List.flatMap_cons, ha, List.nil_append, eraseDups_filter]
  induction rest.eraseDups with
  | nil => rfl
  | cons b more ih =>
    by_cases hb : b = a
    · rw [List.filter_cons_of_neg (by simp [hb]), ih, List.flatMap_cons, hb, ha, List.nil_append]
    · rw [List.filter_cons_of_pos (by simp [hb]), List.flatMap_cons, List.flatMap_cons, ih]

end EraseDups

namespace Completion

/-! ### The last word -/

/-- The word is the longest of those that the line ends in, a word being of letters and underscores. -/
structure IsLastWord (line word : List Char) : Prop where
  suffix : word <:+ line
  letters : ∀ c ∈ word, c.isAlpha = true ∨ c = '_'
  longest : ∀ other, other <:+ line → (∀ c ∈ other, c.isAlpha = true ∨ c = '_') → other <:+ word

theorem isWordChar_iff {c : Char} : isWordChar c = true ↔ c.isAlpha = true ∨ c = '_' := by
  have hupper : c.isUpper = true ↔ 'A' ≤ c ∧ c ≤ 'Z' := decide_eq_true_iff
  have hlower : c.isLower = true ↔ 'a' ≤ c ∧ c ≤ 'z' :=
    Bool.and_eq_true_iff.trans (and_congr decide_eq_true_iff decide_eq_true_iff)
  have halpha : c.isAlpha = true ↔ c.isUpper = true ∨ c.isLower = true := Bool.or_eq_true_iff
  rw [halpha, hupper, hlower, isWordChar]
  simp only [Bool.or_eq_true, Bool.and_eq_true, decide_eq_true_eq, beq_iff_eq]
  tauto

/-- **The word that is found is the last word.** -/
theorem isLastWord_lastWord (line : String) : IsLastWord line.toList (lastWord line).toList := by
  rw [lastWord, String.toList_ofList]
  refine ⟨?_, fun c hc ↦ ?_, fun other hsuffix hletters ↦ ?_⟩
  · rw [← List.reverse_prefix, List.reverse_reverse]
    exact List.takeWhile_prefix _
  · exact isWordChar_iff.1 (List.mem_takeWhile_imp (List.mem_reverse.1 hc))
  · -- Read from its end, the line begins with the other word, and that is of word characters all along.
    obtain ⟨before, hline⟩ := hsuffix
    have hall : ∀ c ∈ other.reverse, isWordChar c = true :=
      fun c hc ↦ isWordChar_iff.2 (hletters c (List.mem_reverse.1 hc))
    rw [← List.reverse_prefix, List.reverse_reverse, ← hline, List.reverse_append,
      List.takeWhile_append_of_pos hall]
    exact List.prefix_append _ _

/-! ### What is proposed for it -/

/-- **A keyword is proposed if the word begins it and is not all of it.** -/
theorem mem_keywords {names : List String} {word : String} {c : Completion} :
    c ∈ keywords names word ↔
      ∃ k ∈ names, c = ⟨keywordDescription, k⟩ ∧ word ≠ "" ∧ word.toList <+: k.toList ∧ word ≠ k := by
  rw [keywords]
  by_cases hword : word = ""
  · simp [hword]
  · have hempty : ¬word.isEmpty = true := by simpa using hword
    rw [if_neg hempty]
    simp only [List.mem_map, List.mem_filter, Bool.and_eq_true, List.isPrefixOf_iff_prefix, bne_iff_ne]
    constructor
    · rintro ⟨k, ⟨hk, hbegins, hne⟩, rfl⟩
      exact ⟨k, hk, rfl, hword, hbegins, hne.symm⟩
    · rintro ⟨k, hk, rfl, -, hbegins, hne⟩
      exact ⟨k, ⟨hk, hbegins, hne.symm⟩, rfl⟩

/-- What a service template is described as. -/
def template : Completion :=
  ⟨"Service boilerplate", serviceTemplate⟩

/-- A step of a query, as it is proposed. -/
def step (s : String) : Completion :=
  ⟨"Function evaluation", s⟩

theorem keyword_ne_template (k : String) : Completion.mk keywordDescription k ≠ template := by
  intro h
  have : "Keyword" = "Service boilerplate" := congrArg description h
  exact absurd this (by decide)

theorem keyword_ne_step (k s : String) : Completion.mk keywordDescription k ≠ step s := by
  intro h
  have : "Keyword" = "Function evaluation" := congrArg description h
  exact absurd this (by decide)

theorem template_ne_step (s : String) : template ≠ step s := by
  intro h
  have : "Service boilerplate" = "Function evaluation" := congrArg description h
  exact absurd this (by decide)

theorem endsInArrow_iff {line : String} : endsInArrow line = true ↔ ['-', '>'] <:+ line.toList := by
  rw [endsInArrow, List.isPrefixOf_iff_prefix, ← List.reverse_prefix]
  rfl

/-- **Services propose a template on a blank line and steps behind an arrow.** -/
theorem mem_services {line : String} {c : Completion} :
    c ∈ services line ↔
      (c = template ∧ ∀ b ∈ line.toList, Text.isBlank b = true) ∨
        ∃ s ∈ querySteps, c = step s ∧ ['-', '>'] <:+ line.toList := by
  rw [services, List.mem_append, ← endsInArrow_iff]
  refine or_congr ?_ ?_
  · rw [← List.all_eq_true, ← Text.allBlank]
    split
    · next h => simp [template, h]
    · next h => simp [h]
  · split
    · next h => simp [step, h, eq_comm]
    · next h => simp [h]

/-! ### Putting proposals together -/

theorem union_append (seen more others : List Completion) :
    union seen (more ++ others) = union (union seen more) others :=
  List.foldl_append

/-- Behind what there was stands what is new, without repetitions. -/
theorem union_eq (seen more : List Completion) :
    union seen more = seen ++ (more.filter fun c ↦ !seen.contains c).eraseDups := by
  induction more generalizing seen with
  | nil => exact (List.append_nil seen).symm
  | cons c rest ih =>
    have hstep : union seen (c :: rest) =
        union (if seen.contains c then seen else seen ++ [c]) rest := rfl
    by_cases hc : seen.contains c = true
    · rw [hstep, if_pos hc, ih, List.filter_cons_of_neg (by simpa using hc)]
    · rw [hstep, if_neg hc, ih, List.filter_cons_of_pos (by simpa using hc), List.eraseDups_cons,
        List.filter_filter, List.append_assoc, List.singleton_append]
      congr 3
      refine List.filter_congr fun d _ ↦ ?_
      by_cases hd : d = c
      · simp [hd]
      · simp [hd]

/-- **Put together from nothing, proposals are listed without repetitions.** -/
theorem union_nil (cs : List Completion) : union [] cs = cs.eraseDups := by
  rw [union_eq, List.nil_append]
  simp

theorem nodup_union {seen : List Completion} (hn : seen.Nodup) (more : List Completion) :
    (union seen more).Nodup := by
  refine List.foldlRecOn more _ hn fun cs hcs c _ ↦ ?_
  split
  · exact hcs
  · next hc =>
    rw [List.nodup_append]
    refine ⟨hcs, List.nodup_singleton c, fun a ha b hb hab ↦ hc ?_⟩
    rw [← List.mem_singleton.1 hb, ← hab]
    exact List.contains_iff_mem.2 ha

end Completion

end ModelServer
