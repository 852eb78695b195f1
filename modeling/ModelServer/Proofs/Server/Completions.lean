import ModelServer.Proofs.Server.History
import ModelServer.Proofs.Text.Lines

/-!
# What completion looks at

To complete is to look at what stands on a line before the cursor. Which line that is an editor says by its
number, and the number is taken as it is. So it is the line that the editor means as long as the two count
alike, which they do up to the first character that ends a line here and none for the editor.
-/

namespace ModelServer

open Text

/-- **What is seen at a position.** If nothing ends a line before but what ends one for an editor, it is the
beginning of the line that the editor means, up to the column, or to where something else ends the line. Else
it is the beginning of a part of a line that the editor numbers lower, and the beginning of the line that is
meant is seen only so many lines further down as ends were taken for ends before. Nothing but what is seen
decides what is proposed. -/
theorem Section.lineUpTo_seen {H : Type} (x : Extension H) (sec : Section) (p : Position) :
    let text := sec.document.text
    let seen := sec.lineUpTo p
    let meant := String.ofList (front p.column ((editorLine text p.line).takeWhile fun c ↦ !isLineEnd c))
    meant.toList <+: editorLine text p.line ∧
    ((∀ m < p.line, ∀ c ∈ editorLine text m, isLineEnd c = false) → seen = meant) ∧
    ((∃ m < p.line, ∃ c ∈ editorLine text m, isLineEnd c = true) →
      ∃ m < p.line, ∃ part ∈ linesBy isLineEnd (editorLine text m), seen.toList <+: part) ∧
    sec.lineUpTo ⟨p.line + others text p.line, p.column⟩ = meant ∧
    x.completions sec p =
      x.proposals seen ++ Completion.keywords x.keywords (Completion.lastWord seen) := by
  intro text seen meant
  have hmeant : sec.lineUpTo ⟨p.line + others text p.line, p.column⟩ = meant := by
    rw [Section.lineUpTo, Text.lineUpTo, line_add_others]
  refine ⟨?_, fun h ↦ ?_, fun ⟨m, hm, c, hc, hend⟩ ↦ ?_, hmeant, rfl⟩
  · rw [String.toList_ofList]
    exact (prefix_front _ _).trans (List.takeWhile_prefix _)
  · rw [others_eq_zero_iff.2 h] at hmeant
    exact hmeant
  · -- What ends a line before is counted, so the numbers have run ahead.
    have hothers : 0 < others text p.line := by
      refine Nat.pos_of_ne_zero fun hzero ↦ ?_
      rw [others_eq_zero_iff.1 hzero m hm c hc] at hend
      exact Bool.false_ne_true hend
    obtain ⟨m', hm', part, hpart, hfront⟩ := exists_line_prefix_of_others hothers
    refine ⟨m', hm', part, hpart, ?_⟩
    show (String.ofList _).toList <+: part
    rw [String.toList_ofList]
    exact (prefix_front _ _).trans hfront

/-- A document with a note that holds a line separator, and the beginning of a keyword two lines further
down. -/
def separatedText : String :=
  "\x7b\"note\": \"\u2028\",\n\"sections\": [\x7b\"grammar\": \"Function\"\x7d],\n\"x\": \"imp\"\x7d"

open Depths in
/-- **A separator in a note shifts the lines behind it**: where the editor has the beginning of a keyword the
line before is looked at, and nothing is proposed. -/
theorem separator_shifts_lines :
    editorLine separatedText 2 = "\"x\": \"imp\"\x7d".toList ∧
    ∃ sec ∈ Texts.cut "a" (separatedText, 1),
      ¬(sec.lineUpTo ⟨2, 9⟩).toList <+: editorLine separatedText 2 ∧
      (FunctionGrammar.extension : Extension Unit).completions sec ⟨2, 9⟩ = [] := by
  have hmissed : ((Texts.cut "a" (separatedText, 1)).any fun sec ↦
      !(sec.lineUpTo ⟨2, 9⟩).toList.isPrefixOf (editorLine separatedText 2) &&
      ((FunctionGrammar.extension : Extension Unit).completions sec ⟨2, 9⟩).isEmpty) = true := by
    decide +kernel
  obtain ⟨sec, hsec, hboth⟩ := List.any_eq_true.1 hmissed
  obtain ⟨hfront, hempty⟩ := Bool.and_eq_true_iff.1 hboth
  refine ⟨by decide +kernel, sec, hsec, fun h ↦ ?_, List.isEmpty_iff.1 hempty⟩
  rw [List.isPrefixOf_iff_prefix.2 h] at hfront
  cases hfront

end ModelServer
