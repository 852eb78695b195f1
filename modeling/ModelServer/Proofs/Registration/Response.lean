import ModelServer.Proofs.Json.Depth
import ModelServer.Registration

/-!
# Which answers can be shown

An answer of an execution server is shown unless it is nested too deep, and there are two ways to be that:
too deep to be read, or read and too deep to be set out (`TooDeep`). Nothing else keeps an answer from
being shown (`exists_formatResponse_eq_ok_iff`), and what is told then is a fault of recursion.
-/

namespace ModelServer.Registration

variable [Depths]

open Json

/-- The answer is nested deeper than can be shown. -/
inductive TooDeep (text : String) : Prop
  | unread {f : Json.Fault} (read : Json.read text = .error f) (depth : f.isDepth = true) : TooDeep text
  | unshown {v : Json} (read : Json.read text = .ok v) (height : Depths.showing < v.height) : TooDeep text

theorem tooDeep_iff_of_read {text : String} {v : Json} (h : Json.read text = .ok v) :
    TooDeep text ↔ Depths.showing < v.height := by
  refine ⟨?_, .unshown h⟩
  rintro (⟨hread, -⟩ | ⟨hread, hheight⟩)
  · rw [h] at hread
    cases hread
  · obtain rfl := Except.ok.inj (h.symm.trans hread)
    exact hheight

theorem tooDeep_iff_of_not_read {text : String} {f : Json.Fault} (h : Json.read text = .error f) :
    TooDeep text ↔ f.isDepth = true := by
  refine ⟨?_, .unread h⟩
  rintro (⟨hread, hdepth⟩ | ⟨hread, -⟩)
  · obtain rfl := Except.error.inj (h.symm.trans hread)
    exact hdepth
  · rw [h] at hread
    cases hread

theorem formatResponse_of_tooDeep {text : String} (h : TooDeep text) :
    ∃ f, formatResponse text = .error f ∧ f.name = "RecursionError" := by
  rw [formatResponse]
  cases h with
  | @unread f read depth =>
    rw [read]
    exact ⟨.unreadable f, if_pos depth, by rw [Fault.name, if_pos depth, Kind.name]⟩
  | unshown read height =>
    rw [read]
    exact ⟨Fault.tooDeep, if_pos height, rfl⟩

/-- **Whatever is not nested too deep can be shown.** -/
theorem exists_formatResponse_eq_ok_iff {text : String} :
    (∃ shown, formatResponse text = .ok shown) ↔ ¬TooDeep text := by
  constructor
  · rintro ⟨shown, hshown⟩ hdeep
    obtain ⟨f, hf, -⟩ := formatResponse_of_tooDeep hdeep
    rw [hf] at hshown
    cases hshown
  · intro h
    rw [formatResponse]
    cases hread : Json.read text with
    | ok v => exact ⟨_, if_neg (mt (tooDeep_iff_of_read hread).2 h)⟩
    | error f => exact ⟨_, if_neg (mt (tooDeep_iff_of_not_read hread).2 h)⟩

/-- A text that opens more lists than may be read is nested too deep, whatever follows. -/
theorem tooDeep_of_opening {n : Nat} (hn : Depths.reading < n) (rest : List Char) :
    TooDeep (String.ofList (List.replicate n '[' ++ rest)) := by
  obtain ⟨f, hread, hdepth⟩ := read_of_opening hn rest
  exact .unread hread hdepth

end ModelServer.Registration
