import ModelServer.Proofs.Except
import ModelServer.Proofs.Fault
import ModelServer.Testing.Outcome

/-!
# What results are about

The ids of a result read from the outside in, so the first says what the result is about.
`Result.About` is kept by every way in which a result is made: from a message, from a fault (which is
`Result.worded` if it has a text), and from what a test runner reports (`LegacyRun.about_of_results`,
`TestOutcome.about_of_results`). A report is refused as a whole if its ids are no texts; what is said here
is that an accepted one speaks of the element whose tests were run, whatever the runner chose to report.
-/

namespace ModelServer

theorem Outcome.isFailing_iff {o : Outcome} : o.isFailing = true ↔ o = .error ∨ o = .failure := by
  cases o <;> decide

namespace Result

/-! ### Faults in results -/

/-- The result that tells of a fault just raised, in the words that a trace has for it. -/
def worded (path : String) (f : Fault) (location : Option Location) : Result :=
  telling path f.message (Incident.raised f).trace location

/-- A fault that has a text is told in that. -/
theorem ofFault_of_hasText {f : Fault} (hf : f.HasText) (path : String) (location : Option Location) :
    ofFault path f location = .ok (worded path f location) := by
  rw [ofFault, hf]
  rfl

/-- A fault that says something is told in its own words. -/
theorem messageOf_of_cons {text : String} {c : Char} {cs : List Char} (h : text.toList = c :: cs) :
    messageOf text = text := by
  have hne : text.isEmpty = false := by
    rw [Bool.eq_false_iff, ne_eq, String.isEmpty_iff]
    intro hempty
    rw [hempty] at h
    cases h
  rw [messageOf, hne, if_neg Bool.false_ne_true]

/-! ### Subjects -/

/-- The result is about what that text names. -/
def About (subject : String) (r : Result) : Prop :=
  ∃ inner, r.ids = subject :: inner

theorem about_ofElement (path : String) (outcome : Outcome) (message : String)
    (location : Option Location) : (ofElement path outcome message location).About path :=
  ⟨[], rfl⟩

theorem about_telling (path text trace : String) (location : Option Location) :
    (telling path text trace location).About path :=
  ⟨[], rfl⟩

theorem about_of_ofFault {path : String} {f : Fault} {location : Option Location} {r : Result}
    (h : ofFault path f location = .ok r) : r.About path := by
  obtain ⟨text, -, rfl⟩ := map_eq_ok_iff.1 h
  exact about_telling path text _ location

/-- A result under ids of which the first is a text is about that text. -/
theorem about_of_ofIds {path : String} {ids : List Value} {outcome : Outcome} {message : String}
    {logMessage : Option String} {location : Option Location} {r : Result}
    (h : ofIds (.text path :: ids) outcome message logMessage location = .ok r) : r.About path := by
  rw [ofIds, checkIds] at h
  cases hids : checkIds ids with
  | error f => rw [hids] at h; cases h
  | ok inner =>
    rw [hids] at h
    cases h
    exact ⟨inner, rfl⟩

/-- What a result is about is the first of the ids that clients see. -/
theorem About.member_toJson {subject : String} {r : Result} (h : r.About subject) :
    ∃ inner : List String,
      r.toJson.member? "ids" = some (.list (.text subject :: inner.map .text)) := by
  obtain ⟨inner, hinner⟩ := h
  refine ⟨inner, ?_⟩
  have hids : r.toJson.member? "ids" = some (.list (r.ids.map .text)) := rfl
  rw [hids, hinner, List.map_cons]

end Result

theorem LegacyRun.about_of_results {path : String} {runs : List LegacyRun}
    {location : Option Location} {rs : List Result}
    (h : results (.text path) runs location = .ok rs) : ∀ r ∈ rs, r.About path := by
  intro r hr
  obtain ⟨⟨run, entry⟩, -, hresult⟩ := exists_of_mem_mapM h hr
  exact Result.about_of_ofIds hresult

theorem TestOutcome.about_of_results {path : String} {suites : List (TestSuite Location)}
    {outcomes : List TestOutcome} {fallback : Option Location} {rs : List Result}
    (h : results (.text path) suites outcomes fallback = .ok rs) : ∀ r ∈ rs, r.About path := by
  intro r hr
  obtain ⟨o, -, hresult⟩ := exists_of_mem_mapM h hr
  rw [result] at hresult
  cases hjoin : joinIds 0 ([.text path, o.suite, o.test] ++ o.assertion.toList) with
  | error f => rw [hjoin] at hresult; cases hresult
  | ok joined =>
    rw [hjoin] at hresult
    exact Result.about_of_ofIds hresult

end ModelServer
