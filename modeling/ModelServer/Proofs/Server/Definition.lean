import ModelServer.Proofs.CommandLine.Listing
import ModelServer.Proofs.Server.Editor
import ModelServer.Proofs.Server.Project
import ModelServer.Proofs.Workspace.Resolution

/-!
# Definitions

An editor that asks what stands at a position is led to a definition. The listing of references
(`Server.listingOf`) goes a different way to the same places, and it is by the listing that the answers
are told here: in a section it is the first entry at the position that counts, with whatever it leads to
(`FirstAt`), and of the sections of the document the first in which that is anywhere.

Two things follow. What an editor is led to is what the listing shows, it is declared in a text that is
open, and the range that is sent holds just its positions, if editors can be told of it at all
(`History.definition_sound`). And an entry that leads nowhere hides all entries behind it in its own section,
though none in other sections (`History.definition_none_iff`).
-/

namespace ModelServer

variable {H : Type}

/-! ### The first entry at a position -/

/-- The location holds the position of the document. Both its ends count. -/
def Location.At (l : Location) (document : String) (p : Position) : Prop :=
  l.document = document ∧ l.interval.start ≤ p ∧ p ≤ l.interval.stop

theorem Location.covers_iff {l : Location} {document : String} {p : Position} :
    l.covers document p = true ↔ l.At document p := by
  rw [covers, At, Bool.and_eq_true, beq_iff_eq, contains, Interval.contains_iff]

/-- The first entry of the listing at the position leads there, or nowhere. -/
def FirstAt (document : String) (p : Position) (entries : List (Location × Option Location))
    (target : Option Location) : Prop :=
  ∃ earlier place later, entries = earlier ++ (place, target) :: later ∧ place.At document p ∧
    ∀ e ∈ earlier, ¬e.1.At document p

theorem firstAt_iff {document : String} {p : Position} {entries : List (Location × Option Location)}
    {target : Option Location} :
    FirstAt document p entries target ↔
      (entries.find? fun e ↦ e.1.covers document p).map Prod.snd = some target := by
  simp only [Option.map_eq_some_iff, List.find?_eq_some_iff_append, Location.covers_iff,
    Bool.not_eq_true', Bool.eq_false_iff, ne_eq]
  constructor
  · rintro ⟨earlier, place, later, rfl, hat, hearlier⟩
    exact ⟨_, ⟨hat, earlier, later, rfl, hearlier⟩, rfl⟩
  · rintro ⟨⟨place, _⟩, ⟨hat, earlier, later, rfl, hearlier⟩, rfl⟩
    exact ⟨earlier, place, later, rfl, hat, hearlier⟩

namespace Server

variable {v : Server H} {r : Compiled} {m : CompiledModel} {p : Position} {sec : Section}

/-- To look for a definition is to look through the stream of references. -/
theorem definitionOf_eq (v : Server H) (r : Compiled) (p : Position) (sec : Section) :
    v.definitionOf r p sec =
      ((v.referencesOf r sec).reduceOption.find? (Reference.covers sec.document.id p)).bind
        fun found ↦ r.model?.bind found.resolve := by
  rw [definitionOf, referencesOf]
  cases v.extensionFor sec with
  | none => rfl
  | some x =>
    have hstream : sec.parse.toList.flatMap (x.found v.surroundings r) =
        (sec.parse.toList.flatMap (x.references v.surroundings)).flatMap (·.expanded r) := by
      rw [List.flatMap_assoc]
      rfl
    dsimp only
    rw [hstream, ← Reference.find?_eq, Reference.findSome?_find?]

/-- Where nothing compiles nothing is found. -/
theorem definitionOf_of_uncompiled (h : r.model? = none) (p : Position) (sec : Section) :
    v.definitionOf r p sec = none := by
  rw [definitionOf_eq, h]
  exact Option.bind_fun_none _

/-- **A section leads where its first entry at the position does.** -/
theorem definitionOf_model (v : Server H) (m : CompiledModel) (p : Position) (sec : Section) :
    v.definitionOf (.model m) p sec =
      ((v.listingOf m sec).find? fun e ↦ e.1.covers sec.document.id p).bind Prod.snd := by
  have hcovers : (fun e : Location × Option Location ↦ e.1.covers sec.document.id p) ∘
      (fun r : Reference ↦ (r.location, r.resolve m)) = Reference.covers sec.document.id p := rfl
  rw [definitionOf_eq, listingOf, List.find?_map, hcovers, Option.bind_map]
  rfl

theorem definitionOf_eq_some_iff {l : Location} :
    v.definitionOf (.model m) p sec = some l ↔
      FirstAt sec.document.id p (v.listingOf m sec) (some l) := by
  rw [definitionOf_model, firstAt_iff]
  cases (v.listingOf m sec).find? _ <;> simp

theorem definitionOf_eq_none_iff :
    v.definitionOf (.model m) p sec = none ↔
      ∀ target, FirstAt sec.document.id p (v.listingOf m sec) target → target = none := by
  simp only [definitionOf_model, firstAt_iff]
  cases (v.listingOf m sec).find? _ <;> simp

end Server

/-! ### Answers -/

namespace Editor

/-- What an editor is told of the place that was found. -/
def shown : Option Location → Except Fault (Option (String × Range))
  | none => .ok none
  | some l => (Range.ofInterval l.interval).map fun range ↦ some (l.document, range)

theorem definition_apply {v : Server H} {document : String} {p : Position} {s s' : Session H}
    {answer : Option Location} (h : v.findDefinition document p s = (.ok answer, s')) :
    (definition (.ok v) document p s).1 = shown answer := by
  rw [definition, Action.bind_ofExcept_apply, Action.bind_of_ok h]
  cases answer with
  | none => rfl
  | some l =>
    dsimp only
    rw [shown]
    cases Range.ofInterval l.interval <;> rfl

end Editor

namespace Texts

/-- In one of the texts an element, or an entry of a profile, is declared that stands there. -/
def Declares [Depths] (texts : Texts) (l : Location) : Prop :=
  ∃ t ∈ texts, l.document = t.1 ∧
    ∃ sec ∈ cut t.1 t.2, ∃ e ∈ sec.parse.toList, ∃ target : Target, target.StandsAt e l

end Texts

namespace History

open Texts CommandLine

section

variable [Depths] {v : Server H} (hp : v.collaborators.provider = DocumentProvider.provider)
  {host : H}
  {operations : List Operation} {s : Session H}
  (hs : s.workspace = (after v host operations).session.workspace)

include hp hs

/-- What is found is that of the first section that leads anywhere. -/
theorem findDefinition_apply (document : String) (p : Position) :
    ∃ w', s.workspace.Learns w' ∧ v.findDefinition document p s =
      (.ok ((s.workspace.sectionsOf document).findSome?
        (v.definitionOf (Compiled.ofSections s.workspace.allSections) p)),
        { s with workspace := w' }) := by
  have hw : s.workspace.Sound := sound_of_after hp hs
  have hsections : s.workspace.Answers (Server.sections document : Action H _)
      (.ok (s.workspace.sectionsOf document)) :=
    .bind_workspace fun w' hw' ↦ hw'.sectionsOf document ▸ .pure _
  exact (hsections.bind (.findDefinitionIn hp hw p fun sec hsec ↦ (hw.held hsec).2)) s hw.learns

/-- **What a reference leads to is declared in a text that is open.** -/
theorem declares_of_resolve {m : CompiledModel}
    (hm : Compiled.ofSections s.workspace.allSections = .model m) {r : Reference} {l : Location}
    (h : r.resolve m = some l) : (openAfter operations).Declares l := by
  obtain ⟨sec, hsec, e, he, hdocument, hstands⟩ := Reference.declared_of_resolve hm h
  have hf := follows_after hp host operations
  have hmem : sec.unrevised ∈ (openAfter operations).allSections := by
    rw [← hf.allSections, ← hs]
    exact List.mem_map_of_mem hsec
  obtain ⟨t, ht, hcut⟩ := mem_allSections.1 hmem
  have hid : sec.document.id = t.1 := document_of_mem_cut (s := sec.unrevised) hcut
  exact ⟨t, ht, hdocument.trans hid, sec.unrevised, hcut, e, he, _, hstands⟩

end

/-! ### What an editor is led to -/

/-- Of the place to which a position of a document leads, in a project with the model `m`. -/
structure LedTo [Depths] (v : Server H) (s : Session H) (texts : Texts) (m : CompiledModel)
    (document : String) (p : Position) (l : Location) : Prop where
  /-- In a section of the document the first entry at the position leads there. -/
  listed : ∃ sec ∈ s.workspace.sectionsOf document, FirstAt document p (v.listingOf m sec) (some l)
  /-- The listings of sections are what the program prints, document by document, if these are the
  documents that it starts with. -/
  printed : ∀ sh src s₀ documents, sh.start src s₀ = (.ok (v, documents), s) →
    (listReferences sh src s₀).1 = .ok (.finished 0 (CommandLine.printed (.list
      (((documents.flatMap s.workspace.sectionsOf).flatMap (v.listingOf m)).map entryJson))) "")
  /-- An element or an entry of a profile stands there, in a text that is open. -/
  declared : texts.Declares l
  /-- The editor gets the document, and a range that holds the positions that the place does. -/
  shown : Editor.Known l.interval.start ∧ Editor.Known l.interval.stop.next → ∃ range,
    (Editor.definition (.ok v) document p s).1 = .ok (some (l.document, range)) ∧
      ∀ q, range.Holds q ↔ l.contains q = true
  /-- If editors cannot be told of the range nothing is sent. -/
  refused : ¬(Editor.Known l.interval.start ∧ Editor.Known l.interval.stop.next) →
    ∃ f, (Editor.definition (.ok v) document p s).1 = .error f

/-- **Definitions are sound and agree with the listing.** Whatever was done to the workspace before, every
position of every document has an answer. Nothing is found if the project does not compile; and what is
found is what the listing of the document shows for the first entry at the position in one of its
sections. There something is declared, in a text that is open now, and the range that an editor gets
holds just its positions. -/
theorem definition_sound [Depths] (v : Server H)
    (hp : v.collaborators.provider = DocumentProvider.provider)
    (host : H) (operations : List Operation) {s : Session H}
    (hs : s.workspace = (after v host operations).session.workspace) (document : String)
    (p : Position) :
    ∃ r answer, (v.collaborators.compile s).1 = .ok r ∧
      (v.findDefinition document p s).1 = .ok answer ∧
      (r.model? = none → answer = none) ∧
      (answer = none → (Editor.definition (.ok v) document p s).1 = .ok none) ∧
      ∀ l, answer = some l → ∃ m, r = .model m ∧
        LedTo v s (openAfter operations) m document p l := by
  have hw : s.workspace.Sound := sound_of_after hp hs
  obtain ⟨w', -, hrun⟩ := findDefinition_apply hp hs document p
  refine ⟨_, _, compile_apply hp hs, congrArg Prod.fst hrun, fun hnone ↦ ?_, fun hnone ↦ ?_,
    fun l hl ↦ ?_⟩
  · exact List.findSome?_eq_none_iff.2 fun sec _ ↦ v.definitionOf_of_uncompiled hnone p sec
  · rw [Editor.definition_apply hrun, hnone]
    rfl
  · obtain ⟨sec, hsec, hfound⟩ := List.exists_of_findSome?_eq_some hl
    -- Where something is found the project has a model.
    have hmodel : ∃ m, Compiled.ofSections s.workspace.allSections = .model m := by
      cases hr : (Compiled.ofSections s.workspace.allSections).model? with
      | none =>
        rw [v.definitionOf_of_uncompiled hr] at hfound
        cases hfound
      | some m => exact ⟨m, Compiled.model?_eq_some_iff.1 hr⟩
    obtain ⟨m, hm⟩ := hmodel
    rw [hm] at hfound
    have hdefinition := Editor.definition_apply hrun
    rw [hl, Editor.shown] at hdefinition
    refine ⟨m, hm, ⟨sec, hsec, ?_⟩, fun sh src s₀ documents hstart ↦ ?_, ?_, fun hknown ↦ ?_,
      fun hunknown ↦ ?_⟩
    · rw [← (hw.held hsec).1]
      exact Server.definitionOf_eq_some_iff.1 hfound
    · obtain ⟨w'', -, hreport⟩ := yields_reportReferences hp hw hm documents s hw.learns
      rw [listReferences_eq, Run.bind_of_ok hstart, hreport]
    · rw [Server.definitionOf_eq] at hfound
      obtain ⟨found, -, hresolve⟩ := Option.bind_eq_some_iff.1 hfound
      exact declares_of_resolve hp hs hm hresolve
    · have hrange := Editor.Range.ofInterval_eq_ok_iff.2 ⟨rfl, hknown⟩
      rw [hrange] at hdefinition
      refine ⟨_, hdefinition, fun q ↦ ?_⟩
      rw [Editor.Range.holds_iff, Location.contains, Interval.contains_iff]
    · cases hrange : Editor.Range.ofInterval l.interval with
      | error f =>
        rw [hrange] at hdefinition
        exact ⟨f, hdefinition⟩
      | ok range => exact absurd (Editor.Range.ofInterval_eq_ok_iff.1 hrange).2 hunknown

/-- A document with a function `f`, a function `h` that ends in the last column that editors know, and one
whose lambda mentions the one and then the other. -/
def limitsText : String :=
  String.join [
    "\x7b\"sections\":[\x7b\"grammar\":\"Function\",\"elements\":[",
    "\x7b\"kind\":\"function\",\"path\":\"f\",\"source\":\x7b\"start\":[0,0],\"end\":[0,5]\x7d\x7d,",
    "\x7b\"kind\":\"function\",\"path\":\"h\",\"source\":\x7b\"start\":[0,0],\"end\":[0,2147483647]\x7d\x7d,",
    "\x7b\"kind\":\"function\",\"path\":\"g\",\"func\":\x7b\"body\":[",
    "\x7b\"kind\":\"\",\"reference\":\"f\",\"source\":\x7b\"start\":[1,0],\"end\":[1,3]\x7d\x7d,",
    "\x7b\"kind\":\"\",\"reference\":\"h\",\"source\":\x7b\"start\":[2,0],\"end\":[2,3]\x7d\x7d]\x7d\x7d]\x7d]\x7d"]

/-- The document is set. -/
def limitsSet : List Operation :=
  [.set "a" limitsText 1]

set_option maxRecDepth 4000 in
open Depths in
/-- The first mention leads to `f`, and the range that is sent holds what `f` does. -/
theorem definition_within_limits :
    ∃ l range,
      (Server.reading.findDefinition "a" ⟨1, 0⟩ (after .reading () limitsSet).session).1 =
        .ok (some l) ∧
      (openAfter limitsSet).Declares l ∧
      (Editor.definition (.ok .reading) "a" ⟨1, 0⟩ (after .reading () limitsSet).session).1 =
        .ok (some ("a", range)) ∧
      ∀ q, range.Holds q ↔ l.contains q = true := by
  have hchars : limitsText = String.ofList _ := join_map_ofList [_, _, _, _, _, _]
  have hfound : (Server.reading.findDefinition "a" ⟨1, 0⟩
      (after .reading () limitsSet).session).1.toOption =
      some (some ⟨"a", ⟨⟨0, 0⟩, ⟨0, 5⟩, by decide⟩⟩) := by
    rw [limitsSet, hchars, session_after_set rfl]
    decide +kernel
  obtain ⟨r, answer, -, hanswer, -, -, hled⟩ := definition_sound .reading rfl () limitsSet
    (s := (after .reading () limitsSet).session) rfl "a" ⟨1, 0⟩
  rw [hanswer] at hfound
  obtain ⟨m, -, hl⟩ := hled _ (Option.some.inj hfound)
  obtain ⟨range, hrange, hholds⟩ := hl.shown (by decide)
  exact ⟨_, range, hanswer.trans (congrArg _ (Option.some.inj hfound)), hl.declared, hrange, hholds⟩

set_option maxRecDepth 4000 in
open Depths in
/-- The second mention leads to `h`, but the end of its range is beyond the limits, and nothing is sent. -/
theorem definition_beyond_limits :
    (Server.reading.findDefinition "a" ⟨2, 0⟩ (after .reading () limitsSet).session).1.toOption =
        some (some ⟨"a", ⟨⟨0, 0⟩, ⟨0, 2147483647⟩, by decide⟩⟩) ∧
      ∀ sent, (Editor.definition (.ok .reading) "a" ⟨2, 0⟩
        (after .reading () limitsSet).session).1 ≠ .ok sent := by
  have hchars : limitsText = String.ofList _ := join_map_ofList [_, _, _, _, _, _]
  have hrefused : (Editor.definition (.ok .reading) "a" ⟨2, 0⟩
      (after .reading () limitsSet).session).1.toOption.isSome = false := by
    rw [limitsSet, hchars, session_after_set rfl]
    decide +kernel
  refine ⟨?_, fun sent hsent ↦ ?_⟩
  · rw [limitsSet, hchars, session_after_set rfl]
    decide +kernel
  · rw [hsent] at hrefused
    cases hrefused

/-! ### What hides what -/

/-- **When nothing is found.** In a project that compiles a position leads nowhere exactly if in each section
of the document the first entry at the position leads nowhere. So an entry that leads somewhere is hidden
by an earlier one of its own section that leads nowhere, and by nothing else. -/
theorem definition_none_iff [Depths] (v : Server H)
    (hp : v.collaborators.provider = DocumentProvider.provider)
    (host : H) (operations : List Operation) {s : Session H}
    (hs : s.workspace = (after v host operations).session.workspace) {m : CompiledModel}
    (hm : (v.collaborators.compile s).1 = .ok (.model m)) (document : String) (p : Position) :
    let sections := s.workspace.sectionsOf document
    (∀ sec ∈ sections, ∀ x, v.extensionFor sec = some x → ∃ refs,
      (x.allReferences v.surroundings sec s).1 = .ok refs ∧
        v.listingOf m sec = refs.reduceOption.map fun r ↦ (r.location, r.resolve m)) ∧
    ∃ answer, (v.findDefinition document p s).1 = .ok answer ∧
      (answer = none ↔
        ∀ sec ∈ sections, ∀ target, FirstAt document p (v.listingOf m sec) target → target = none) ∧
      (answer = none → ∀ sec ∈ sections, ∀ before place l behind,
        v.listingOf m sec = before ++ (place, some l) :: behind → place.At document p →
          ∃ e ∈ before, e.1.At document p ∧ e.2 = none) ∧
      ((answer = none → ∀ sec ∈ sections, ∀ e ∈ v.listingOf m sec, e.1.At document p → e.2 = none) ↔
        ((∃ sec ∈ sections, ∃ e ∈ v.listingOf m sec, e.1.At document p ∧ e.2 ≠ none) →
          ∃ sec ∈ sections, ∃ l, FirstAt document p (v.listingOf m sec) (some l))) := by
  intro sections
  have hw : s.workspace.Sound := sound_of_after hp hs
  have hmodel : Compiled.ofSections s.workspace.allSections = .model m :=
    Except.ok.inj ((compile_apply hp hs).symm.trans hm)
  obtain ⟨w', -, hrun⟩ := findDefinition_apply hp hs document p
  rw [hmodel] at hrun
  have hid (sec : Section) (hsec : sec ∈ sections) : sec.document.id = document := (hw.held hsec).1
  have hnone : sections.findSome? (v.definitionOf (.model m) p) = none ↔
      ∀ sec ∈ sections, ∀ target, FirstAt document p (v.listingOf m sec) target → target = none := by
    rw [List.findSome?_eq_none_iff]
    refine forall₂_congr fun sec hsec ↦ ?_
    rw [Server.definitionOf_eq_none_iff, hid sec hsec]
  refine ⟨fun sec hsec x hx ↦ ?_, _, congrArg Prod.fst hrun, hnone, fun h sec hsec before place l
    behind hlisting hat ↦ ?_, fun hall hsome ↦ ?_, fun hfirst h sec hsec e he hat ↦ ?_⟩
  · obtain ⟨w'', -, hyield⟩ :=
      Workspace.Answers.allReferences hp hw (hw.held hsec).2 hx s hw.learns
    rw [hmodel] at hyield
    exact ⟨_, congrArg Prod.fst hyield, rfl⟩
  · -- The first entry at the position leads nowhere, so it is not this one, and stands before it.
    cases hfind : before.find? fun e ↦ e.1.covers document p with
    | none =>
      have hbefore (e) (he : e ∈ before) : ¬e.1.At document p := by
        rw [← Location.covers_iff]
        simpa using List.find?_eq_none.1 hfind e he
      cases hnone.1 h sec hsec (some l) ⟨before, place, behind, hlisting, hat, hbefore⟩
    | some e =>
      have hcovers := List.find?_some hfind
      have hfirst : FirstAt document p (v.listingOf m sec) e.2 := by
        rw [firstAt_iff, hlisting, List.find?_append, hfind]
        rfl
      exact ⟨e, List.mem_of_find?_eq_some hfind, Location.covers_iff.1 hcovers,
        hnone.1 h sec hsec e.2 hfirst⟩
  · by_contra hnowhere
    obtain ⟨sec, hsec, e, he, hat, htarget⟩ := hsome
    refine htarget (hall (hnone.2 fun sec hsec target hfirst ↦ ?_) sec hsec e he hat)
    cases target with
    | none => rfl
    | some l => exact absurd ⟨sec, hsec, l, hfirst⟩ hnowhere
  · by_contra htarget
    obtain ⟨sec', hsec', l, hl⟩ := hfirst ⟨sec, hsec, e, he, hat, htarget⟩
    cases hnone.1 h sec' hsec' (some l) hl

/-- A document with a function `f`, and one whose lambda calls a function `h` that is not there; inside the
call `f` is mentioned. -/
def hidingText : String :=
  String.join [
    "\x7b\"sections\":[\x7b\"grammar\":\"Function\",\"elements\":[",
    "\x7b\"kind\":\"function\",\"path\":\"f\",\"source\":\x7b\"start\":[0,0],\"end\":[0,5]\x7d\x7d,",
    "\x7b\"kind\":\"function\",\"path\":\"g\",\"func\":\x7b\"body\":[",
    "\x7b\"kind\":\"\",\"reference\":\"h\",\"source\":\x7b\"start\":[1,0],\"end\":[1,9]\x7d,\"children\":[",
    "\x7b\"kind\":\"\",\"reference\":\"f\",\"source\":\x7b\"start\":[1,2],\"end\":[1,3]\x7d\x7d]\x7d]\x7d\x7d]\x7d]\x7d"]

/-- The document is set. -/
def hidingSet : List Operation :=
  [.set "a" hidingText 1]

set_option maxRecDepth 4000 in
open Depths in
/-- The project compiles, and what is listed is the call, which leads nowhere, and then `f`. -/
theorem listing_of_hiding :
    ∃ m, (Server.reading.collaborators.compile (after .reading () hidingSet).session).1 =
        .ok (.model m) ∧
      ((after .reading () hidingSet).session.workspace.sectionsOf "a").map
          (Server.reading.listingOf m) =
        [[(⟨"a", ⟨⟨1, 0⟩, ⟨1, 9⟩, by decide⟩⟩, none),
          (⟨"a", ⟨⟨1, 2⟩, ⟨1, 3⟩, by decide⟩⟩, some ⟨"a", ⟨⟨0, 0⟩, ⟨0, 5⟩, by decide⟩⟩)]] := by
  have hchars : hidingText = String.ofList _ := join_map_ofList [_, _, _, _, _]
  have hcomputed : ((Server.reading.collaborators.compile
      (after .reading () hidingSet).session).1.toOption.bind Compiled.model?).map
        (fun m ↦ ((after .reading () hidingSet).session.workspace.sectionsOf "a").map
          (Server.reading.listingOf m)) =
      some [[(⟨"a", ⟨⟨1, 0⟩, ⟨1, 9⟩, by decide⟩⟩, none),
        (⟨"a", ⟨⟨1, 2⟩, ⟨1, 3⟩, by decide⟩⟩, some ⟨"a", ⟨⟨0, 0⟩, ⟨0, 5⟩, by decide⟩⟩)]] := by
    rw [hidingSet, hchars, session_after_set rfl]
    decide +kernel
  obtain ⟨m, hm, hlisting⟩ := Option.map_eq_some_iff.1 hcomputed
  obtain ⟨r, hr, hmodel⟩ := Option.bind_eq_some_iff.1 hm
  obtain rfl := Compiled.model?_eq_some_iff.1 hmodel
  exact ⟨m, eq_ok_of_toOption hr, hlisting⟩

open Depths in
/-- At the mention of `f` the call is the first entry, and so nothing is found. -/
theorem definition_in_unresolved_call :
    ∃ m, (Server.reading.collaborators.compile (after .reading () hidingSet).session).1 =
        .ok (.model m) ∧
      (Server.reading.findDefinition "a" ⟨1, 2⟩ (after .reading () hidingSet).session).1 =
        .ok none := by
  obtain ⟨m, hm, hlisting⟩ := listing_of_hiding
  obtain ⟨-, answer, hanswer, hnone, -⟩ :=
    definition_none_iff .reading rfl () hidingSet rfl hm "a" ⟨1, 2⟩
  refine ⟨m, hm, hanswer.trans (congrArg _ (hnone.2 fun sec hsec target hfirst ↦ ?_))⟩
  have hmem := List.mem_map_of_mem (f := Server.reading.listingOf m) hsec
  rw [hlisting, List.mem_singleton] at hmem
  rw [hmem, firstAt_iff] at hfirst
  exact (Option.some.inj hfirst).symm

set_option maxRecDepth 4000 in
open Depths in
/-- So `f` is hidden, though the mention of it stands at the position and leads to it. -/
theorem definition_hidden_by_call :
    ∃ m, (Server.reading.collaborators.compile (after .reading () hidingSet).session).1 =
        .ok (.model m) ∧
      (Server.reading.findDefinition "a" ⟨1, 2⟩ (after .reading () hidingSet).session).1 =
        .ok none ∧
      ∃ sec ∈ (after .reading () hidingSet).session.workspace.sectionsOf "a",
        ∃ e ∈ Server.reading.listingOf m sec, e.1.At "a" ⟨1, 2⟩ ∧ e.2 ≠ none := by
  have hchars : hidingText = String.ofList _ := join_map_ofList [_, _, _, _, _]
  have hfound : (Server.reading.findDefinition "a" ⟨1, 2⟩
      (after .reading () hidingSet).session).1.toOption = some none := by
    rw [hidingSet, hchars, session_after_set rfl]
    decide +kernel
  obtain ⟨m, hm, hlisting⟩ := listing_of_hiding
  obtain ⟨sec, hsec, hentries⟩ := List.map_eq_singleton_iff.1 hlisting
  refine ⟨m, hm, eq_ok_of_toOption hfound, sec, hsec ▸ List.mem_singleton_self sec, _,
    hentries ▸ List.mem_cons_of_mem _ (List.mem_singleton_self _), ?_, by simp⟩
  exact ⟨rfl, by decide, by decide⟩

end History

end ModelServer
