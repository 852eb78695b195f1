import ModelServer.Proofs.Grammar.References
import ModelServer.Proofs.Server.Characters

/-!
# The stream of references of a section

What an extension yields as the references of a section is the stream `Server.referencesOf`, whatever is
remembered of the workspace (`Workspace.Answers.allReferences`). What that stream should be is told by
`Section.mentions`, which goes through what the section declares and knows neither extensions nor
sources: with the extensions that are always there the two agree, item by item and in order
(`Section.referencesOf_eq`).

In a project that compiles the form of a service is found by its path. That it is the form of the service
the references are asked for, and not of another one, is `Compiled.knows_ofSections`.
-/

namespace ModelServer

variable {H : Type}

/-! ### What is yielded -/

/-- All references of a section, in a project that compiled to `r`. -/
def Server.referencesOf (v : Server H) (r : Compiled) (sec : Section) : List (Option Reference) :=
  match v.extensionFor sec with
  | some x => sec.parse.toList.flatMap (x.found v.surroundings r)
  | none => []

namespace Workspace.Answers

variable [Depths] {v : Server H} {w : Workspace}
  (hp : v.collaborators.provider = DocumentProvider.provider)

include hp

theorem expandAll (hw : w.Sound) (sources : List ReferenceSource) :
    w.Answers (Extension.expandAll v.surroundings sources)
      (.ok (sources.flatMap (·.expanded (Compiled.ofSections w.allSections)))) := by
  induction sources with
  | nil => exact pure _
  | cons source rest ih => exact (expand hp hw source).bind (ih.bind_pure _)

/-- **What an extension yields is the stream of references**, whatever is remembered. -/
theorem allReferences (hw : w.Sound) {sec : Section} (hsec : w.Held sec) {x : Extension H}
    (hx : v.extensionFor sec = some x) :
    w.Answers (x.allReferences v.surroundings sec)
      (.ok (v.referencesOf (Compiled.ofSections w.allSections) sec)) := by
  have hstream : v.referencesOf (Compiled.ofSections w.allSections) sec =
      (sec.parse.toList.flatMap (x.references v.surroundings)).flatMap
        (·.expanded (Compiled.ofSections w.allSections)) := by
    rw [Server.referencesOf, hx, List.flatMap_assoc]
    rfl
  rw [hstream]
  exact ((parse hp hsec).bind_pure _).bind (expandAll hp hw _)

end Workspace.Answers

/-! ### What should be -/

/-- What the declarations of a section mention, one after the other. -/
def Section.mentions (sec : Section) (compiles : Bool) : List Mention :=
  match sec.content with
  | .ok c => c.declarations.flatMap (·.mentions sec.document.id sec.grammar compiles)
  | .error _ => []

/-- The grammars in which something is mentioned. -/
def referringGrammars : List String :=
  ["Service", "Runtime", "Function"]

/-- In other grammars nothing is mentioned. -/
theorem Declaration.mentions_of_not_mem {document grammar : String} (h : grammar ∉ referringGrammars)
    (compiles : Bool) (d : Declaration) : d.mentions document grammar compiles = [] := by
  simp only [referringGrammars, List.mem_cons, List.not_mem_nil, or_false, not_or] at h
  obtain ⟨hservice, hruntime, hfunction⟩ := h
  cases d <;> simp [Declaration.mentions, hservice, hruntime, hfunction]

namespace Compiled

variable {sections : List Section} {sec : Section}

theorem model?_eq_some_iff {r : Compiled} {m : CompiledModel} : r.model? = some m ↔ r = .model m := by
  cases r <;> simp [model?]

/-- **The form that is found for a service is its own.** -/
theorem knows_ofSections (hsec : sec ∈ sections) {c : SectionContent} (hc : sec.content = .ok c)
    {d : Declaration} (hd : d ∈ c.declarations) :
    (ofSections sections).Knows (d.compiled? sec.document.id).toList := by
  intro m hm form hform
  rw [model?_eq_some_iff] at hm
  have hclean := exists_model_iff.1 ⟨m, hm⟩
  rw [CompiledModel.form?, eq_of_model hm, Dictionary.lookup_eq_some_iff_mem hclean.nodup_forms,
    formsOf, List.mem_flatMap]
  refine ⟨sec, hsec, List.mem_map.2 ⟨form, ?_, rfl⟩⟩
  rw [Section.forms, hc]
  exact List.mem_filterMap.2 ⟨d, hd, Option.mem_toList.1 hform⟩

end Compiled

namespace Server

variable [Depths] {v : Server H} (hx : v.extensions = defaultExtensions)

include hx

/-- Each grammar in which something is mentioned has its extension, and no other grammar has one. -/
theorem extensionFor_cases (sec : Section) :
    (sec.grammar = "Service" ∧ v.extensionFor sec = some ServiceGrammar.extension) ∨
    (sec.grammar = "Runtime" ∧ v.extensionFor sec = some RuntimeGrammar.extension) ∨
    (sec.grammar = "Function" ∧ v.extensionFor sec = some FunctionGrammar.extension) ∨
    (sec.grammar ∉ referringGrammars ∧ v.extensionFor sec = none) := by
  have hservice : (ServiceGrammar.extension (H := H)).name = "Service" := rfl
  have hruntime : (RuntimeGrammar.extension (H := H)).name = "Runtime" := rfl
  have hfunction : (FunctionGrammar.extension (H := H)).name = "Function" := rfl
  rw [extensionFor, hx]
  by_cases hs : sec.grammar = "Service"
  · exact .inl ⟨hs, by rw [hs]; rfl⟩
  by_cases hr : sec.grammar = "Runtime"
  · exact .inr (.inl ⟨hr, by rw [hr]; rfl⟩)
  by_cases hf : sec.grammar = "Function"
  · exact .inr (.inr (.inl ⟨hf, by rw [hf]; rfl⟩))
  refine .inr (.inr (.inr ⟨by simp [referringGrammars, hs, hr, hf], ?_⟩))
  simp [defaultExtensions, hservice, hruntime, hfunction, Ne.symm hs, Ne.symm hr, Ne.symm hf]

theorem isSome_extensionFor_iff (sec : Section) :
    (v.extensionFor sec).isSome = true ↔ sec.grammar ∈ referringGrammars := by
  obtain ⟨hg, h⟩ | ⟨hg, h⟩ | ⟨hg, h⟩ | ⟨hg, h⟩ := extensionFor_cases hx sec
  all_goals simp [h, hg, referringGrammars]
  simpa [referringGrammars] using hg

/-- Runtimes have an extension. -/
theorem has_runtime : v.surroundings.has .runtime = true := by
  rw [surroundings, hx]
  rfl

/-- **References are found where something is mentioned**, and in that order. -/
theorem referencesOf_eq {sections : List Section} {sec : Section} (hsec : sec ∈ sections) :
    v.referencesOf (Compiled.ofSections sections) sec =
      (sec.mentions (Compiled.ofSections sections).model?.isSome).map Mention.reference := by
  rw [referencesOf, Section.mentions]
  cases hc : sec.content with
  | error f =>
    -- What is no section has no elements.
    have hparse : sec.parse.toList = [] := by
      cases hes : sec.parse with
      | faulty _ => rfl
      | elements es =>
        obtain ⟨c, hcontent, -⟩ := Section.parse_eq_elements_iff.1 hes
        rw [hc] at hcontent
        cases hcontent
    rw [hparse]
    cases v.extensionFor sec <;> rfl
  | ok c =>
    have hparse : sec.parse.toList = c.declarations.map (·.toElement sec.document.id) := by
      rw [Section.parse_of_content hc]
      rfl
    have hknows (d) (hd : d ∈ c.declarations) := Compiled.knows_ofSections hsec hc hd
    rw [hparse, List.map_flatMap]
    obtain ⟨hg, h⟩ | ⟨hg, h⟩ | ⟨hg, h⟩ | ⟨hg, h⟩ := extensionFor_cases hx sec
    · rw [h, hg]
      dsimp only
      rw [List.flatMap_map]
      exact List.flatMap_congr fun d hd ↦ ServiceGrammar.found_eq (has_runtime hx) (hknows d hd)
    · rw [h, hg]
      dsimp only
      rw [List.flatMap_map]
      exact List.flatMap_congr fun d _ ↦ RuntimeGrammar.found_eq _ _ _ d
    · rw [h, hg]
      dsimp only
      rw [List.flatMap_map]
      exact List.flatMap_congr fun d _ ↦ FunctionGrammar.found_eq _ _ _ d
    · rw [h]
      refine (List.flatMap_eq_nil_iff.2 fun d _ ↦ ?_).symm
      rw [Declaration.mentions_of_not_mem hg, List.map_nil]

end Server

namespace History

/-- **The stream of references is complete and in order.** With the extensions that are always there, and
whatever was done to the workspace before, a section of an open document has an extension exactly if it
is in a grammar in which something is mentioned. What that extension yields is one item for each thing
that the section's declarations mention, in that order, be it in what is parsed or, if the project
compiles, in what is compiled. An item is absent exactly if the place or the name is missing. -/
theorem references_exact [Depths] (v : Server H)
    (hp : v.collaborators.provider = DocumentProvider.provider)
    (hx : v.extensions = Server.defaultExtensions) (host : H) (operations : List Operation)
    {s : Session H} (hs : s.workspace = (after v host operations).session.workspace) :
    ∃ r, (v.collaborators.compile s).1 = .ok r ∧
      ∀ document, ∀ sec ∈ s.workspace.sectionsOf document,
        ((v.extensionFor sec).isSome = true ↔ sec.grammar ∈ referringGrammars) ∧
        (∀ x, v.extensionFor sec = some x →
          (x.allReferences v.surroundings sec s).1 =
            .ok ((sec.mentions r.model?.isSome).map Mention.reference)) ∧
        ∀ m ∈ sec.mentions r.model?.isSome,
          m.reference = none ↔ m.place = none ∨ m.target = none := by
  have hf := follows_after hp host operations
  have hw : s.workspace.Sound := hs ▸ hf.sound
  obtain ⟨w', -, hcompile⟩ := Workspace.Answers.compile hp hw s hw.learns
  refine ⟨_, congrArg Prod.fst hcompile, fun document sec hsec ↦
    ⟨Server.isSome_extensionFor_iff hx sec, fun x hext ↦ ?_, fun m _ ↦ ?_⟩⟩
  · have hall : sec ∈ s.workspace.allSections :=
      (Workspace.mem_allSections hw.nodup).2 ⟨document, hsec⟩
    obtain ⟨w'', -, hrun⟩ :=
      Workspace.Answers.allReferences hp hw (hw.held hsec).2 hext s hw.learns
    rw [hrun, Server.referencesOf_eq hx hall]
  · rw [Mention.reference_eq_none_iff, or_comm]

/-- A document with a service that mentions a mapping without a place and, in its lambda, a function and
below it something without a place. -/
def mentioningText : String :=
  String.join [
    "\x7b\"sections\":[\x7b\"grammar\":\"Service\",\"elements\":[",
    "\x7b\"kind\":\"service\",\"path\":\"s\",\"execution\":\x7b\"kind\":\"single\",\"mapping\":\"m\",\"func\":",
    "\x7b\"body\":[\x7b\"kind\":\"\",\"reference\":\"f\",\"source\":\x7b\"start\":[0,0],\"end\":[0,3]\x7d,",
    "\"children\":[\x7b\"kind\":\"\",\"reference\":\"g\"\x7d]\x7d]\x7d\x7d\x7d]\x7d]\x7d"]

/-- The document is set. -/
def mentioningSet : List Operation :=
  [.set "a" mentioningText 1]

set_option maxRecDepth 2000 in
open Depths in
/-- The project compiles. What has no place has an item, which is absent, and takes nothing from the
items that are there. -/
theorem references_of_mentioning :
    ∃ sec ∈ (after .reading () mentioningSet).session.workspace.sectionsOf "a",
      ∃ x, Server.reading.extensionFor sec = some x ∧
        (x.allReferences Server.reading.surroundings sec
          (after .reading () mentioningSet).session).1 =
          .ok [none, some ⟨⟨"a", ⟨⟨0, 0⟩, ⟨0, 3⟩, by decide⟩⟩, .element "f"⟩, none] := by
  have hchars : mentioningText = String.ofList _ := join_map_ofList [_, _, _, _]
  obtain ⟨r, hr, hall⟩ := references_exact .reading rfl rfl () mentioningSet
    (s := (after .reading () mentioningSet).session) rfl
  have hmodel : r.model?.isSome = true := by
    have h : ((Server.reading.collaborators.compile
        (after .reading () mentioningSet).session).1.toOption.bind Compiled.model?).isSome = true := by
      rw [mentioningSet, hchars, session_after_set rfl]
      decide +kernel
    rwa [hr] at h
  have hsections : ((after .reading () mentioningSet).session.workspace.sectionsOf "a").map
      (fun sec ↦ (sec.grammar, (sec.mentions true).map Mention.reference)) =
      [("Service",
        [none, some ⟨⟨"a", ⟨⟨0, 0⟩, ⟨0, 3⟩, by decide⟩⟩, .element "f"⟩, none])] := by
    rw [mentioningSet, hchars, session_after_set rfl]
    decide +kernel
  rw [hmodel] at hall
  obtain ⟨sec, hsec, hmentions⟩ := List.map_eq_singleton_iff.1 hsections
  obtain ⟨hgrammar, hreferences⟩ := Prod.mk.inj hmentions
  have hmem : sec ∈ (after .reading () mentioningSet).session.workspace.sectionsOf "a" :=
    hsec ▸ List.mem_singleton_self sec
  obtain ⟨hhandled, hyields, -⟩ := hall "a" sec hmem
  obtain ⟨x, hx⟩ := Option.isSome_iff_exists.1 (hhandled.2 (by rw [hgrammar]; decide))
  exact ⟨sec, hmem, x, hx, (hyields x hx).trans (congrArg Except.ok hreferences)⟩

end History

end ModelServer
