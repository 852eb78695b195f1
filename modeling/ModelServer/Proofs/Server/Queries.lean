import ModelServer.Server.Routing
import ModelServer.Proofs.Workspace.Learning

/-!
# What questions about the workspace mean

`Query` lists what can be asked of a server without running anything, and `Query.ask` asks it. What the
answer should be is `Query.meaning`, which looks at the open sections only, parses each of them afresh
and remembers nothing. `Query.answers_ask` says that the answer is always that one.

Sections are cut from documents, and a document has a version, which comes with its text, and a revision,
which tells when it was set. Nothing that is made of a section looks at either (`Section.Redates.unseen`).
So meanings do not see the revision of a document (`Query.meaning_map_unrevised`): two workspaces with the
same texts, opened at different times, give the same answers up to the revisions inside the sections that
are handed out.
-/

namespace ModelServer

/-! ### Sections of another setting -/

namespace Section

/-- The section as it would be cut from a document that was set before any other. -/
def unrevised (s : Section) : Section :=
  { s with document := { s.document with revision := 0 } }

/-- The section as it would be cut from its document if that had been set under that version, at that
time. -/
def redated (s : Section) (version : Int) (revision : Nat) : Section :=
  { s with document := { s.document with version, revision } }

/-- The section of the text alone, whenever it was set and under whatever version. -/
def plain (s : Section) : Section :=
  s.redated 0 0

/-- All that is done to a section is that its document is set under another version, or at another
time. -/
def Redates (f : Section → Section) : Prop :=
  ∀ s, ∃ version revision, f s = s.redated version revision

theorem redates_unrevised : Redates unrevised :=
  fun s ↦ ⟨s.document.version, 0, rfl⟩

theorem redates_plain : Redates plain :=
  fun _ ↦ ⟨0, 0, rfl⟩

/-- What looks neither at the version nor at the revision does not see a redating. -/
theorem Redates.unseen {α : Type} {f : Section → Section} (hf : Redates f) {g : Section → α}
    (hg : ∀ s version revision, g (s.redated version revision) = g s) (s : Section) :
    g (f s) = g s := by
  obtain ⟨version, revision, h⟩ := hf s
  rw [h, hg]

theorem Redates.parse {f : Section → Section} (hf : Redates f) (s : Section) :
    (f s).parse = s.parse :=
  hf.unseen (fun _ _ _ ↦ rfl) s

end Section

section Redated

open Section

variable {f : Section → Section} (hf : Redates f)

include hf

theorem DocumentProvider.compilation_map (elements : List Element)
    (forms : List (String × CompiledService)) (ss : List Section) :
    compilation elements forms (ss.map f) = compilation elements forms ss := by
  induction ss generalizing elements forms with
  | nil => rfl
  | cons s rest ih =>
    have hforms : (f s).forms = s.forms := hf.unseen (fun _ _ _ ↦ rfl) s
    simp only [List.map_cons, compilation, hf.parse, hforms, ih]

theorem Compiled.ofSections_map (ss : List Section) : ofSections (ss.map f) = ofSections ss :=
  DocumentProvider.compilation_map hf [] [] ss

theorem DocumentProvider.recordsOf_map (ss : List Section) :
    recordsOf (ss.map f) = recordsOf ss := by
  have hrecords : Section.records ∘ f = Section.records :=
    funext fun s ↦ hf.unseen (fun _ _ _ ↦ rfl) s
  rw [recordsOf, recordsOf, List.mapM_map, hrecords]

end Redated

/-! ### The meaning of commands and references -/

/-- The references that come from a source in a project that compiled to `r`. -/
def ReferenceSource.expanded (r : Compiled) : ReferenceSource → List (Option Reference)
  | .items rs => rs
  | .compiled path =>
    match r.model?.bind (·.form? path) with
    | some c => Reference.ofCompiled c
    | none => []

namespace Server

variable {H : Type} (v : Server H)

/-- The commands that one section offers. -/
def commandsOf (sec : Section) : List Command :=
  match v.extensionFor sec with
  | some x => x.commandsOf v.surroundings sec.parse.toList
  | none => []

/-- Where a reference at the position of one section leads to. -/
def definitionOf (r : Compiled) (p : Position) (sec : Section) : Option Location :=
  match v.extensionFor sec with
  | some x =>
    ((sec.parse.toList.flatMap (x.references v.surroundings)).findSome? fun source ↦
      Reference.find? sec.document.id p (source.expanded r)).bind fun found ↦
        r.model?.bind found.resolve
  | none => none

section Redated

variable {f : Section → Section} (hf : Section.Redates f)

include hf

theorem extensionFor_map (sec : Section) : v.extensionFor (f sec) = v.extensionFor sec :=
  hf.unseen (fun _ _ _ ↦ rfl) sec

omit v in
theorem completions_map (x : Extension H) (sec : Section) (p : Position) :
    x.completions (f sec) p = x.completions sec p := by
  have hline : (f sec).lineUpTo p = sec.lineUpTo p :=
    hf.unseen (g := fun s ↦ s.lineUpTo p) (fun _ _ _ ↦ rfl) sec
  rw [Extension.completions, Extension.completions, hline]

theorem commandsOf_map (sec : Section) : v.commandsOf (f sec) = v.commandsOf sec := by
  rw [commandsOf, commandsOf, v.extensionFor_map hf, hf.parse]

theorem completionsIn_map (p : Position) (asked : List String) (found : List Completion)
    (ss : List Section) :
    v.completionsIn p asked found (ss.map f) = v.completionsIn p asked found ss := by
  induction ss generalizing asked found with
  | nil => rfl
  | cons s rest ih =>
    simp only [List.map_cons, completionsIn, v.extensionFor_map hf, completions_map hf, ih]

end Redated

end Server

/-! ### Questions and answers -/

/-- What can be asked of a server. -/
inductive Query where
  /-- The sections of a document, or of all documents. -/
  | sections (document : Option String)
  /-- What the section of that number parses to. -/
  | parse (document : String) (index : Int)
  | compile
  | findSection (document path : String)
  | commands (document : String)
  | definition (document : String) (p : Position)
  | completions (document : String) (p : Position)
  /-- The whole project, written out. -/
  | serialize (origin : Option Json)

/-- What is answered. -/
inductive Answer where
  | sections (ss : List Section)
  | parsed (p : Option Parsed)
  | compiled (r : Compiled)
  | found (s : Option Section)
  | commands (cs : List Command)
  | definition (l : Option Location)
  | completions (cs : List Completion)
  | written (v : Json)

namespace Answer

/-- The sections that an answer hands out. -/
def handed : Answer → List Section
  | sections ss => ss
  | found s => s.toList
  | _ => []

/-- The answer without the revisions in what it hands out. -/
def unrevised : Answer → Answer
  | sections ss => sections (ss.map Section.unrevised)
  | found s => found (s.map Section.unrevised)
  | a => a

end Answer

namespace Query

variable {H : Type} (v : Server H)

/-- Asks the server. -/
def ask : Query → Action H Answer
  | sections none => return .sections (← Action.workspace).allSections
  | sections (some document) => return .sections (← Server.sections document)
  | parse document index => do
    match ← v.collaborators.locateSection document "" (some index) with
    | some s => return .parsed (some (← v.collaborators.parse s))
    | none => return .parsed none
  | compile => return .compiled (← v.collaborators.compile)
  | findSection document path => return .found (← v.collaborators.findSection document path)
  | commands document => return .commands (← v.documentCommands document)
  | definition document p => return .definition (← v.findDefinition document p)
  | completions document p => return .completions (← v.documentCompletions document p)
  | serialize origin => return .written (← v.collaborators.serialize origin)

/-- What the answer should be, given the sections of each document and those of all. -/
def meaning (of : String → List Section) (all : List Section) : Query → Except Fault Answer
  | sections none => .ok (.sections all)
  | sections (some document) => .ok (.sections (of document))
  | parse document index =>
    .ok (.parsed (((of document).find? fun s ↦ (s.index : Int) = index).map Section.parse))
  | compile => .ok (.compiled (Compiled.ofSections all))
  | findSection document path =>
    .ok (.found ((of document).find? fun s ↦ (s.parse.element? path).isSome))
  | commands document => .ok (.commands ((of document).flatMap v.commandsOf))
  | definition document p =>
    .ok (.definition ((of document).findSome? (v.definitionOf (Compiled.ofSections all) p)))
  | completions document p => .ok (.completions (v.completionsIn p [] [] (of document)))
  | serialize origin =>
    (DocumentProvider.recordsOf all).map fun rs ↦ .written (Registration.payload rs origin)

/-- **Meanings do not see when a document was set**: only the revisions in the sections that are handed
out differ. -/
theorem meaning_map_unrevised (of : String → List Section) (all : List Section) (q : Query) :
    q.meaning v (fun document ↦ (of document).map Section.unrevised) (all.map Section.unrevised) =
      (q.meaning v of all).map Answer.unrevised := by
  cases q with
  | sections document? => cases document? <;> rfl
  | parse document index =>
    rw [meaning, meaning, List.find?_map, Option.map_map]
    rfl
  | compile =>
    rw [meaning, meaning, Compiled.ofSections_map Section.redates_unrevised]
    rfl
  | findSection document path =>
    rw [meaning, meaning, List.find?_map]
    rfl
  | commands document =>
    rw [meaning, meaning, List.flatMap_map]
    rfl
  | definition document p =>
    rw [meaning, meaning, List.findSome?_map, Compiled.ofSections_map Section.redates_unrevised]
    rfl
  | completions document p =>
    rw [meaning, meaning, v.completionsIn_map Section.redates_unrevised]
    rfl
  | serialize origin =>
    rw [meaning, meaning, DocumentProvider.recordsOf_map Section.redates_unrevised]
    cases DocumentProvider.recordsOf all <;> rfl

end Query

/-! ### The answers are what the questions mean -/

namespace Workspace.Answers

variable [Depths] {H : Type} {v : Server H} {w : Workspace}
  (hp : v.collaborators.provider = DocumentProvider.provider)

include hp

theorem commandsIn {sections : List Section} (hs : ∀ s ∈ sections, w.Held s) :
    w.Answers (v.commandsIn sections) (.ok (sections.flatMap v.commandsOf)) := by
  induction sections with
  | nil => exact pure _
  | cons s rest ih =>
    obtain ⟨hfirst, hrest⟩ := List.forall_mem_cons.1 hs
    rw [Server.commandsIn, List.flatMap_cons]
    rw [Server.commandsOf]
    cases v.extensionFor s with
    | none =>
      refine (pure []).bind ?_
      exact (ih hrest).bind_pure _
    | some x =>
      refine (bind_pure (parse hp hfirst) _).bind ?_
      exact (ih hrest).bind_pure _

theorem expand (hw : w.Sound) (source : ReferenceSource) :
    w.Answers (Extension.expand v.surroundings source)
      (.ok (source.expanded (Compiled.ofSections w.allSections))) := by
  cases source with
  | items rs => exact pure _
  | compiled path =>
    rw [Extension.expand, ReferenceSource.expanded]
    refine (compile hp hw).bind ?_
    cases Compiled.ofSections w.allSections with
    | faulty | nothing => exact pure _
    | model m =>
      simp only [Compiled.toExcept, Compiled.model?, Option.bind_some]
      cases m.form? path <;> exact pure _

theorem findIn (hw : w.Sound) (document : String) (p : Position) (sources : List ReferenceSource) :
    w.Answers (Extension.findIn v.surroundings document p sources)
      (.ok (sources.findSome? fun source ↦
        Reference.find? document p (source.expanded (Compiled.ofSections w.allSections)))) := by
  induction sources with
  | nil => exact pure _
  | cons source rest ih =>
    rw [Extension.findIn, List.findSome?_cons]
    refine (expand hp hw source).bind ?_
    cases Reference.find? document p (source.expanded (Compiled.ofSections w.allSections)) with
    | some r => exact pure _
    | none => exact ih

theorem findDefinitionIn (hw : w.Sound) (p : Position) {sections : List Section}
    (hs : ∀ s ∈ sections, w.Held s) :
    w.Answers (v.findDefinitionIn p sections)
      (.ok (sections.findSome? (v.definitionOf (Compiled.ofSections w.allSections) p))) := by
  induction sections with
  | nil => exact pure _
  | cons s rest ih =>
    obtain ⟨hfirst, hrest⟩ := List.forall_mem_cons.1 hs
    rw [Server.findDefinitionIn, List.findSome?_cons]
    cases hx : v.extensionFor s with
    | none =>
      -- A section that no extension handles refers to nothing.
      rw [Server.definitionOf, hx]
      exact ih hrest
    | some x =>
      have hhere : w.Answers (x.findDefinition v.surroundings s p)
          (.ok (v.definitionOf (Compiled.ofSections w.allSections) p s)) := by
        rw [Extension.findDefinition, Server.definitionOf, hx]
        dsimp only
        refine (bind_pure (parse hp hfirst) _).bind ((findIn hp hw _ p _).bind ?_)
        cases List.findSome? _ _ with
        | none => exact pure _
        | some r =>
          refine (compile hp hw).bind ?_
          cases Compiled.ofSections w.allSections <;> exact pure _
      refine hhere.bind ?_
      cases v.definitionOf (Compiled.ofSections w.allSections) p s with
      | some l => exact pure _
      | none => exact ih hrest

end Workspace.Answers

namespace Query

variable {H : Type} {v : Server H} {w : Workspace}

/-- **What is answered is what was asked for**, whatever is remembered. -/
theorem answers_ask [Depths] (hp : v.collaborators.provider = DocumentProvider.provider)
    (hw : w.Sound) (q : Query) : w.Answers (q.ask v) (q.meaning v w.sectionsOf w.allSections) := by
  have hheld (document : String) : ∀ s ∈ w.sectionsOf document, w.Held s :=
    fun s hs ↦ (hw.held hs).2
  have hsections (document : String) :
      w.Answers (Server.sections document : Action H _) (.ok (w.sectionsOf document)) :=
    .bind_workspace fun w' hw' ↦ hw'.sectionsOf document ▸ .pure _
  cases q with
  | sections document? =>
    cases document? with
    | none => exact .bind_workspace fun w' hw' ↦ hw'.allSections ▸ .pure _
    | some document => exact (hsections document).bind_pure _
  | parse document index =>
    rw [meaning]
    refine (Workspace.Answers.locateSection hp hw document "" (some index)).bind ?_
    rw [Workspace.located]
    cases h : (w.sectionsOf document).find? fun s ↦ (s.index : Int) = index with
    | none => exact .pure _
    | some s =>
      exact (Workspace.Answers.parse hp (hheld _ s (List.mem_of_find?_eq_some h))).bind_pure _
  | compile => exact (Workspace.Answers.compile hp hw).bind_pure _
  | findSection document path => exact (Workspace.Answers.findSection hp hw document path).bind_pure _
  | commands document =>
    exact ((hsections document).bind (.commandsIn hp (hheld document))).bind_pure _
  | definition document p =>
    exact ((hsections document).bind (.findDefinitionIn hp hw p (hheld document))).bind_pure _
  | completions document p =>
    exact ((hsections document).bind_pure _).bind_pure _
  | serialize origin =>
    -- The one question whose answer may be a fault: a section that does not parse is not written.
    rw [ask, meaning]
    have hwrite := Workspace.Answers.serialize (w := w) hp origin
    cases h : DocumentProvider.recordsOf w.allSections with
    | ok rs =>
      rw [h] at hwrite
      exact hwrite.bind_pure _
    | error f =>
      rw [h] at hwrite
      exact hwrite.bind_error

end Query

end ModelServer
