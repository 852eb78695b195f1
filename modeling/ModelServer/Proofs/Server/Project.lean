import ModelServer.Proofs.Server.History
import ModelServer.Proofs.Workspace.Exactness

/-!
# The project of the open texts

A server compiles the sections of all texts that are open, in the order of the documents' ids and, in a
document, of the sections' numbers (`Texts.pairwise_allSections`). Whatever was done to the workspace
before, and whatever of it is remembered, compiling gives what these sections compile to
(`History.compile_exact`), which the theory of `Compiled.ofSections` tells.
-/

namespace ModelServer

/-- The section comes before the other: its document does, by its id, or it has the smaller number in
the same document. -/
def Section.Before (s t : Section) : Prop :=
  (s.document.id ≠ t.document.id ∧ Text.inOrder s.document.id t.document.id = true) ∨
    (s.document.id = t.document.id ∧ s.index < t.index)

/-- The sections of a document are in the order of their numbers. -/
theorem Document.pairwise_sections (d : Document) (parts : List (String × SectionBody)) :
    (d.sections parts).Pairwise Section.Before := by
  have hindices : parts.zipIdx.Pairwise fun p q ↦ p.2 < q.2 := by
    rw [← List.pairwise_map (f := Prod.snd) (R := (· < ·)), List.zipIdx_map_snd]
    exact List.pairwise_lt_range'
  rw [sections, List.pairwise_map]
  exact hindices.imp fun h ↦ .inr ⟨rfl, h⟩

namespace Texts

variable {texts : Texts}

theorem document_of_mem_cut [Depths] {id : String} {t : String × Int} {s : Section}
    (h : s ∈ cut id t) :
    s.document.id = id := by
  rw [cut] at h
  split at h
  · rw [Document.document_of_mem h]
  · cases h

theorem pairwise_cut [Depths] (id : String) (t : String × Int) :
    (cut id t).Pairwise Section.Before := by
  rw [cut]
  split
  · exact Document.pairwise_sections _ _
  · exact .nil

theorem mem_sections [Depths] {e : String × List Section} :
    e ∈ Dictionary.sort texts.sections ↔ ∃ t ∈ texts, e = (t.1, cut t.1 t.2) := by
  rw [(Dictionary.sort_perm _).mem_iff, sections, Dictionary.mapValues, List.mem_map]
  simp only [eq_comm]

/-- **The sections are those of the texts**, and no others. -/
theorem mem_allSections [Depths] {s : Section} :
    s ∈ texts.allSections ↔ ∃ t ∈ texts, s ∈ cut t.1 t.2 := by
  rw [allSections, List.mem_flatMap]
  constructor
  · rintro ⟨e, he, hs⟩
    obtain ⟨t, ht, rfl⟩ := mem_sections.1 he
    exact ⟨t, ht, hs⟩
  · rintro ⟨t, ht, hs⟩
    exact ⟨_, mem_sections.2 ⟨t, ht, rfl⟩, hs⟩

/-- **They are in the order of documents and numbers.** -/
theorem pairwise_allSections [Depths] (hn : (texts.map Prod.fst).Nodup) :
    texts.allSections.Pairwise Section.Before := by
  have hkeys : ((Dictionary.sort texts.sections).map Prod.fst).Nodup := by
    rw [((Dictionary.sort_perm _).map Prod.fst).nodup_iff, sections, Dictionary.map_fst_mapValues]
    exact hn
  rw [allSections, List.pairwise_flatMap]
  refine ⟨fun e he ↦ ?_, ?_⟩
  · obtain ⟨t, -, rfl⟩ := mem_sections.1 he
    exact pairwise_cut t.1 t.2
  · have hdistinct := List.pairwise_map.1 (List.nodup_iff_pairwise_ne.1 hkeys)
    refine ((Dictionary.pairwise_sort texts.sections).and hdistinct).imp_of_mem ?_
    rintro e e' he he' ⟨horder, hne⟩ s hs s' hs'
    obtain ⟨t, -, rfl⟩ := mem_sections.1 he
    obtain ⟨t', -, rfl⟩ := mem_sections.1 he'
    refine .inl ?_
    rw [document_of_mem_cut hs, document_of_mem_cut hs']
    exact ⟨hne, horder⟩

end Texts

namespace History

open Texts

variable {H : Type}

section

variable [Depths] {v : Server H} (hp : v.collaborators.provider = DocumentProvider.provider)
  {host : H}
  {operations : List Operation} {s : Session H}
  (hs : s.workspace = (after v host operations).session.workspace)

include hp hs

theorem sound_of_after : s.workspace.Sound :=
  hs ▸ (follows_after hp host operations).sound

theorem compile_apply :
    (v.collaborators.compile s).1 = .ok (Compiled.ofSections s.workspace.allSections) := by
  have hw : s.workspace.Sound := sound_of_after hp hs
  obtain ⟨w', -, hrun⟩ := Workspace.Answers.compile hp hw s hw.learns
  exact congrArg Prod.fst hrun

/-- What is compiled are the open texts, whatever the revisions of their documents. -/
theorem compile_eq_ofSections :
    (v.collaborators.compile s).1 = .ok (Compiled.ofSections (openAfter operations).allSections) := by
  rw [compile_apply hp hs, ← (follows_after hp host operations).allSections, ← hs,
    Compiled.ofSections_map Section.redates_unrevised]

end

/-- **Compiling is exact.** For whatever texts are open after whatever was done before, compiling never
ends in a fault. There is a model exactly if every section of every text parses and no path is declared
twice, and it holds just what is declared; otherwise what is told is the first fault in the order of
documents, sections and elements. On the way every section parses to its own elements, be they
remembered or not. -/
theorem compile_exact [Depths] (v : Server H)
    (hp : v.collaborators.provider = DocumentProvider.provider)
    (host : H) (operations : List Operation) {s : Session H}
    (hs : s.workspace = (after v host operations).session.workspace) :
    let sections := (openAfter operations).allSections
    (∃ r, (v.collaborators.compile s).1 = .ok r ∧ r.Exact sections) ∧
      sections.Pairwise Section.Before ∧
      (∀ sec, sec ∈ sections ↔ ∃ t ∈ openAfter operations, sec ∈ cut t.1 t.2) ∧
      s.workspace.allSections.map Section.unrevised = sections ∧
      ∀ sec ∈ s.workspace.allSections, (v.collaborators.parse sec s).1 = .ok sec.parse := by
  intro sections
  have hf := follows_after hp host operations
  have hw : s.workspace.Sound := hs ▸ hf.sound
  have hsections : s.workspace.allSections.map Section.unrevised = sections := by
    rw [hs]
    exact hf.allSections
  refine ⟨?_, pairwise_allSections (nodup_openAfter operations), fun sec ↦ mem_allSections,
    hsections, fun sec hsec ↦ ?_⟩
  · obtain ⟨w', -, hrun⟩ := Workspace.Answers.compile hp hw s hw.learns
    refine ⟨_, congrArg Prod.fst hrun, ?_⟩
    rw [← Compiled.ofSections_map Section.redates_unrevised, hsections]
    exact Compiled.exact_ofSections sections
  · obtain ⟨w', -, hrun⟩ :=
      Workspace.Answers.parse hp (hw.held_of_mem_allSections hsec) s hw.learns
    rw [hrun]

/-- A document with a section that declares the function `f` on the first line and on the second, and
behind it one that does not parse. -/
def twiceText : String :=
  "\x7b\"sections\":[\x7b\"grammar\":\"Function\",\"elements\":[" ++
    "\x7b\"kind\":\"function\",\"path\":\"f\",\"source\":\x7b\"start\":[0,0],\"end\":[0,3]\x7d\x7d," ++
    "\x7b\"kind\":\"function\",\"path\":\"f\",\"source\":\x7b\"start\":[1,0],\"end\":[1,3]\x7d\x7d" ++
    "]\x7d,\x7b\x7d]\x7d"

/-- It is set in the place of a text that cannot be read, when that has been compiled. -/
def twiceDeclared : List Operation :=
  [.set "a" "[]" 1, .ask .compile, .set "a" twiceText 2]

open Depths in
/-- The second declaration of `f` is why the project does not compile, whatever is wrong behind it. -/
theorem compile_twice :
    ∃ f, f.location = some ⟨"a", ⟨⟨1, 0⟩, ⟨1, 3⟩, by decide⟩⟩ ∧
      (Server.reading.collaborators.compile (after .reading () twiceDeclared).session).1 =
        .ok (.faulty f) ∧
      Compiled.Exact (openAfter twiceDeclared).allSections (.faulty f) := by
  obtain ⟨⟨r, hr, hexact⟩, -⟩ := compile_exact .reading rfl () twiceDeclared
    (s := (after .reading () twiceDeclared).session) rfl
  have hlocation : (match (Server.reading.collaborators.compile
      (after .reading () twiceDeclared).session).1 with
    | .ok (.faulty f) => f.location == some ⟨"a", ⟨⟨1, 0⟩, ⟨1, 3⟩, by decide⟩⟩
    | _ => false) = true := by decide +kernel
  rw [hr] at hlocation
  cases r with
  | faulty f => exact ⟨f, beq_iff_eq.1 hlocation, hr, hexact⟩
  | model _ | nothing => cases hlocation

end History

end ModelServer
