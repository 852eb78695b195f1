import ModelServer.Proofs.Server.History
import ModelServer.Proofs.Workspace.Parsing

/-!
# Every section is parsed

A server takes every text that is not nested too deep, and parses every section that it ever handed
out, be its document open, replaced or closed. What it parses to is told by `Section.ParsesTo`:
nothing but the section's own value counts, and every location is one of the section's own.

Sections are handed out when a text is set and with answers to questions. Either way they were cut
from the text of their document (`History.isCut_of_mem_handed`), which is all that the theory of
parsing asks of them.
-/

namespace ModelServer

namespace History

variable {H : Type} {v : Server H} {h : History H} {texts : Texts}

/-- An operation hands out sections that were cut from their texts. -/
theorem isCut_of_mem_run [Depths] (hp : v.collaborators.provider = DocumentProvider.provider)
    (hf : Follows texts h) (hcut : ∀ sec ∈ h.handed, sec.IsCut) (o : Operation) :
    ∀ sec ∈ (o.run v h).handed, sec.IsCut := by
  cases o with
  | set id text version =>
    rw [Operation.run, Collaborators.setDocument_apply hp]
    cases hparts : splitSections text with
    | error f => exact hcut
    | ok parts =>
      have hcuts := Document.cuts_sections
        (d := h.session.workspace.newDocument id text version) hparts
      exact List.forall_mem_append.2 ⟨hcut, fun sec ↦ hcuts.isCut⟩
  | remove id => exact hcut
  | parse n =>
    rw [Operation.run]
    split <;> exact hcut
  | ask q =>
    obtain ⟨w', hw', hrun⟩ := Query.answers_ask hp hf.sound q h.session hf.sound.learns
    rw [Operation.run, hrun]
    cases ha : q.meaning v h.session.workspace.sectionsOf h.session.workspace.allSections with
    | ok a =>
      refine List.forall_mem_append.2 ⟨hcut, fun sec hsec ↦ ?_⟩
      obtain ⟨id, hid⟩ := mem_sectionsOf_of_meaning hf.sound ha sec hsec
      exact hf.sound.isCut hid
    | error f => exact hcut

/-- **Every section that was ever handed out was cut from the text of its document.** -/
theorem isCut_of_mem_handed [Depths] (hp : v.collaborators.provider = DocumentProvider.provider)
    (host : H)
    (operations : List Operation) : ∀ sec ∈ (after v host operations).handed, sec.IsCut := by
  induction operations using List.reverseRecOn with
  | nil => exact List.forall_mem_nil _
  | append_singleton operations o ih =>
    have hlast : after v host (operations ++ [o]) = o.run v (after v host operations) := by
      rw [after, List.foldl_append]
      rfl
    rw [hlast]
    exact isCut_of_mem_run hp (follows_after hp host operations) ih o

/-- A section that was cut from its text parses to what it should, wherever it is held. -/
theorem exists_parsesTo [Depths] {c : Collaborators H} (hc : c.provider = DocumentProvider.provider)
    {s : Session H} (hw : s.workspace.Sound) {sec : Section} (hcut : sec.IsCut)
    (hheld : s.workspace.Held sec) : ∃ p, (c.parse sec s).1 = .ok p ∧ sec.ParsesTo p := by
  obtain ⟨w', -, hrun⟩ := Workspace.Answers.parse hc hheld s hw.learns
  exact ⟨sec.parse, congrArg Prod.fst hrun, hcut.parsesTo⟩

/-- **Parsing is total and exact.** Whatever was done before, a document is set unless its text is
nested too deep to be looked at, and then its sections are those of the text. Every section that was
handed out at any time parses without a fault: to an error and no elements, or to one element for each
item that is listed. Every location in an element, or in the compiled form of a service, is one of its
own section, made of a span that is written there. -/
theorem parse_exact [Depths] (v : Server H)
    (hp : v.collaborators.provider = DocumentProvider.provider)
    (host : H) (operations : List Operation) {s : Session H}
    (hs : s.workspace = (after v host operations).session.workspace) :
    (∀ id text version,
      (∃ ss s', v.collaborators.setDocument id text version s = (.ok ss, s') ∧
        (s.workspace.newDocument id text version).Cuts ss ∧ s'.workspace.sectionsOf id = ss ∧
        ∀ sec ∈ ss, ∃ p, (v.collaborators.parse sec s').1 = .ok p ∧ sec.ParsesTo p) ∨
      ∃ f, Json.read text = .error f ∧ f.isDepth = true ∧
        v.collaborators.setDocument id text version s = (.error (.unreadable f), s)) ∧
    (∀ sec ∈ (after v host operations).handed,
      ∃ p, (v.collaborators.parse sec s).1 = .ok p ∧ sec.ParsesTo p) ∧
    ∀ m, (v.collaborators.compile s).1 = .ok (.model m) →
      (∀ e ∈ m.elements, ∃ sec ∈ s.workspace.allSections, ∃ item, sec.Declares item e.2) ∧
      ∀ f ∈ m.forms, ∃ sec ∈ s.workspace.allSections,
        f.2 ∈ sec.forms ∧ ∀ l ∈ f.2.locations, sec.Holds l := by
  have hf := follows_after hp host operations
  have hw : s.workspace.Sound := hs ▸ hf.sound
  refine ⟨fun id text version ↦ ?_, fun sec hsec ↦ ?_, fun m hm ↦ ?_⟩
  · rw [Collaborators.setDocument_apply hp]
    cases hparts : splitSections text with
    | error f =>
      obtain ⟨f, hread, hdepth, rfl⟩ := Document.isDepth_of_splitSections hparts
      exact .inr ⟨f, hread, hdepth, rfl⟩
    | ok parts =>
      have hcuts := Document.cuts_sections (d := s.workspace.newDocument id text version) hparts
      have hsound := hw.set id version hparts
      have hof := s.workspace.sectionsOf_set (s.workspace.newDocument id text version)
        ((s.workspace.newDocument id text version).sections parts)
      refine .inl ⟨_, _, rfl, hcuts, hof, fun sec hsec ↦ ?_⟩
      exact exists_parsesTo hp hsound (hcuts.isCut hsec) (hsound.held (hof.symm ▸ hsec)).2
  · have hcut := isCut_of_mem_handed hp host operations sec hsec
    exact exists_parsesTo hp hw hcut (hs ▸ hf.held sec hsec)
  · obtain ⟨w', -, hrun⟩ := Workspace.Answers.compile hp hw s hw.learns
    rw [hrun] at hm
    refine Compiled.holds_of_model (fun sec hsec ↦ ?_) (Except.ok.inj hm)
    obtain ⟨id, hid⟩ := (Workspace.mem_allSections hw.nodup).1 hsec
    exact hw.isCut hid

/-- A document with a section that declares the function `f`, whose lambda has a span two levels
down. -/
def nestedText : String :=
  "\x7b\"sections\":[\x7b\"grammar\":\"Function\",\"elements\":[" ++
    "\x7b\"kind\":\"function\",\"path\":\"f\",\"func\":\x7b\"body\":[\x7b\"kind\":\"let\"," ++
    "\"children\":[\x7b\"kind\":\"var\",\"source\":\x7b\"start\":[0,2],\"end\":[1,0]\x7d\x7d]" ++
    "\x7d]\x7d\x7d]\x7d]\x7d"

/-- The document is set, and its section is handed out. -/
def nestedSet : List Operation :=
  [.set "a" nestedText 1]

open Depths in
/-- The span ends in a smaller column than it starts in, but on a later line, and so it is sound. -/
theorem parse_nested :
    ∃ sec ∈ (after .reading () nestedSet).handed, ∃ es,
      (Server.reading.collaborators.parse sec (after .reading () nestedSet).session).1 =
        .ok (.elements es) ∧
      sec.ParsesTo (.elements es) ∧
      es.map (·.locations) = [[⟨"a", ⟨⟨0, 2⟩, ⟨1, 0⟩, by decide⟩⟩]] := by
  obtain ⟨-, hparse, -⟩ := parse_exact .reading rfl () nestedSet
    (s := (after .reading () nestedSet).session) rfl
  have hlocations : ((after .reading () nestedSet).handed.map fun sec ↦
      ((Server.reading.collaborators.parse sec (after .reading () nestedSet).session).1.toOption.map
        fun p ↦ p.toList.map (·.locations))) =
      [some [[⟨"a", ⟨⟨0, 2⟩, ⟨1, 0⟩, by decide⟩⟩]]] := by decide +kernel
  obtain ⟨sec, hhanded, hsec⟩ := List.map_eq_singleton_iff.1 hlocations
  have hmem : sec ∈ (after .reading () nestedSet).handed := hhanded ▸ List.mem_singleton_self sec
  obtain ⟨p, hp, hparses⟩ := hparse sec hmem
  rw [hp] at hsec
  cases p with
  | elements es => exact ⟨sec, hmem, es, hp, hparses, Option.some.inj hsec⟩
  | faulty f => cases hsec

end History

end ModelServer
