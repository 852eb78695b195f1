import ModelServer.Proofs.Grammar.SideBySide
import ModelServer.Proofs.Server.History

/-!
# One request in two workspaces

Two workspaces have the same texts (`Workspace.SameTexts`), set at different times, under different
versions, and with different things remembered of them. `Twins` are sessions that stand in the two, with
one host. A request comes to the same in both (`Server.agrees_runCommand`).

What the server does itself it does alike, since its answers depend on the texts alone
(`Workspace.Answers.agrees`). Collaborators have only their host to go by: none of them is handed the
session, and no request is carried, so none of them is stopped (`Action.OnHost`).
-/

namespace ModelServer

variable {H α β γ : Type}

/-! ### Collaborators and their host -/

/-- The action works on the host alone: as long as no token is carried, what it ends in and what becomes
of the host are told by the host, and nothing else of the session changes. -/
def Action.OnHost (x : Action H α) : Prop :=
  ∃ f : H → Except Fault α × H, ∀ s : Session H, s.requests.carried = none →
    x s = ((f s.host).1, { s with host := (f s.host).2 })

/-- None of the collaborators works on anything but the host. -/
structure Collaborators.OnHost (c : Collaborators H) : Prop where
  generate : ∀ g ∈ c.planGenerator, ∀ spec m p ext, (g.generate spec m p ext).OnHost
  execute : ∀ k ∈ c.planExecutor, ∀ plan ps, (k.execute plan ps none).OnHost
  runTestSuites : ∀ k ∈ c.testRunner, ∀ e suites m ext, (k.runTestSuites e suites m ext).OnHost
  runLegacyTests : ∀ k ∈ c.testRunner, ∀ e test m ext, (k.runLegacyTests e test m ext).OnHost
  post : ∀ k ∈ c.executionServer, ∀ path payload, (k.post path payload).OnHost

/-! ### Workspaces with the same texts -/

namespace Workspace

/-- The documents of both workspaces have the same sections, but for when and under which version they
were set. -/
structure SameTexts [Depths] (w w' : Workspace) : Prop where
  sound : w.Sound
  sound' : w'.Sound
  sections : ∀ id, (w.sectionsOf id).map Section.plain = (w'.sectionsOf id).map Section.plain
  all : w.allSections.map Section.plain = w'.allSections.map Section.plain

namespace SameTexts

variable [Depths] {w w' : Workspace} (h : w.SameTexts w')

include h

theorem ofSections_eq : Compiled.ofSections w.allSections = Compiled.ofSections w'.allSections := by
  rw [← Compiled.ofSections_map Section.redates_plain, h.all,
    Compiled.ofSections_map Section.redates_plain]

theorem recordsOf_eq :
    DocumentProvider.recordsOf w.allSections = DocumentProvider.recordsOf w'.allSections := by
  rw [← DocumentProvider.recordsOf_map Section.redates_plain, h.all,
    DocumentProvider.recordsOf_map Section.redates_plain]

/-- The same section is found in both, or in neither. -/
theorem map_plain_located (document path : String) (index : Option Int) :
    (w.located document path index).map Section.plain =
      (w'.located document path index).map Section.plain := by
  have hplain (w : Workspace) (p : Section → Bool) (hp : p ∘ Section.plain = p) :
      ((w.sectionsOf document).find? p).map Section.plain =
        ((w.sectionsOf document).map Section.plain).find? p := by
    rw [List.find?_map, hp]
  cases index with
  | none => rw [located, located, hplain w _ rfl, hplain w' _ rfl, h.sections]
  | some n => rw [located, located, hplain w _ rfl, hplain w' _ rfl, h.sections]

end SameTexts

/-- The documents of `w` are open in the one session and those of `w'` in the other, the host is the same,
and no token is carried in either. -/
structure Twins [Depths] (w w' : Workspace) (s t : Session H) : Prop where
  left : w.Learns s.workspace
  right : w'.Learns t.workspace
  host : s.host = t.host
  free : s.requests.carried = none
  free' : t.requests.carried = none

variable {w w' : Workspace} {Q : Session H → Session H → Prop}

/-- What is answered in each of the workspaces leaves twins. -/
theorem Answers.agrees [Depths] {x y : Action H α} {r : Except Fault α} (hx : w.Answers x r)
    (hy : w'.Answers y r) : Action.Agrees (Twins w w') x y (Twins w w') := by
  intro s t hst
  obtain ⟨w₁, hw₁, hrun⟩ := hx s hst.left
  obtain ⟨w₂, hw₂, hrun'⟩ := hy t hst.right
  rw [hrun, hrun']
  exact ⟨rfl, hw₁, hw₂, hst.host, hst.free, hst.free'⟩

/-- What is answered first may differ, if what is done with it agrees. -/
theorem Answers.agrees_bind [Depths] {x : Action H α} {y : Action H β} {a : α} {b : β}
    (hx : w.Answers x (.ok a)) (hy : w'.Answers y (.ok b)) {f : α → Action H γ} {g : β → Action H γ}
    (hfg : Action.Agrees (Twins w w') (f a) (g b) Q) :
    Action.Agrees (Twins w w') (x >>= f) (y >>= g) Q := by
  intro s t hst
  obtain ⟨w₁, hw₁, hrun⟩ := hx s hst.left
  obtain ⟨w₂, hw₂, hrun'⟩ := hy t hst.right
  rw [Action.bind_of_ok hrun, Action.bind_of_ok hrun']
  exact hfg ⟨hw₁, hw₂, hst.host, hst.free, hst.free'⟩

end Workspace

open Workspace

variable {w w' : Workspace}

/-- **Who works on the host alone does the same for twins.** -/
theorem Action.OnHost.agrees [Depths] {x : Action H α} (h : x.OnHost) :
    Action.Agrees (Twins w w') x x (Twins w w') := by
  obtain ⟨f, hf⟩ := h
  intro s t hst
  rw [hf s hst.free, hf t hst.free', hst.host]
  exact ⟨rfl, hst.left, hst.right, rfl, hst.free, hst.free'⟩

theorem Action.agrees_checkCarried_free [Depths] :
    Action.Agrees (Twins w w') (Action.requests Requests.checkCarried : Action H Unit)
      (Action.requests Requests.checkCarried) (Twins w w') := by
  have hfree {s : Session H} (hs : s.requests.carried = none) :
      Action.requests Requests.checkCarried s = (.ok (), s) := by
    rw [Action.requests, Requests.checkCarried, hs]
  intro s t hst
  rw [hfree hst.free, hfree hst.free']
  exact ⟨rfl, hst⟩

/-- For twins sections of the same text are alike in all that a command can come to. -/
theorem Collaborators.OnHost.alike [Depths] {c : Collaborators H} (hc : c.OnHost)
    (hp : c.provider = DocumentProvider.provider) (hw : w.SameTexts w') {sec sec' : Section}
    (hsec : w.Held sec) (hsec' : w'.Held sec') (hparse : sec.parse = sec'.parse) :
    c.Alike (Twins w w') sec sec' where
  parse := (Answers.parse hp hsec).agrees (hparse ▸ Answers.parse hp hsec')
  compile := (Answers.compile hp hw.sound).agrees (hw.ofSections_eq ▸ Answers.compile hp hw.sound')
  serialize origin := (Answers.serialize hp origin).agrees
    (hw.recordsOf_eq ▸ Answers.serialize hp origin)
  check := Action.agrees_checkCarried_free
  generate g hg spec m p ext := (hc.generate g hg spec m p ext).agrees
  execute k hk plan ps := (hc.execute k hk plan ps).agrees
  runTestSuites k hk e suites m ext := (hc.runTestSuites k hk e suites m ext).agrees
  runLegacyTests k hk e test m ext := (hc.runLegacyTests k hk e test m ext).agrees
  post k hk path payload := (hc.post k hk path payload).agrees

/-- **A request comes to the same in both workspaces.** -/
theorem Server.agrees_runCommand [Depths] {v : Server H}
    (hp : v.collaborators.provider = DocumentProvider.provider)
    (hknown : ∀ x ∈ v.extensions, x ∈ defaultExtensions) (hc : v.collaborators.OnHost)
    (hw : w.SameTexts w') (r : Api.ExecuteRequest) :
    Action.Agrees (Twins w w') (v.runCommand r) (v.runCommand r) (Twins w w') := by
  rw [runCommand]
  refine Answers.agrees_bind (Answers.locateSection hp hw.sound _ _ _)
    (Answers.locateSection hp hw.sound' _ _ _) ?_
  have hlocated := hw.map_plain_located r.uri r.entityPath r.sectionIndex
  cases hsec : w.located r.uri r.entityPath r.sectionIndex with
  | none =>
    rw [hsec, eq_comm, Option.map_none, Option.map_eq_none_iff] at hlocated
    rw [hlocated]
    exact .pure le_rfl _
  | some sec =>
    rw [hsec, eq_comm, Option.map_some, Option.map_eq_some_iff] at hlocated
    obtain ⟨sec', hsec', hplain⟩ := hlocated
    rw [hsec']
    have hparse : sec.parse = sec'.parse := by
      rw [← Section.redates_plain.parse, ← hplain, Section.redates_plain.parse]
    have hgrammar : sec'.grammar = sec.grammar := by
      show sec'.plain.grammar = sec.plain.grammar
      rw [hplain]
    have hsame : v.extensionFor sec' = v.extensionFor sec := by
      rw [extensionFor, extensionFor, hgrammar]
    dsimp only
    rw [hsame, hgrammar]
    cases hx : v.extensionFor sec with
    | none => exact .pure le_rfl _
    | some x =>
      have hheld := (hw.sound.held (mem_of_located hsec)).2
      have hheld' := (hw.sound'.held (mem_of_located hsec')).2
      exact Extension.agrees_execute (hc.alike hp hw hheld hheld' hparse) _ _ _ _ _
        (hknown x (List.mem_of_find?_eq_some hx))

/-! ### Histories that leave the same texts open -/

namespace History

open Texts

variable {v : Server H}

/-- **Histories that leave the same texts open lead to workspaces with the same texts.** -/
theorem sameTexts_after [Depths] (hp : v.collaborators.provider = DocumentProvider.provider)
    (host host' : H) {operations operations' : List Operation}
    (h : ∀ id, (openAfter operations).text? id = (openAfter operations').text? id) :
    (after v host operations).session.workspace.SameTexts
      (after v host' operations').session.workspace := by
  have hf := follows_after hp host operations
  have hf' := follows_after hp host' operations'
  have hplain (ss : List Section) : (ss.map Section.unrevised).map Section.plain =
      ss.map Section.plain := List.map_map
  refine ⟨hf.sound, hf'.sound, fun id ↦ ?_, ?_⟩
  · have hsections := map_plain_sectionsOf (h id)
    rwa [← hf.sectionsOf, ← hf'.sectionsOf, hplain, hplain] at hsections
  · have hall := map_plain_allSections (nodup_openAfter operations) (nodup_openAfter operations') h
    rwa [← hf.allSections, ← hf'.allSections, hplain, hplain] at hall

end History

end ModelServer
