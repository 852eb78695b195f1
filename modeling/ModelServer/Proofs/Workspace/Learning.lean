import ModelServer.Proofs.Session.Action
import ModelServer.Proofs.Workspace.Soundness

/-!
# Answers that do not depend on what is remembered

What the server does to answer a question changes the session: what is learnt on the way is remembered.
`Workspace.Answers w act r` says that this is *all* that changes, and that the answer is `r` whatever
was remembered before, as long as the open documents are those of `w`. It is closed under putting
actions together (`Answers.bind`), so only the two actions that look into the memory need an argument
about it: parsing (`Answers.parse`), which rests on `Sound.eq_parse_of_parsed?`, and compiling
(`Answers.compile`), which asks for one parse after the other and comes to `Compiled.ofSections`. An action
that does more than this in the end is followed until there by `Workspace.LeadsTo`.

Throughout the provider is the one that reads documents; the other collaborators are never called.
-/

namespace ModelServer

variable [Depths]

namespace Workspace

/-- The same documents are open in `w'`, and what it remembers of them is right. -/
structure Learns (w w' : Workspace) : Prop where
  documents : w'.documents = w.documents
  sections : w'.sections = w.sections
  generation : w'.generation = w.generation
  sound : w'.Sound

variable {w w' : Workspace}

theorem Sound.learns (hw : w.Sound) : w.Learns w :=
  ⟨rfl, rfl, rfl, hw⟩

namespace Learns

theorem sectionsOf (h : w.Learns w') (id : String) : w'.sectionsOf id = w.sectionsOf id := by
  rw [Workspace.sectionsOf, h.sections, ← Workspace.sectionsOf]

theorem allSections (h : w.Learns w') : w'.allSections = w.allSections := by
  rw [Workspace.allSections, h.sections, ← Workspace.allSections]

theorem isCurrent (h : w.Learns w') (s : Section) : w'.isCurrent s = w.isCurrent s := by
  rw [Workspace.isCurrent, document?, h.documents, ← document?, ← Workspace.isCurrent]

theorem held (h : w.Learns w') {s : Section} (hs : w.Held s) : w'.Held s := by
  refine ⟨h.generation ▸ hs.older, fun hcur ↦ ?_⟩
  rw [h.sectionsOf]
  exact hs.own ((h.isCurrent s).symm.trans hcur)

theorem remember (h : w.Learns w') {s : Section} (hs : w.Held s) :
    w.Learns (w'.remember s s.parse) := by
  have hsound := h.sound.remember (h.held hs)
  rw [Workspace.remember] at hsound ⊢
  split at hsound
  · next hcur =>
    rw [if_pos hcur]
    exact ⟨h.documents, h.sections, h.generation, hsound⟩
  · next hcur =>
    rw [if_neg hcur]
    exact h

theorem learnCompiled (h : w.Learns w') :
    w.Learns { w' with compiled := some (Compiled.ofSections w.allSections) } :=
  ⟨h.documents, h.sections, h.generation, h.allSections ▸ h.sound.learnCompiled⟩

end Learns

/-- The section of that number, or, if no number is given, the first that declares the element. -/
def located (w : Workspace) (document path : String) : Option Int → Option Section
  | none => (w.sectionsOf document).find? fun s ↦ (s.parse.element? path).isSome
  | some n => (w.sectionsOf document).find? fun s ↦ (s.index : Int) = n

omit [Depths] in
theorem mem_of_located {document path : String} {index : Option Int} {sec : Section}
    (h : w.located document path index = some sec) : sec ∈ w.sectionsOf document := by
  cases index <;> exact List.mem_of_find?_eq_some h

/-- Where the documents of `w` are open the action ends in `r`, and nothing else comes of it than that
more may be remembered. -/
def Answers {H α : Type} (w : Workspace) (act : Action H α) (r : Except Fault α) : Prop :=
  ∀ s : Session H, w.Learns s.workspace →
    ∃ w', w.Learns w' ∧ act s = (r, { s with workspace := w' })

namespace Answers

variable {H α β : Type}

/-! ### Putting answers together -/

theorem pure (a : α) : w.Answers (Pure.pure a : Action H α) (.ok a) :=
  fun s hs ↦ ⟨s.workspace, hs, rfl⟩

theorem ofExcept (r : Except Fault α) : w.Answers (Action.ofExcept r : Action H α) r := by
  cases r with
  | ok a => exact pure a
  | error f => exact fun s hs ↦ ⟨s.workspace, hs, rfl⟩

theorem bind {x : Action H α} {f : α → Action H β} {a : α} {r : Except Fault β}
    (hx : w.Answers x (.ok a)) (hf : w.Answers (f a) r) : w.Answers (x >>= f) r := by
  intro s hs
  obtain ⟨w₁, hw₁, hrun⟩ := hx s hs
  obtain ⟨w₂, hw₂, hrun'⟩ := hf { s with workspace := w₁ } hw₁
  exact ⟨w₂, hw₂, by rw [Action.bind_of_ok hrun, hrun']⟩

theorem bind_error {x : Action H α} {f : α → Action H β} {e : Fault}
    (hx : w.Answers x (.error e)) : w.Answers (x >>= f) (.error e) := by
  intro s hs
  obtain ⟨w', hw', hrun⟩ := hx s hs
  exact ⟨w', hw', by rw [Action.bind_of_error hrun]⟩

theorem bind_pure {x : Action H α} {a : α} (hx : w.Answers x (.ok a)) (f : α → β) :
    w.Answers (x >>= fun a ↦ Pure.pure (f a)) (.ok (f a)) :=
  hx.bind (pure (f a))

/-- What looks at the workspace sees `w`, with more or less remembered. -/
theorem bind_workspace {f : Workspace → Action H β} {r : Except Fault β}
    (hf : ∀ w', w.Learns w' → w.Answers (f w') r) : w.Answers (Action.workspace >>= f) r :=
  fun s hs ↦ hf s.workspace hs s hs

/-- What is learnt may be remembered. -/
theorem bind_modifyWorkspace {g : Workspace → Workspace} {f : Unit → Action H β}
    {r : Except Fault β} (hg : ∀ w', w.Learns w' → w.Learns (g w')) (hf : w.Answers (f ()) r) :
    w.Answers (Action.modifyWorkspace g >>= f) r :=
  fun s hs ↦ hf { s with workspace := g s.workspace } (hg _ hs)

/-! ### What is remembered -/

variable {c : Collaborators H}

/-- **A section that was handed out parses to its own elements**, be it current or not. -/
theorem parse (hc : c.provider = DocumentProvider.provider) {s : Section} (hs : w.Held s) :
    w.Answers (c.parse s) (.ok s.parse) := by
  rw [Collaborators.parse]
  refine bind_workspace fun w' hw' ↦ ?_
  cases h : w'.parsed? s with
  | some p =>
    rw [hw'.sound.eq_parse_of_parsed? (hw'.held hs) h]
    exact pure _
  | none =>
    rw [hc]
    exact bind (pure s.parse)
      (bind_modifyWorkspace (fun w'' hw'' ↦ hw''.remember hs) (pure _))

/-- Compiling goes through the sections as `DocumentProvider.compilation` does. -/
theorem compileFrom (hc : c.provider = DocumentProvider.provider) {sections : List Section}
    (hs : ∀ s ∈ sections, w.Held s) (elements : List Element)
    (forms : List (String × CompiledService)) :
    w.Answers (DocumentProvider.compileFrom c.parse elements forms sections)
      (.ok (DocumentProvider.compilation elements forms sections)) := by
  induction sections generalizing elements forms with
  | nil => exact pure _
  | cons s rest ih =>
    obtain ⟨hfirst, hrest⟩ := List.forall_mem_cons.1 hs
    rw [DocumentProvider.compileFrom, DocumentProvider.compilation]
    refine (parse hc hfirst).bind ?_
    cases hes : s.parse with
    | faulty f => exact pure _
    | elements es =>
      dsimp only
      cases hadd : DocumentProvider.addElements elements es with
      | error f => exact pure _
      | ok elements' =>
        rw [Section.compiledForms_of_parse hes]
        exact (ofExcept (.ok _)).bind (ih hrest elements' _)

/-- **The project compiles to what its sections compile to.** -/
theorem compile (hc : c.provider = DocumentProvider.provider) (hw : w.Sound) :
    w.Answers c.compile (.ok (Compiled.ofSections w.allSections)) := by
  rw [Collaborators.compile]
  refine bind_workspace fun w' hw' ↦ ?_
  cases h : w'.compiled with
  | some r =>
    rw [hw'.sound.compiled h, hw'.allSections]
    exact pure _
  | none =>
    rw [hc, hw'.allSections]
    refine bind (compileFrom hc (fun s hs ↦ hw.held_of_mem_allSections hs) [] []) ?_
    refine bind_modifyWorkspace (fun w'' hw'' ↦ ?_) (pure _)
    rw [if_pos (hw''.generation.trans hw'.generation.symm)]
    exact hw''.learnCompiled

/-! ### What rests on parsing and compiling -/

theorem findSectionIn (hc : c.provider = DocumentProvider.provider) (path : String)
    {sections : List Section} (hs : ∀ s ∈ sections, w.Held s) :
    w.Answers (c.findSectionIn path sections)
      (.ok (sections.find? fun s ↦ (s.parse.element? path).isSome)) := by
  induction sections with
  | nil => exact pure _
  | cons s rest ih =>
    obtain ⟨hfirst, hrest⟩ := List.forall_mem_cons.1 hs
    rw [Collaborators.findSectionIn, List.find?_cons]
    refine (parse hc hfirst).bind ?_
    cases s.parse.element? path with
    | some e => exact pure _
    | none => exact ih hrest

theorem findSection (hc : c.provider = DocumentProvider.provider) (hw : w.Sound)
    (document path : String) :
    w.Answers (c.findSection document path)
      (.ok ((w.sectionsOf document).find? fun s ↦ (s.parse.element? path).isSome)) := by
  rw [Collaborators.findSection]
  refine bind_workspace fun w' hw' ↦ ?_
  rw [hw'.sectionsOf]
  exact findSectionIn hc path fun s hs ↦ (hw.held hs).2

theorem locateSection (hc : c.provider = DocumentProvider.provider) (hw : w.Sound)
    (document path : String) (index : Option Int) :
    w.Answers (c.locateSection document path index) (.ok (w.located document path index)) := by
  cases index with
  | none => exact findSection hc hw document path
  | some n => exact bind_workspace fun w' hw' ↦ hw'.sectionsOf document ▸ pure _

theorem serialize (hc : c.provider = DocumentProvider.provider) (origin : Option Json) :
    w.Answers (c.serialize origin)
      ((DocumentProvider.recordsOf w.allSections).map fun rs ↦ Registration.payload rs origin) := by
  rw [Collaborators.serialize, hc]
  refine bind_workspace fun w' hw' ↦ ?_
  rw [hw'.allSections]
  exact ofExcept _

end Answers

/-- Where the documents of `w` are open the action comes to the other, and on the way there nothing happens
but that more may be remembered. -/
def LeadsTo {H α : Type} (w : Workspace) (act rest : Action H α) : Prop :=
  ∀ s : Session H, w.Learns s.workspace →
    ∃ w', w.Learns w' ∧ act s = rest { s with workspace := w' }

namespace LeadsTo

variable {H α β : Type}

theorem refl (act : Action H α) : w.LeadsTo act act :=
  fun s hs ↦ ⟨s.workspace, hs, rfl⟩

/-- **What is answered on the way is known behind it.** -/
theorem bind {x : Action H α} {f : α → Action H β} {rest : Action H β} {a : α}
    (hx : w.Answers x (.ok a)) (hf : w.LeadsTo (f a) rest) : w.LeadsTo (x >>= f) rest := by
  intro s hs
  obtain ⟨w₁, hw₁, hrun⟩ := hx s hs
  obtain ⟨w₂, hw₂, hrun'⟩ := hf { s with workspace := w₁ } hw₁
  exact ⟨w₂, hw₂, by rw [Action.bind_of_ok hrun, hrun']⟩

theorem trans {act rest rest' : Action H α} (h : w.LeadsTo act rest) (h' : w.LeadsTo rest rest') :
    w.LeadsTo act rest' := by
  intro s hs
  obtain ⟨w₁, hw₁, hrun⟩ := h s hs
  obtain ⟨w₂, hw₂, hrun'⟩ := h' { s with workspace := w₁ } hw₁
  exact ⟨w₂, hw₂, hrun.trans hrun'⟩

theorem answers {act rest : Action H α} {r : Except Fault α} (h : w.LeadsTo act rest)
    (hrest : w.Answers rest r) : w.Answers act r := by
  intro s hs
  obtain ⟨w₁, hw₁, hrun⟩ := h s hs
  obtain ⟨w₂, hw₂, hrun'⟩ := hrest { s with workspace := w₁ } hw₁
  exact ⟨w₂, hw₂, hrun.trans hrun'⟩

end LeadsTo

end Workspace

/-- A document is set if its text can be split, and otherwise nothing happens. -/
theorem Collaborators.setDocument_apply {H : Type} {c : Collaborators H}
    (hc : c.provider = DocumentProvider.provider) (id text : String) (version : Int)
    (s : Session H) :
    c.setDocument id text version s =
      match splitSections text with
      | .ok parts =>
        let d := s.workspace.newDocument id text version
        (.ok (d.sections parts), { s with workspace := s.workspace.set d (d.sections parts) })
      | .error f => (.error f, s) := by
  rw [setDocument, Action.bind_workspace_apply, hc]
  have hsplit : (DocumentProvider.provider (H := H)).split (s.workspace.newDocument id text version) =
      splitSections text := rfl
  dsimp only
  rw [hsplit]
  cases splitSections text <;> rfl

end ModelServer
