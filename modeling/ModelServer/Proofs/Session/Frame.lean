import ModelServer.Proofs.Session.Action
import ModelServer.Server.Routing
import ModelServer.Workspace.Provider

/-!
# What comes of a session

Some things that are asked of the server hold of a session and of what becomes of it: a cancelled token
stays cancelled, a request that runs goes on running, a collaborator is not called. `Action.Moves` says
of an action that it stands in such a relation, whether it ends in a value or in a fault.

A `Frame` is a relation that neither what is remembered of documents nor the token that is carried has
any part in. For every frame the same holds: where the collaborators keep to it, so does all that the
server does with them, up to a whole table query (`Server.moves_runTableQuery`). What a relation says of
tokens, requests or calls is needed only where these are touched.
-/

namespace ModelServer

variable {H α β : Type}

/-- However the action ends, `R` holds between the session and what becomes of it. -/
def Action.Moves (x : Action H α) (R : Session H → Session H → Prop) : Prop :=
  ∀ s, R s (x s).2

/-- A relation between a session and what becomes of it that can be followed through any number of
actions, and that says nothing of the workspace or of the token that is carried. -/
structure Frame (R : Session H → Session H → Prop) : Prop where
  refl : ∀ s, R s s
  trans : ∀ {s s' s''}, R s s' → R s' s'' → R s s''
  workspace : ∀ s w, R s { s with workspace := w }
  carried : ∀ s t, R s { s with requests := { s.requests with carried := t } }

variable {R : Session H → Session H → Prop}

/-! ### Actions -/

namespace Frame

variable (hR : Frame R)

include hR

/-- What leaves the session alone is in every frame. -/
theorem still {x : Action H α} (hx : ∀ s, (x s).2 = s) : x.Moves R := by
  intro s
  rw [hx s]
  exact hR.refl s

theorem pure (a : α) : (Pure.pure a : Action H α).Moves R :=
  hR.still fun _ ↦ rfl

theorem fail (f : Fault) : (Action.fail f : Action H α).Moves R :=
  hR.still fun _ ↦ rfl

theorem ofExcept (r : Except Fault α) : (Action.ofExcept r : Action H α).Moves R := by
  cases r with
  | ok a => exact hR.pure a
  | error f => exact hR.fail f

theorem check (token : TokenId) : (Action.requests (H := H) (Requests.check token)).Moves R :=
  hR.still fun _ ↦ rfl

theorem checkCarried : (Action.requests (H := H) Requests.checkCarried).Moves R := by
  refine hR.still fun s ↦ ?_
  rw [Action.requests, Requests.checkCarried]
  cases s.requests.carried <;> rfl

theorem atWorkspace : (Action.workspace : Action H Workspace).Moves R :=
  hR.still fun _ ↦ rfl

theorem modifyWorkspace (f : Workspace → Workspace) :
    (Action.modifyWorkspace f : Action H Unit).Moves R :=
  fun s ↦ hR.workspace s (f s.workspace)

theorem bind {x : Action H α} {f : α → Action H β} (hx : x.Moves R) (hf : ∀ a, (f a).Moves R) :
    (x >>= f).Moves R := by
  intro s
  have hs := hx s
  rcases hrun : x s with ⟨r, s₁⟩
  rw [hrun] at hs
  cases r with
  | ok a =>
    rw [Action.bind_of_ok hrun]
    exact hR.trans hs (hf a s₁)
  | error e =>
    rw [Action.bind_of_error hrun]
    exact hs

omit hR in
theorem outcome {x : Action H α} (hx : x.Moves R) : x.outcome.Moves R :=
  hx

theorem carrying {work : Action H α} (hwork : work.Moves R) (token : TokenId) :
    (Action.carrying token work).Moves R := by
  intro s
  rw [Action.carrying_apply]
  exact hR.trans (hR.trans (hR.carried s _) (hwork _)) (hR.carried _ _)

/-- A collaborator that is not there is a fault, and nothing more comes of that. -/
theorem require_bind {name : String} {a? : Option α} {f : α → Action H β}
    (hf : ∀ a ∈ a?, (f a).Moves R) : (Collaborators.require name a? >>= f).Moves R := by
  cases a? with
  | none => exact hR.fail _
  | some a => exact hf a rfl

end Frame

/-! ### Collaborators -/

/-- To read documents stands in the relation. -/
structure ModelProvider.Keeps (R : Session H → Session H → Prop) (p : ModelProvider H) : Prop where
  parse : ∀ sec, (p.parse sec).Moves R
  compile : ∀ {parse : Section → Action H Parsed}, (∀ sec, (parse sec).Moves R) →
    ∀ sections, (p.compile sections parse).Moves R

/-- To make plans stands in the relation. -/
def PlanGenerator.Keeps (R : Session H → Session H → Prop) (g : PlanGenerator H) : Prop :=
  ∀ spec m p ext, (g.generate spec m p ext).Moves R

/-- To run plans stands in the relation. -/
def PlanExecutor.Keeps (R : Session H → Session H → Prop) (x : PlanExecutor H) : Prop :=
  ∀ plan ps query, (x.execute plan ps query).Moves R

/-- All that it takes to make plans stands in the relation. -/
structure Collaborators.Plans (R : Session H → Session H → Prop) (c : Collaborators H) : Prop where
  provider : c.provider.Keeps R
  generator : ∀ g ∈ c.planGenerator, g.Keeps R

/-- The way in which elements are executed makes plans by means of the collaborators alone. -/
def ExecutionSupport.Keeps (R : Session H → Session H → Prop) (x : ExecutionSupport H) : Prop :=
  ∀ c : Collaborators H, c.Plans R → ∀ e func m ps, (x.plan c e func m ps).Moves R

/-- All that a server does to answer table queries stands in the relation. -/
structure Server.Keeps (R : Session H → Session H → Prop) (v : Server H) : Prop where
  plans : v.collaborators.Plans R
  executor : ∀ k ∈ v.collaborators.planExecutor, k.Keeps R
  executions : ∀ x ∈ v.extensions, ∀ y ∈ x.execution, y.Keeps R

/-- The provider that reads documents as JSON does nothing but read. -/
theorem DocumentProvider.keeps [Depths] (hR : Frame R) : (provider (H := H)).Keeps R := by
  refine ⟨fun sec ↦ hR.pure _, fun {parse} hparse sections ↦ ?_⟩
  suffices h : ∀ elements forms, (compileFrom parse elements forms sections).Moves R from h [] []
  induction sections with
  | nil => exact fun elements forms ↦ hR.pure _
  | cons s rest ih =>
    intro elements forms
    refine hR.bind (hparse s) fun parsed ↦ ?_
    cases parsed with
    | faulty f => exact hR.pure _
    | elements es =>
      dsimp only
      cases addElements elements es with
      | error f => exact hR.pure _
      | ok elements' => exact hR.bind (hR.ofExcept _) fun more ↦ ih elements' _

namespace Collaborators

variable {c : Collaborators H} (hR : Frame R)

include hR

theorem moves_parse (hc : c.provider.Keeps R) (sec : Section) : (c.parse sec).Moves R := by
  refine hR.bind hR.atWorkspace fun w ↦ ?_
  cases w.parsed? sec with
  | some p => exact hR.pure p
  | none =>
    exact hR.bind (hc.parse sec) fun p ↦ hR.bind (hR.modifyWorkspace _) fun _ ↦ hR.pure p

theorem moves_compile (hc : c.provider.Keeps R) : c.compile.Moves R := by
  refine hR.bind hR.atWorkspace fun w ↦ ?_
  cases w.compiled with
  | some r => exact hR.pure r
  | none =>
    exact hR.bind (hc.compile (moves_parse hR hc) _) fun r ↦
      hR.bind (hR.modifyWorkspace _) fun _ ↦ hR.pure r

theorem moves_findSectionIn (hc : c.provider.Keeps R) (path : String) (sections : List Section) :
    (c.findSectionIn path sections).Moves R := by
  induction sections with
  | nil => exact hR.pure none
  | cons s rest ih =>
    refine hR.bind (moves_parse hR hc s) fun parsed ↦ ?_
    cases parsed.element? path with
    | some e => exact hR.pure _
    | none => exact ih

theorem moves_locateSection (hc : c.provider.Keeps R) (document path : String)
    (index : Option Int) : (c.locateSection document path index).Moves R := by
  cases index with
  | none => exact hR.bind hR.atWorkspace fun w ↦ moves_findSectionIn hR hc path _
  | some n => exact hR.bind hR.atWorkspace fun w ↦ hR.pure _

theorem moves_plan (hc : c.Plans R) (spec : ExecutionSpec) (m : CompiledModel)
    (ext : PlatformExtensions) :
    (c.requirePlanGenerator >>= fun g ↦ spec.plan m g ext).Moves R :=
  hR.require_bind fun g hg ↦ hR.bind hR.checkCarried fun _ ↦ hc.generator g hg spec m .java ext

end Collaborators

/-! ### Table queries -/

theorem ServiceGrammar.keeps_execution (hR : Frame R) : (execution (H := H)).Keeps R := by
  intro c hc e func m ps
  show (plan c e func m ps).Moves R
  rw [plan]
  cases e.service? with
  | none => exact hR.fail _
  | some service =>
    exact hR.bind (hR.ofExcept _) fun spec ↦ Collaborators.moves_plan hR hc spec m _

theorem FunctionGrammar.keeps_execution (hR : Frame R) : (execution (H := H)).Keeps R :=
  fun _ hc _ func m _ ↦ Collaborators.moves_plan hR hc (spec func) m _

/-- The extensions that are always there make plans by means of the collaborators alone. -/
theorem Server.keeps_of_mem_defaultExtensions [Depths] (hR : Frame R) {x : Extension H}
    (hx : x ∈ defaultExtensions) {y : ExecutionSupport H} (hy : y ∈ x.execution) : y.Keeps R := by
  simp only [defaultExtensions, List.mem_cons, List.not_mem_nil, or_false] at hx
  rcases hx with rfl | rfl | rfl
  · cases hy
    exact ServiceGrammar.keeps_execution hR
  · cases hy
  · cases hy
    exact FunctionGrammar.keeps_execution hR

namespace Executable

variable {x : ExecutionSupport H} {c : Collaborators H} (hR : Frame R) (hx : x.Keeps R)
  (hc : c.Plans R)

include hR hx hc

theorem moves_planned (sec : Section) (path : String) (ps : InputParameters) :
    (planned x c sec path ps).Moves R := by
  refine hR.bind (Collaborators.moves_parse hR hc.provider sec) fun parsed ↦ ?_
  cases parsed.element? path with
  | none => exact hR.pure _
  | some e =>
    refine hR.bind (hR.ofExcept _) fun func? ↦ ?_
    cases func? with
    | none => exact hR.pure _
    | some func =>
      refine hR.bind (Collaborators.moves_compile hR hc.provider) fun compiled ↦ ?_
      cases compiled.toExcept with
      | error f => exact hR.pure _
      | ok m => exact hR.bind (hx c hc e func m ps) fun plan ↦ hR.pure _

theorem moves_query (hk : ∀ k ∈ c.planExecutor, k.Keeps R) (sec : Section) (path : String)
    (q : Api.TableQuery) (ps : InputParameters) (token : TokenId) :
    (query x c sec path q ps token).Moves R := by
  refine hR.bind (Frame.outcome (hR.carrying ?_ token)) fun r ↦ ?_
  · refine hR.bind (hR.check token) fun _ ↦ hR.bind (moves_planned hR hx hc sec path ps) fun p ↦ ?_
    cases p with
    | error r => exact hR.pure r
    | ok p =>
      refine hR.bind (hR.check token) fun _ ↦ hR.require_bind fun k hmem ↦ ?_
      refine hR.bind (hk k hmem _ _ _) fun output ↦ ?_
      exact hR.bind (hR.check token) fun _ ↦ hR.bind (hR.ofExcept _) fun shown ↦ hR.pure _
  · cases r with
    | ok r => exact hR.pure r
    | error f => exact hR.ofExcept _

end Executable

/-- **Where the collaborators keep to a frame, so does a table query.** -/
theorem Server.moves_runTableQuery {v : Server H} (hR : Frame R) (hv : v.Keeps R)
    (r : Api.TableRequest) (token : TokenId) : (v.runTableQuery r token).Moves R := by
  refine hR.bind (Collaborators.moves_locateSection hR hv.plans.provider _ _ _) fun sec? ↦ ?_
  cases sec? with
  | none => exact hR.pure _
  | some sec =>
    dsimp only
    cases hy : (v.extensionFor sec).bind (·.execution) with
    | none => exact hR.pure _
    | some y =>
      obtain ⟨x, hfound, hexecution⟩ := Option.bind_eq_some_iff.1 hy
      have hx : x ∈ v.extensions := List.mem_of_find?_eq_some hfound
      exact Executable.moves_query hR (hv.executions x hx y hexecution) hv.plans hv.executor
        sec _ _ _ token

end ModelServer
