import ModelServer.Proofs.Except
import ModelServer.Proofs.Fault
import ModelServer.Proofs.Session.Action
import ModelServer.Server.Routing
import ModelServer.Workspace.Provider

/-!
# Which work fails in words

Whatever the server itself finds wrong has a text, so a command may end in a mute fault only if a
collaborator raises one. Collaborators that raise none are `Articulate`: that is what a language asks of
an exception, and what is told to clients is told on the strength of it. `fails_dispatch` and
`Executable.fails_queryStages` say that with such collaborators no command and no table query ends in a
fault without a text.

The one that reads documents is articulate by itself (`DocumentProvider.articulate`).
-/

namespace ModelServer

variable {H : Type}

/-! ### Collaborators -/

/-- Whatever the reader of documents raises has a text, if parsing raises nothing else either. -/
structure ModelProvider.Articulate (p : ModelProvider H) : Prop where
  parse : ∀ s, (p.parse s).Fails Fault.HasText
  compile : ∀ sections parse, (∀ s, Action.Fails (parse s) Fault.HasText) →
    (p.compile sections parse).Fails Fault.HasText
  serialize : ∀ sections origin, (p.serialize sections origin).Fails Fault.HasText

/-- Whatever the generator raises has a text. -/
def PlanGenerator.Articulate (g : PlanGenerator H) : Prop :=
  ∀ spec m p ext, (g.generate spec m p ext).Fails Fault.HasText

/-- Whatever the executor raises has a text, and so has what comes of showing its outputs. -/
structure PlanExecutor.Articulate (k : PlanExecutor H) : Prop where
  execute : ∀ plan ps q, (k.execute plan ps q).Fails Fault.HasText
  render : ∀ plan ps q, (k.execute plan ps q).Returns fun output ↦
    ∀ f, output.render = .error f → f.HasText

/-- Whatever the runner raises has a text. -/
structure TestRunner.Articulate (t : TestRunner H) : Prop where
  runLegacyTests : ∀ e test m ext, (t.runLegacyTests e test m ext).Fails Fault.HasText
  runTestSuites : ∀ e suites m ext, (t.runTestSuites e suites m ext).Fails Fault.HasText

/-- Whatever the execution server raises has a text. -/
def ExecutionServer.Articulate (x : ExecutionServer H) : Prop :=
  ∀ path payload, (x.post path payload).Fails Fault.HasText

/-- Whatever a collaborator raises that has a part in executing elements has a text. -/
structure Collaborators.Worded (c : Collaborators H) : Prop where
  provider : c.provider.Articulate
  generator : ∀ g ∈ c.planGenerator, g.Articulate
  executor : ∀ k ∈ c.planExecutor, k.Articulate

/-- Whatever a collaborator raises has a text. -/
structure Collaborators.Articulate (c : Collaborators H) : Prop extends c.Worded where
  runner : ∀ t ∈ c.testRunner, t.Articulate
  server : ∀ x ∈ c.executionServer, x.Articulate

/-! ### What the server itself finds wrong -/

section Own

variable {f : Fault}

theorem Section.hasText_of_content {s : Section} (h : s.content = .error f) : f.HasText := by
  rw [content] at h
  split at h
  · cases h
    rfl
  · split at h
    · cases h
    · cases h
      rfl

theorem DocumentProvider.hasText_of_recordsOf {sections : List Section}
    (h : recordsOf sections = .error f) : f.HasText := by
  rw [recordsOf] at h
  obtain ⟨s, -, hs⟩ := exists_of_mapM_eq_error (map_eq_error_iff.1 h)
  exact s.hasText_of_content (map_eq_error_iff.1 hs)

theorem Execution.hasText_of_resolve {execution : Option (Execution Location)}
    {func : Option (Lambda Location)} {ps : InputParameters}
    (h : resolve execution func ps = .error f) : f.HasText := by
  rw [resolve.eq_def] at h
  split at h
  · cases h
  · have hselect := map_eq_error_iff.1 h
    rw [selectVariant] at hselect
    split at hselect
    · cases hselect
    · cases hselect
      rfl
  · cases h
    rfl

theorem Registration.hasText_of_formatResponse [Depths] {text : String}
    (h : formatResponse text = .error f) : f.HasText := by
  rw [formatResponse] at h
  split at h
  · rw [setOut] at h
    split at h
    · cases h
      rfl
    · cases h
  · split at h
    · cases h
      rfl
    · cases h

/-- What is no text among the ids of a result is told by its type. -/
theorem Result.hasText_of_checkIds {vs : List Value} (h : checkIds vs = .error f) : f.HasText := by
  induction vs with
  | nil => cases h
  | cons v rest ih =>
    cases v with
    | text s => exact ih (map_eq_error_iff.1 h)
    | null | bool | int | float | list | record | foreign =>
      cases h
      rfl

theorem Result.hasText_of_ofIds {ids : List Value} {outcome : Outcome} {message : String}
    {logMessage : Option String} {location : Option Location}
    (h : ofIds ids outcome message logMessage location = .error f) : f.HasText := by
  rw [ofIds] at h
  cases hids : checkIds ids with
  | error g =>
    rw [hids] at h
    cases h
    exact hasText_of_checkIds hids
  | ok texts =>
    rw [hids] at h
    dsimp only [bind, Except.bind] at h
    split at h
    · cases h
      rfl
    · cases h

theorem LegacyRun.hasText_of_results {path : Value} {runs : List LegacyRun}
    {location : Option Location} (h : results path runs location = .error f) : f.HasText := by
  obtain ⟨a, -, ha⟩ := exists_of_mapM_eq_error h
  exact Result.hasText_of_ofIds ha

/-- What is no text among the ids of a test is told by its place and type. -/
theorem TestOutcome.hasText_of_joinIds {index : Nat} {vs : List Value}
    (h : joinIds index vs = .error f) : f.HasText := by
  induction vs generalizing index with
  | nil => cases h
  | cons v rest ih =>
    cases v with
    | text s => exact ih (map_eq_error_iff.1 h)
    | null | bool | int | float | list | record | foreign =>
      cases h
      rfl

theorem TestOutcome.hasText_of_results {path : Value} {suites : List (TestSuite Location)}
    {outcomes : List TestOutcome} {fallback : Option Location}
    (h : results path suites outcomes fallback = .error f) : f.HasText := by
  obtain ⟨o, -, ho⟩ := exists_of_mapM_eq_error h
  rw [result] at ho
  dsimp only at ho
  cases hids : joinIds 0 ([path, o.suite, o.test] ++ o.assertion.toList) with
  | error g =>
    rw [hids] at ho
    cases ho
    exact hasText_of_joinIds hids
  | ok joined =>
    rw [hids] at ho
    exact Result.hasText_of_ofIds ho

end Own

/-! ### Work of articulate collaborators -/

open ModelServer.Action

theorem Collaborators.fails_require {α : Type} (name : String) (a? : Option α) :
    (require name a? : Action H α).Fails Fault.HasText := by
  cases a? with
  | none => exact .fail rfl
  | some a => exact .pure a

/-- A collaborator that is there is one of those that are configured. -/
theorem Collaborators.returns_require {α : Type} (name : String) (a? : Option α) :
    (require name a? : Action H α).Returns (· ∈ a?) := by
  cases a? with
  | none => exact .fail _
  | some a => exact .pure rfl

theorem Action.fails_check (token : TokenId) :
    (Action.requests (Requests.check token) : Action H Unit).Fails Fault.HasText := by
  intro s f hf
  have hcheck : (s.requests.token token).check = .error f := hf
  rw [Token.check] at hcheck
  split at hcheck
  · cases hcheck
    rfl
  · cases hcheck

theorem Action.fails_checkCarried :
    (Action.requests Requests.checkCarried : Action H Unit).Fails Fault.HasText := by
  intro s f hf
  have hcheck : (Requests.checkCarried s.requests).1 = .error f := hf
  rw [Requests.checkCarried] at hcheck
  cases hcarried : s.requests.carried with
  | none =>
    rw [hcarried] at hcheck
    cases hcheck
  | some token =>
    rw [hcarried] at hcheck
    exact fails_check token (s := s) hcheck

theorem Action.fails_workspace {F : Fault → Prop} : (Action.workspace : Action H Workspace).Fails F :=
  Always.workspace.fails

theorem Action.fails_modifyWorkspace {F : Fault → Prop} (f : Workspace → Workspace) :
    (Action.modifyWorkspace f : Action H Unit).Fails F :=
  (Always.modifyWorkspace f).fails

/-- The sections are gone through one by one, whatever was found in those before. -/
theorem DocumentProvider.fails_compileFrom {parse : Section → Action H Parsed}
    (hparse : ∀ s, (parse s).Fails Fault.HasText) (elements : List Element)
    (forms : List (String × CompiledService)) (sections : List Section) :
    (compileFrom parse elements forms sections).Fails Fault.HasText := by
  induction sections generalizing elements forms with
  | nil => exact .pure _
  | cons s rest ih =>
    refine (hparse s).bind fun parsed ↦ ?_
    cases parsed with
    | faulty f => exact .pure _
    | elements es =>
      dsimp only
      cases addElements elements es with
      | error f => exact .pure _
      | ok elements' =>
        refine .bind (.ofExcept fun f hf ↦ ?_) fun more ↦ ih _ _
        exact s.hasText_of_content (map_eq_error_iff.1 hf)

theorem DocumentProvider.articulate [Depths] : (provider (H := H)).Articulate where
  parse _ := .pure _
  compile _ _ hparse := fails_compileFrom hparse [] [] _
  serialize _ _ := .ofExcept fun _ hf ↦ hasText_of_recordsOf (map_eq_error_iff.1 hf)

section Work

variable {c : Collaborators H} (hc : c.Worded)

include hc

namespace Collaborators

theorem fails_parse (s : Section) : (c.parse s).Fails Fault.HasText := by
  refine fails_workspace.bind fun w ↦ ?_
  cases w.parsed? s with
  | some p => exact .pure p
  | none =>
    exact (hc.provider.parse s).bind fun p ↦ (fails_modifyWorkspace _).bind fun _ ↦ .pure p

theorem fails_compile : c.compile.Fails Fault.HasText := by
  refine fails_workspace.bind fun w ↦ ?_
  cases w.compiled with
  | some r => exact .pure r
  | none =>
    refine (hc.provider.compile _ _ (fails_parse hc)).bind fun r ↦ ?_
    exact (fails_modifyWorkspace _).bind fun _ ↦ .pure r

end Collaborators

/-- To make a plan through the generator fails in words. -/
theorem ExecutionSpec.fails_plan (spec : ExecutionSpec) (m : CompiledModel) :
    (c.requirePlanGenerator >>= fun g ↦ spec.plan m g c.platformExtensions).Fails Fault.HasText :=
  (Collaborators.fails_require _ _).then (Collaborators.returns_require _ _) fun g hg ↦
    fails_checkCarried.bind fun _ ↦ hc.generator g hg _ _ _ _

end Work

/-- The way in which elements are executed fails in words where the collaborators do. -/
structure ExecutionSupport.Articulate (x : ExecutionSupport H) : Prop where
  lambda : ∀ e f, x.lambda e = .error f → f.HasText
  plan : ∀ c : Collaborators H, c.Worded → ∀ e func m ps, (x.plan c e func m ps).Fails Fault.HasText

theorem ServiceGrammar.articulate_execution : (execution (H := H)).Articulate where
  lambda _ _ h := nomatch h
  plan c hc e func m ps := by
    show (ServiceGrammar.plan c e func m ps).Fails _
    rw [ServiceGrammar.plan]
    cases e.service? with
    | none => exact .fail rfl
    | some service =>
      exact .bind (.ofExcept fun _ hf ↦ Execution.hasText_of_resolve hf) fun spec ↦
        spec.fails_plan hc m

theorem FunctionGrammar.articulate_execution : (execution (H := H)).Articulate where
  lambda _ _ h := nomatch h
  plan _ hc _ func m _ := (spec func).fails_plan hc m

namespace Executable

variable {x : ExecutionSupport H} (hx : x.Articulate) {c : Collaborators H} (hc : c.Worded)

include hx hc

theorem fails_planned (sec : Section) (path : String) (ps : InputParameters) :
    (planned x c sec path ps).Fails Fault.HasText := by
  refine (Collaborators.fails_parse hc sec).bind fun parsed ↦ ?_
  cases parsed.element? path with
  | none => exact .pure _
  | some e =>
    refine .bind (.ofExcept (hx.lambda e)) fun func? ↦ ?_
    cases func? with
    | none => exact .pure _
    | some func =>
      refine (Collaborators.fails_compile hc).bind fun compiled ↦ ?_
      cases compiled.toExcept with
      | error f => exact .pure _
      | ok m => exact (hx.plan c hc e func m ps).bind fun plan ↦ .pure _

/-- **What keeps an element from being executed has a text.** -/
theorem fails_run (i : Invocation) : (run x c i).Fails Fault.HasText := by
  refine (fails_planned hx hc _ _ _).bind fun p ↦ ?_
  cases p with
  | error r => exact .pure _
  | ok p =>
    refine (Collaborators.fails_require _ _).then (Collaborators.returns_require _ _) fun k hk ↦ ?_
    have hexecutor := hc.executor k hk
    refine (hexecutor.execute _ _ _).then (hexecutor.render _ _ _) fun output houtput ↦ ?_
    exact .bind (.ofExcept houtput) fun shown ↦ .pure _

/-- **What ends a table query early has a text.** -/
theorem fails_queryStages (sec : Section) (path : String) (q : Api.TableQuery) (ps : InputParameters)
    (token : TokenId) : (queryStages x c sec path q ps token).Fails Fault.HasText := by
  refine (fails_check token).bind fun _ ↦ (fails_planned hx hc _ _ _).bind fun p ↦ ?_
  cases p with
  | error r => exact .pure _
  | ok p =>
    refine (fails_check token).bind fun _ ↦ ?_
    refine (Collaborators.fails_require _ _).then (Collaborators.returns_require _ _) fun k hk ↦ ?_
    have hexecutor := hc.executor k hk
    refine (hexecutor.execute _ _ _).then (hexecutor.render _ _ _) fun output houtput ↦ ?_
    exact (fails_check token).bind fun _ ↦ .bind (.ofExcept houtput) fun shown ↦ .pure _

end Executable

/-! ### Commands -/

section Commands

variable {s : Surroundings H} (hs : s.collaborators.Articulate) (i : Invocation)

include hs

theorem Testable.fails_dispatch {suites : Suites} (hsuites : ∀ e f, suites e = .error f → f.HasText) :
    (dispatch suites s i).Fails Fault.HasText := by
  rw [dispatch]
  split
  · refine (Collaborators.fails_parse hs.toWorded _).bind fun parsed ↦ ?_
    cases parsed.element? i.path with
    | none => exact .pure _
    | some e =>
      refine .bind (.ofExcept (hsuites e)) fun all ↦ ?_
      split
      · exact .pure _
      · refine (Collaborators.fails_compile hs.toWorded).bind fun compiled ↦ ?_
        cases compiled.toExcept with
        | error f => exact .pure _
        | ok m =>
          refine (Collaborators.fails_require _ _).then (Collaborators.returns_require _ _) fun t ht ↦ ?_
          refine ((hs.runner t ht).runTestSuites _ _ _ _).bind fun outcomes ↦ ?_
          exact .ofExcept fun _ hf ↦ TestOutcome.hasText_of_results hf
  · exact .pure _

theorem Executable.fails_dispatch {x : ExecutionSupport H} (hx : x.Articulate)
    {suites : Testable.Suites} (hsuites : ∀ e f, suites e = .error f → f.HasText) :
    (dispatch x (Testable.dispatch suites) s i).Fails Fault.HasText := by
  rw [dispatch]
  split
  · exact fails_run hx hs.toWorded i
  · exact Testable.fails_dispatch hs i hsuites

namespace ServiceGrammar

theorem fails_findService (sec : Section) (path : String) :
    (findService s.collaborators sec path).Fails Fault.HasText :=
  (Collaborators.fails_parse hs.toWorded sec).bind fun _ ↦ .pure _

theorem fails_runLegacyTests : (runLegacyTests s i).Fails Fault.HasText := by
  refine (fails_findService hs _ _).bind fun found ↦ ?_
  cases found with
  | none => exact .pure _
  | some found =>
    obtain ⟨e, service⟩ := found
    dsimp only
    cases service.legacyTest with
    | none => exact .pure _
    | some test =>
      refine (Collaborators.fails_compile hs.toWorded).bind fun compiled ↦ ?_
      cases compiled.toExcept with
      | error f => exact .pure _
      | ok m =>
        -- What the runner fails by is told in words here, which may fail, too.
        have hrun : (runLegacyOn s.collaborators e test m).Fails Fault.HasText :=
          (Collaborators.fails_require _ _).then (Collaborators.returns_require _ _) fun t ht ↦
            (hs.runner t ht).runLegacyTests _ _ _ _
        refine hrun.outcome_bind (fun f hf ↦ ?_) fun runs ↦ ?_
        · refine .bind (.ofExcept fun g hg ↦ ?_) fun r ↦ .pure _
          rw [Result.ofFault, hf] at hg
          cases hg
        · exact .ofExcept fun _ hf ↦ LegacyRun.hasText_of_results hf

theorem fails_register [Depths] : (register s i).Fails Fault.HasText := by
  refine (fails_findService hs _ _).bind fun found ↦ ?_
  cases found with
  | none => exact .fail rfl
  | some found =>
    refine (Collaborators.fails_require _ _).then (Collaborators.returns_require _ _) fun x hx ↦ ?_
    refine .bind (fails_workspace.bind fun w ↦ hs.provider.serialize _ _) fun payload ↦ ?_
    refine (hs.server x hx _ _).bind fun response ↦ ?_
    exact .bind (.ofExcept fun _ hf ↦ Registration.hasText_of_formatResponse hf) fun shown ↦ .pure _

end ServiceGrammar

/-- **What ends a command has a text**, whatever the command is. -/
theorem Server.fails_dispatch [Depths] {x : Extension H} (hx : x ∈ defaultExtensions) :
    (x.dispatch s i).Fails Fault.HasText := by
  simp only [defaultExtensions, List.mem_cons, List.not_mem_nil, or_false] at hx
  rcases hx with rfl | rfl | rfl
  · show (ServiceGrammar.dispatch ServiceGrammar.suites s i).Fails _
    rw [ServiceGrammar.dispatch]
    split
    · exact ServiceGrammar.fails_runLegacyTests hs i
    · split
      · exact ServiceGrammar.fails_register hs i
      · exact Executable.fails_dispatch hs i ServiceGrammar.articulate_execution fun _ _ h ↦ nomatch h
  · exact Testable.fails_dispatch hs i fun _ _ h ↦ nomatch h
  · exact Executable.fails_dispatch hs i FunctionGrammar.articulate_execution fun _ _ h ↦ nomatch h

end Commands

/-- Whatever is always there executes its elements so that it fails in words. -/
theorem Server.articulate_execution [Depths] {e : Extension H} (he : e ∈ defaultExtensions)
    {x : ExecutionSupport H} (hx : e.execution = some x) : x.Articulate := by
  simp only [defaultExtensions, List.mem_cons, List.not_mem_nil, or_false] at he
  rcases he with rfl | rfl | rfl
  · exact Option.some.inj hx ▸ ServiceGrammar.articulate_execution
  · cases hx
  · exact Option.some.inj hx ▸ FunctionGrammar.articulate_execution

end ModelServer
