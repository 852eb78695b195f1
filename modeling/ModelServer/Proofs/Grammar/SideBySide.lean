import ModelServer.Proofs.Session.SideBySide
import ModelServer.Server.Routing

/-!
# Commands side by side

Whatever two sessions have in common, as long as a section parses to the same in both and the project
compiles to the same, the same becomes of an element up to the point where its plan is made
(`Executable.agrees_planned`); and the plan is the same if whoever makes it agrees with himself.

Beyond plans a command goes to whoever runs them, to whoever runs tests, or, with all that is open, to an
execution server. `Collaborators.Alike` is what all of these have to do alike; then every command comes to
the same (`Extension.agrees_execute`). The two sections need not be one: it is enough that they parse to
the same, as the sections of one text do in two workspaces.
-/

namespace ModelServer

variable {H : Type} {R Q : Session H → Session H → Prop} {c : Collaborators H}

/-- Where a section parses to the same and the project compiles to the same, the plan decides. -/
theorem Executable.agrees_planned {x : ExecutionSupport H} {sec sec' : Section} (hRQ : R ≤ Q)
    (hparse : Action.Agrees R (c.parse sec) (c.parse sec') R)
    (hcompile : Action.Agrees R c.compile c.compile R) {ps : InputParameters}
    (hplan : ∀ e func m, Action.Agrees R (x.plan c e func m ps) (x.plan c e func m ps) Q)
    (path : String) :
    Action.Agrees R (planned x c sec path ps) (planned x c sec' path ps) Q := by
  rw [planned, planned]
  refine hparse.bind hRQ fun p ↦ ?_
  cases p.element? path with
  | none => exact .pure hRQ _
  | some e =>
    dsimp only
    refine (Action.Agrees.ofExcept le_rfl _).bind hRQ fun func? ↦ ?_
    cases func? with
    | none => exact .pure hRQ _
    | some func =>
      dsimp only
      refine hcompile.bind hRQ fun r ↦ ?_
      cases r.toExcept with
      | error f => exact .pure hRQ _
      | ok m => exact (hplan e func m).bind le_rfl fun plan ↦ .pure le_rfl _

/-- A plan of one binding is made alike, if work that is stopped is stopped in both. -/
theorem ExecutionSpec.agrees_plan (hRQ : R ≤ Q)
    (hcheck : Action.Agrees R (Action.requests Requests.checkCarried)
      (Action.requests Requests.checkCarried) R) {g : PlanGenerator H}
    (hg : ∀ spec m p ext, Action.Agrees R (g.generate spec m p ext) (g.generate spec m p ext) Q)
    (spec : ExecutionSpec) (m : CompiledModel) (ext : PlatformExtensions) :
    Action.Agrees R (spec.plan m g ext) (spec.plan m g ext) Q := by
  rw [plan]
  exact hcheck.bind hRQ fun _ ↦ hg spec m .java ext

/-- The plans of each extension that is always there are made alike. -/
theorem Extension.agrees_plan [Depths] {x : Extension H} (hx : x ∈ Server.defaultExtensions)
    {support : ExecutionSupport H} (hsupport : x.execution = some support) (hRQ : R ≤ Q)
    (hcheck : Action.Agrees R (Action.requests Requests.checkCarried)
      (Action.requests Requests.checkCarried) R)
    (hg : ∀ g ∈ c.planGenerator, ∀ spec m p ext,
      Action.Agrees R (g.generate spec m p ext) (g.generate spec m p ext) Q)
    (ps : InputParameters) (e : Element) (func : Lambda Location) (m : CompiledModel) :
    Action.Agrees R (support.plan c e func m ps) (support.plan c e func m ps) Q := by
  simp only [Server.defaultExtensions, List.mem_cons, List.not_mem_nil, or_false] at hx
  rcases hx with rfl | rfl | rfl
  · obtain rfl : ServiceGrammar.execution = support := Option.some.inj hsupport
    show Action.Agrees R (ServiceGrammar.plan c e func m ps) (ServiceGrammar.plan c e func m ps) Q
    rw [ServiceGrammar.plan]
    cases e.service? with
    | none => exact .fail hRQ _
    | some service =>
      refine (Action.Agrees.ofExcept le_rfl _).bind hRQ fun spec ↦ ?_
      exact .require_bind hRQ fun g hmem ↦ spec.agrees_plan hRQ hcheck (hg g hmem) m _
  · cases hsupport
  · obtain rfl : FunctionGrammar.execution = support := Option.some.inj hsupport
    exact .require_bind hRQ fun g hmem ↦ ExecutionSpec.agrees_plan hRQ hcheck (hg g hmem) _ m _

/-! ### All that a command can come to -/

/-- In sessions that stand in `R` the two sections parse to the same, the project compiles to the same and
is written the same, work goes on in both or in neither, and every collaborator does the same. -/
structure Collaborators.Alike (R : Session H → Session H → Prop) (c : Collaborators H)
    (sec sec' : Section) : Prop where
  parse : Action.Agrees R (c.parse sec) (c.parse sec') R
  compile : Action.Agrees R c.compile c.compile R
  serialize : ∀ origin, Action.Agrees R (c.serialize origin) (c.serialize origin) R
  check : Action.Agrees R (Action.requests Requests.checkCarried)
    (Action.requests Requests.checkCarried) R
  generate : ∀ g ∈ c.planGenerator, ∀ spec m p ext,
    Action.Agrees R (g.generate spec m p ext) (g.generate spec m p ext) R
  execute : ∀ k ∈ c.planExecutor, ∀ plan ps,
    Action.Agrees R (k.execute plan ps none) (k.execute plan ps none) R
  runTestSuites : ∀ k ∈ c.testRunner, ∀ e suites m ext,
    Action.Agrees R (k.runTestSuites e suites m ext) (k.runTestSuites e suites m ext) R
  runLegacyTests : ∀ k ∈ c.testRunner, ∀ e test m ext,
    Action.Agrees R (k.runLegacyTests e test m ext) (k.runLegacyTests e test m ext) R
  post : ∀ k ∈ c.executionServer, ∀ path payload,
    Action.Agrees R (k.post path payload) (k.post path payload) R

section Commands

variable {sec sec' : Section} (h : c.Alike R sec sec') (families : List Family) (path id : String)
  (args : List (String × String)) (ps : InputParameters)

include h

theorem Executable.agrees_run [Depths] {x : Extension H} (hx : x ∈ Server.defaultExtensions)
    {support : ExecutionSupport H} (hsupport : x.execution = some support) :
    Action.Agrees R (run support c ⟨sec, path, id, args, ps⟩)
      (run support c ⟨sec', path, id, args, ps⟩) R := by
  have hplanned : Action.Agrees R (planned support c sec path ps) (planned support c sec' path ps) R :=
    agrees_planned le_rfl h.parse h.compile
      (Extension.agrees_plan hx hsupport le_rfl h.check h.generate ps) path
  rw [run, run]
  refine hplanned.bind le_rfl fun planned ↦ ?_
  cases planned with
  | error r => exact .pure le_rfl _
  | ok p =>
    refine .require_bind le_rfl fun k hk ↦ ?_
    refine (h.execute k hk p.2 ps).bind le_rfl fun output ↦ ?_
    exact (Action.Agrees.ofExcept le_rfl _).bind le_rfl fun shown ↦ .pure le_rfl _

theorem Testable.agrees_run (suites : Suites) :
    Action.Agrees R (run suites ⟨c, families⟩ ⟨sec, path, id, args, ps⟩)
      (run suites ⟨c, families⟩ ⟨sec', path, id, args, ps⟩) R := by
  rw [run, run]
  refine h.parse.bind le_rfl fun p ↦ ?_
  dsimp only
  cases p.element? path with
  | none => exact .pure le_rfl _
  | some e =>
    refine (Action.Agrees.ofExcept le_rfl _).bind le_rfl fun all ↦ ?_
    -- The arguments are the same, so the same tests are chosen.
    have hchosen : TestSuite.select all (idGiven ⟨sec', path, id, args, ps⟩ suiteArg)
        (idGiven ⟨sec', path, id, args, ps⟩ testArg) =
      TestSuite.select all (idGiven ⟨sec, path, id, args, ps⟩ suiteArg)
        (idGiven ⟨sec, path, id, args, ps⟩ testArg) := rfl
    rw [hchosen]
    cases TestSuite.select all (idGiven ⟨sec, path, id, args, ps⟩ suiteArg)
        (idGiven ⟨sec, path, id, args, ps⟩ testArg) with
    | nil => exact .pure le_rfl _
    | cons first rest =>
      refine h.compile.bind le_rfl fun r ↦ ?_
      cases r.toExcept with
      | error f => exact .pure le_rfl _
      | ok m =>
        refine .require_bind le_rfl fun k hk ↦ ?_
        refine (h.runTestSuites k hk e _ m _).bind le_rfl fun outcomes ↦ ?_
        exact .ofExcept le_rfl _

theorem ServiceGrammar.agrees_findService :
    Action.Agrees R (findService c sec path) (findService c sec' path) R := by
  rw [findService, findService]
  exact h.parse.bind le_rfl fun p ↦ .pure le_rfl _

theorem ServiceGrammar.agrees_runLegacyTests :
    Action.Agrees R (runLegacyTests ⟨c, families⟩ ⟨sec, path, id, args, ps⟩)
      (runLegacyTests ⟨c, families⟩ ⟨sec', path, id, args, ps⟩) R := by
  rw [runLegacyTests, runLegacyTests]
  refine (agrees_findService h path).bind le_rfl fun found ↦ ?_
  cases found with
  | none => exact .pure le_rfl _
  | some p =>
    obtain ⟨e, service⟩ := p
    dsimp only
    cases service.legacyTest with
    | none => exact .pure le_rfl _
    | some test =>
      refine h.compile.bind le_rfl fun r ↦ ?_
      cases r.toExcept with
      | error f => exact .pure le_rfl _
      | ok m =>
        have hlegacy : Action.Agrees R (runLegacyOn c e test m) (runLegacyOn c e test m) R :=
          .require_bind le_rfl fun k hk ↦ h.runLegacyTests k hk e test m _
        refine hlegacy.outcome.bind le_rfl fun ended ↦ ?_
        cases ended with
        | error f => exact (Action.Agrees.ofExcept le_rfl _).bind le_rfl fun r ↦ .pure le_rfl _
        | ok runs => exact .ofExcept le_rfl _

theorem ServiceGrammar.agrees_register [Depths] :
    Action.Agrees R (register ⟨c, families⟩ ⟨sec, path, id, args, ps⟩)
      (register ⟨c, families⟩ ⟨sec', path, id, args, ps⟩) R := by
  rw [register, register]
  refine (agrees_findService h path).bind le_rfl fun found ↦ ?_
  cases found with
  | none => exact .fail le_rfl _
  | some p =>
    refine .require_bind le_rfl fun k hk ↦ ?_
    refine (h.serialize _).bind le_rfl fun payload ↦ ?_
    refine (h.post k hk _ payload).bind le_rfl fun response ↦ ?_
    exact (Action.Agrees.ofExcept le_rfl _).bind le_rfl fun shown ↦ .pure le_rfl _

theorem Testable.agrees_dispatch (suites : Suites) :
    Action.Agrees R (dispatch suites ⟨c, families⟩ ⟨sec, path, id, args, ps⟩)
      (dispatch suites ⟨c, families⟩ ⟨sec', path, id, args, ps⟩) R := by
  rw [dispatch, dispatch]
  split
  · exact agrees_run h families path id args ps suites
  · exact .pure le_rfl _

theorem Executable.agrees_dispatch [Depths] {x : Extension H} (hx : x ∈ Server.defaultExtensions)
    {support : ExecutionSupport H} (hsupport : x.execution = some support) (suites : Testable.Suites) :
    Action.Agrees R
      (dispatch support (Testable.dispatch suites) ⟨c, families⟩ ⟨sec, path, id, args, ps⟩)
      (dispatch support (Testable.dispatch suites) ⟨c, families⟩ ⟨sec', path, id, args, ps⟩) R := by
  rw [dispatch, dispatch]
  dsimp only
  split
  · exact agrees_run h path id args ps hx hsupport
  · exact Testable.agrees_dispatch h families path id args ps suites

/-- **Every extension that is always there dispatches alike**, whatever the command. -/
theorem Extension.agrees_dispatch [Depths] {x : Extension H} (hx : x ∈ Server.defaultExtensions) :
    Action.Agrees R (x.dispatch ⟨c, families⟩ ⟨sec, path, id, args, ps⟩)
      (x.dispatch ⟨c, families⟩ ⟨sec', path, id, args, ps⟩) R := by
  have hx' := hx
  simp only [Server.defaultExtensions, List.mem_cons, List.not_mem_nil, or_false] at hx'
  rcases hx' with rfl | rfl | rfl
  · show Action.Agrees R
      (ServiceGrammar.dispatch ServiceGrammar.suites ⟨c, families⟩ ⟨sec, path, id, args, ps⟩)
      (ServiceGrammar.dispatch ServiceGrammar.suites ⟨c, families⟩ ⟨sec', path, id, args, ps⟩) R
    rw [ServiceGrammar.dispatch, ServiceGrammar.dispatch]
    split
    · exact ServiceGrammar.agrees_runLegacyTests h families path id args ps
    split
    · exact ServiceGrammar.agrees_register h families path id args ps
    · exact Executable.agrees_dispatch h families path id args ps hx rfl _
  · exact Testable.agrees_dispatch h families path id args ps Testable.noSuites
  · exact Executable.agrees_dispatch h families path id args ps hx rfl FunctionGrammar.suites

/-- **A command comes to the same results**, whatever it is. -/
theorem Extension.agrees_execute [Depths] {x : Extension H} (hx : x ∈ Server.defaultExtensions) :
    Action.Agrees R (x.execute ⟨c, families⟩ ⟨sec, path, id, args, ps⟩)
      (x.execute ⟨c, families⟩ ⟨sec', path, id, args, ps⟩) R := by
  rw [execute, execute]
  refine (agrees_dispatch h families path id args ps hx).outcome.bind le_rfl fun ended ↦ ?_
  cases ended with
  | ok results => exact .pure le_rfl _
  | error f => exact (Action.Agrees.ofExcept le_rfl _).bind le_rfl fun r ↦ .pure le_rfl _

end Commands

end ModelServer
