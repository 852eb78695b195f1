import ModelServer.Proofs.Grammar.Cancellation
import ModelServer.Proofs.Grammar.Offers
import ModelServer.Proofs.Server.Agreement

/-!
# Commands in a project that does not compile

To execute, to run tests and to run older tests are three ways through the grammars, and a table query
is a fourth. Each parses the section first, then sees to what the element has to offer, and only then
asks for the compiled project; so each ends in one error, whatever is wrong and wherever it is wrong,
before anybody is called.

`Barred` says that of an action at a session. It is shown of the two places where documents are read,
`Barred.of_parse` and `Barred.of_compile`, and passes through everything that is done with an error
afterwards (`Barred.bind`). Nothing is asked of whoever reads the documents but that, in the session at
hand, the section parses and the project does not compile (`Collaborators.Stuck`).
-/

namespace ModelServer

variable {H α β : Type}

/-! ### Projects that do not compile -/

namespace Collaborators

/-- Asked in the session, the project does not compile, because of `f`. -/
def FailsWith (c : Collaborators H) (f : CompileFault) (s : Session H) : Prop :=
  ∃ r s', c.compile s = (.ok r, s') ∧ r.toExcept = .error f

/-- In the session the section parses to `p`, and asked after that the project does not compile, because
of `f`. -/
def Stuck (c : Collaborators H) (sec : Section) (p : Parsed) (f : CompileFault) (s : Session H) : Prop :=
  ∃ s', c.parse sec s = (.ok p, s') ∧ c.FailsWith f s'

end Collaborators

/-! ### An error and nothing else -/

/-- The result is an error of the element. If there was all it takes to go on (`able`), it is the error
of the project. -/
structure Result.Tells (path : String) (f : CompileFault) (able : Prop) (r : Result) : Prop where
  ids : r.ids = [path]
  outcome : r.outcome = .error
  message : able → f.message ≠ "" → r.message = f.message
  location : able → r.location = f.location

/-- The result of a project that does not compile carries its message and its place. -/
theorem CompileFault.tells_result (f : CompileFault) (path : String) (able : Prop) :
    (f.result path).Tells path f able where
  ids := rfl
  outcome := rfl
  message _ hne := by
    have hempty : f.message.isEmpty = false := by
      rw [Bool.eq_false_iff, ne_eq, String.isEmpty_iff]
      exact hne
    show Result.messageOf f.message = f.message
    rw [Result.messageOf, hempty, if_neg Bool.false_ne_true]
  location _ := rfl

/-- An element that cannot go on is told so, and nothing is said of the project. -/
theorem Result.tells_ofElement {path message : String} {f : CompileFault} {able : Prop}
    {location : Option Location} (h : ¬able) :
    (Result.ofElement path .error message location).Tells path f able :=
  ⟨rfl, rfl, fun ha ↦ absurd ha h, fun ha ↦ absurd ha h⟩

/-- Done in the session `s`, the action ends in `one` such result, and nobody is called. -/
def Barred (path : String) (f : CompileFault) (able : Prop) (s : Session (Recorded H))
    (one : Result → α) (x : Action (Recorded H) α) : Prop :=
  ∃ r s', x s = (.ok (one r), s') ∧ r.Tells path f able ∧ s'.host.calls = s.host.calls

namespace Barred

variable {path : String} {f : CompileFault} {able : Prop} {s : Session (Recorded H)}
  {one : Result → α}

theorem pure {r : Result} (h : r.Tells path f able) {a : α} (ha : a = one r) :
    Barred path f able s one (Pure.pure a) :=
  ⟨r, s, ha ▸ rfl, h, rfl⟩

/-- An error that is only handed on stays the one result. -/
theorem bind {x : Action (Recorded H) α} (hx : Barred path f able s one x) {one' : Result → β}
    {g : α → Action (Recorded H) β} (hg : ∀ r, g (one r) = Pure.pure (one' r)) :
    Barred path f able s one' (x >>= g) := by
  obtain ⟨r, s', hrun, htells, hcalls⟩ := hx
  refine ⟨r, s', ?_, htells, hcalls⟩
  rw [Action.bind_of_ok hrun, hg]
  rfl

theorem ofExcept_bind {a : β} {g : β → Action (Recorded H) α}
    (h : Barred path f able s one (g a)) :
    Barred path f able s one (Action.ofExcept (.ok a) >>= g) := by
  obtain ⟨r, s', hrun, hrest⟩ := h
  exact ⟨r, s', (Action.bind_ofExcept_apply a g s).trans hrun, hrest⟩

/-- Less is said of the project where less was able to go on. -/
theorem mono {able' : Prop} {x : Action (Recorded H) α} (hx : Barred path f able s one x)
    (h : able' → able) : Barred path f able' s one x := by
  obtain ⟨r, s', hrun, htells, hcalls⟩ := hx
  exact ⟨r, s', hrun, ⟨htells.ids, htells.outcome, fun ha ↦ htells.message (h ha),
    fun ha ↦ htells.location (h ha)⟩, hcalls⟩

variable {c : Collaborators H}

/-- **To parse calls nobody**, and the project compiles no better for it. -/
theorem of_parse {sec : Section} {p : Parsed} (h : c.Stuck sec p f s.unrecorded)
    {next : Parsed → Action (Recorded H) α}
    (hnext : ∀ t : Session (Recorded H), c.FailsWith f t.unrecorded →
      Barred path f able t one (next p)) :
    Barred path f able s one (c.recorded.parse sec >>= next) := by
  obtain ⟨t, hparse, hfails⟩ := h
  obtain ⟨s₁, hs₁, rfl, hcalls₁⟩ := Action.within_of_apply hparse
  obtain ⟨r, s₂, hrun, htells, hcalls₂⟩ := hnext s₁ hfails
  refine ⟨r, s₂, ?_, htells, hcalls₂.trans hcalls₁⟩
  rw [c.recorded_parse, Action.bind_of_ok hs₁, hrun]

/-- **To compile calls nobody**, and what is wrong with the project is the one result. -/
theorem of_compile (h : c.FailsWith f s.unrecorded) {next : Compiled → Action (Recorded H) α}
    (hnext : ∀ r, r.toExcept = .error f → next r = Pure.pure (one (f.result path))) :
    Barred path f able s one (c.recorded.compile >>= next) := by
  obtain ⟨r, t, hcompile, hr⟩ := h
  obtain ⟨s₁, hs₁, -, hcalls⟩ := Action.within_of_apply hcompile
  refine ⟨f.result path, s₁, ?_, f.tells_result path able, hcalls⟩
  rw [c.recorded_compile, Action.bind_of_ok hs₁, hnext r hr]
  rfl

end Barred

/-! ### The four ways -/

section Ways

variable {c : Collaborators H} {sec : Section} {p : Parsed} {f : CompileFault} {path : String}
  {s : Session (Recorded H)}

namespace Executable

variable {x : ExecutionSupport (Recorded H)} {lambda : Element → Option (Lambda Location)}
  (hx : ∀ e, x.lambda e = .ok (lambda e))

include hx

theorem barred_planned (h : c.Stuck sec p f s.unrecorded) (ps : InputParameters) :
    Barred path f (∃ e, p.element? path = some e ∧ (lambda e).isSome) s Except.error
      (planned x c.recorded sec path ps) := by
  rw [planned]
  refine .of_parse h fun t hfails ↦ ?_
  cases he : p.element? path with
  | none =>
    refine .pure (Result.tells_ofElement ?_) rfl
    rintro ⟨e, hnone, -⟩
    cases hnone
  | some e =>
    dsimp only
    rw [hx]
    refine .ofExcept_bind ?_
    cases hfunc : lambda e with
    | none =>
      refine .pure (Result.tells_ofElement ?_) rfl
      rintro ⟨_, hsome, hlambda⟩
      rw [← Option.some.inj hsome, hfunc] at hlambda
      cases hlambda
    | some func =>
      refine .of_compile hfails fun r hr ↦ ?_
      rw [hr]

theorem barred_run {i : Invocation} (h : c.Stuck i.sec p f s.unrecorded) :
    Barred i.path f (∃ e, p.element? i.path = some e ∧ (lambda e).isSome) s (fun r ↦ [r])
      (run x c.recorded i) :=
  (barred_planned hx h i.inputParameters).bind fun _ ↦ rfl

/-- **A table query** carries its token while it plans. -/
theorem barred_query {token : TokenId} (h : c.Stuck sec p f (s.carrying token).unrecorded)
    (htoken : s.requests.isCancelled token = false) (q : Api.TableQuery) (ps : InputParameters) :
    Barred path f (∃ e, p.element? path = some e ∧ (lambda e).isSome) s id
      (query x c.recorded sec path q ps token) := by
  have hbarred : Barred path f (∃ e, p.element? path = some e ∧ (lambda e).isSome)
      (s.carrying token) Except.error (planned x c.recorded sec path ps) := barred_planned hx h ps
  obtain ⟨r, s', hplanned, htells, hcalls⟩ := hbarred
  have hentry : (s.carrying token).requests.isCancelled token = false := htoken
  have hstages : queryStages x c.recorded sec path q ps token (s.carrying token) = (.ok r, s') := by
    rw [queryStages_eq, Action.bind_of_ok (Action.check_of_uncancelled hentry),
      Action.bind_of_ok hplanned]
    rfl
  exact ⟨r, _, query_apply hstages, htells, hcalls⟩

end Executable

theorem Testable.barred_run {suites : Suites} {suitesOf : Element → List (TestSuite Location)}
    (hsuites : ∀ e, suites e = .ok (suitesOf e)) {i : Invocation}
    (h : c.Stuck i.sec p f s.unrecorded) (families : List Family) :
    Barred i.path f
      (∃ e, p.element? i.path = some e ∧
        TestSuite.select (suitesOf e) (idGiven i suiteArg) (idGiven i testArg) ≠ [])
      s (fun r ↦ [r]) (run suites ⟨c.recorded, families⟩ i) := by
  rw [run]
  refine .of_parse h fun t hfails ↦ ?_
  cases he : p.element? i.path with
  | none =>
    refine .pure (Result.tells_ofElement ?_) rfl
    rintro ⟨e, hnone, -⟩
    cases hnone
  | some e =>
    dsimp only
    rw [hsuites]
    refine .ofExcept_bind ?_
    cases hchosen : TestSuite.select (suitesOf e) (idGiven i suiteArg) (idGiven i testArg) with
    | nil =>
      refine .pure (Result.tells_ofElement ?_) rfl
      rintro ⟨_, hsome, hne⟩
      rw [← Option.some.inj hsome] at hne
      exact hne hchosen
    | cons first rest =>
      refine .of_compile hfails fun r hr ↦ ?_
      rw [hr]

theorem ServiceGrammar.barred_runLegacyTests {i : Invocation} (h : c.Stuck i.sec p f s.unrecorded)
    (families : List Family) :
    Barred i.path f
      (∃ e, p.element? i.path = some e ∧
        ∃ service, e.service? = some service ∧ service.legacyTest.isSome)
      s (fun r ↦ [r]) (runLegacyTests ⟨c.recorded, families⟩ i) := by
  rw [runLegacyTests, findService, bind_assoc]
  refine .of_parse h fun t hfails ↦ ?_
  rw [pure_bind]
  cases he : p.element? i.path with
  | none =>
    refine .pure (Result.tells_ofElement ?_) rfl
    rintro ⟨e, hnone, -⟩
    cases hnone
  | some e =>
    cases hservice : e.service? with
    | none =>
      dsimp only [Option.bind_some, Option.map_none]
      rw [hservice]
      refine .pure (Result.tells_ofElement ?_) rfl
      rintro ⟨_, hsome, service, hsome', -⟩
      rw [← Option.some.inj hsome, hservice] at hsome'
      cases hsome'
    | some service =>
      dsimp only [Option.bind_some]
      rw [hservice]
      dsimp only [Option.map_some]
      cases htest : service.legacyTest with
      | none =>
        refine .pure (Result.tells_ofElement ?_) rfl
        rintro ⟨_, hsome, _, hsome', hlegacy⟩
        rw [← Option.some.inj hsome, hservice] at hsome'
        rw [← Option.some.inj hsome', htest] at hlegacy
        cases hlegacy
      | some test =>
        refine .of_compile hfails fun r hr ↦ ?_
        rw [hr]

end Ways

/-! ### What an element has that can be run -/

/-- The commands that run something of an element. -/
def Command.running : List String :=
  [executeId, runTestsId, runLegacyTestsId]

/-- What there is of an element to be run. -/
structure Runnable where
  lambda : Option (Lambda Location)
  suites : List (TestSuite Location)
  legacyTest : Option (LegacyTest Location)

/-- What there is of an element to be run in a section of that grammar: nothing if the element is not of
the kind that the grammar is for. -/
def Element.runnable (e : Element) (grammar : String) : Runnable :=
  if grammar = "Service" then
    ⟨ServiceGrammar.lambda e, ServiceGrammar.suitesOf e, e.service?.bind (·.legacyTest)⟩
  else if grammar = "Function" then ⟨FunctionGrammar.lambda e, FunctionGrammar.suitesOf e, none⟩
  else ⟨none, [], none⟩

namespace Runnable

/-- There is what the command runs; of tests, those that are chosen. -/
inductive Has (o : Runnable) (i : Invocation) : Prop
  | lambda (hi : i.commandId = Command.executeId) (h : o.lambda.isSome)
  | tests (hi : i.commandId = Command.runTestsId)
      (h : TestSuite.select o.suites (Testable.idGiven i Testable.suiteArg)
        (Testable.idGiven i Testable.testArg) ≠ [])
  | legacyTest (hi : i.commandId = Command.runLegacyTestsId) (h : o.legacyTest.isSome)

variable {o : Runnable} {i : Invocation} (h : o.Has i)

include h

theorem Has.of_execute (hi : i.commandId = Command.executeId) : o.lambda.isSome := by
  cases h with
  | lambda _ h => exact h
  | tests hi' _ | legacyTest hi' _ => exact absurd (hi.symm.trans hi') (by decide)

theorem Has.of_runTests (hi : i.commandId = Command.runTestsId) :
    TestSuite.select o.suites (Testable.idGiven i Testable.suiteArg)
      (Testable.idGiven i Testable.testArg) ≠ [] := by
  cases h with
  | tests _ h => exact h
  | lambda hi' _ | legacyTest hi' _ => exact absurd (hi.symm.trans hi') (by decide)

theorem Has.of_runLegacyTests (hi : i.commandId = Command.runLegacyTestsId) :
    o.legacyTest.isSome := by
  cases h with
  | legacyTest _ h => exact h
  | lambda hi' _ | tests hi' _ => exact absurd (hi.symm.trans hi') (by decide)

end Runnable

section Dispatches

variable {c : Collaborators H} {p : Parsed} {f : CompileFault} {s : Session (Recorded H)}
  {i : Invocation}

/-- A command that the grammar does not know is refused before the section is parsed. -/
theorem Barred.unsupported {grammar : String}
    (h : ∀ e : Element, ¬(e.runnable grammar).Has i) :
    Barred i.path f (∃ e, p.element? i.path = some e ∧ (e.runnable grammar).Has i) s (fun r ↦ [r])
      (Pure.pure [.ofElement i.path .error ("Unsupported command: " ++ i.commandId) none]) := by
  refine .pure (Result.tells_ofElement ?_) rfl
  rintro ⟨e, -, hhas⟩
  exact h e hhas

variable (h : c.Stuck i.sec p f s.unrecorded) (families : List Family)

include h

theorem ServiceGrammar.barred_dispatch [Depths] (hi : i.commandId ∈ Command.running) :
    Barred i.path f (∃ e, p.element? i.path = some e ∧ (e.runnable "Service").Has i) s
      (fun r ↦ [r]) (extension.dispatch ⟨c.recorded, families⟩ i) := by
  show Barred _ _ _ _ _ (dispatch suites ⟨c.recorded, families⟩ i)
  rw [dispatch, Executable.dispatch, Testable.dispatch]
  simp only [Command.running, List.mem_cons, List.not_mem_nil, or_false] at hi
  rcases hi with hi | hi | hi <;> rw [hi]
  · exact (Executable.barred_run (fun _ ↦ rfl) h).mono
      (Exists.imp fun e ↦ And.imp_right fun hhas ↦ hhas.of_execute hi)
  · exact (Testable.barred_run (fun _ ↦ rfl) h families).mono
      (Exists.imp fun e ↦ And.imp_right fun hhas ↦ hhas.of_runTests hi)
  · refine (barred_runLegacyTests h families).mono ?_
    rintro ⟨e, he, hhas⟩
    refine ⟨e, he, ?_⟩
    have hlegacy : (e.service?.bind (·.legacyTest)).isSome := hhas.of_runLegacyTests hi
    cases hservice : e.service? with
    | none =>
      rw [hservice] at hlegacy
      cases hlegacy
    | some service =>
      rw [hservice] at hlegacy
      exact ⟨service, rfl, hlegacy⟩

theorem FunctionGrammar.barred_dispatch (hi : i.commandId ∈ Command.running) :
    Barred i.path f (∃ e, p.element? i.path = some e ∧ (e.runnable "Function").Has i) s
      (fun r ↦ [r]) (extension.dispatch ⟨c.recorded, families⟩ i) := by
  show Barred _ _ _ _ _
    (Executable.dispatch execution (Testable.dispatch suites) ⟨c.recorded, families⟩ i)
  rw [Executable.dispatch, Testable.dispatch]
  simp only [Command.running, List.mem_cons, List.not_mem_nil, or_false] at hi
  rcases hi with hi | hi | hi
  · rw [if_pos hi]
    exact (Executable.barred_run (fun _ ↦ rfl) h).mono
      (Exists.imp fun e ↦ And.imp_right fun hhas ↦ hhas.of_execute hi)
  · rw [if_neg (hi.trans_ne (by decide)), if_pos hi]
    exact (Testable.barred_run (fun _ ↦ rfl) h families).mono
      (Exists.imp fun e ↦ And.imp_right fun hhas ↦ hhas.of_runTests hi)
  · rw [if_neg (hi.trans_ne (by decide)), if_neg (hi.trans_ne (by decide))]
    exact .unsupported fun e hhas ↦ absurd (hhas.of_runLegacyTests hi) Bool.false_ne_true

/-- A runtime has nothing that could be run. -/
theorem RuntimeGrammar.barred_dispatch :
    Barred i.path f (∃ e, p.element? i.path = some e ∧ (e.runnable "Runtime").Has i) s
      (fun r ↦ [r]) (extension.dispatch ⟨c.recorded, families⟩ i) := by
  have hnothing (e : Element) : ¬(e.runnable "Runtime").Has i := by
    rintro (⟨-, h⟩ | ⟨-, h⟩ | ⟨-, h⟩)
    · cases h
    · exact h rfl
    · cases h
  show Barred _ _ _ _ _ (Testable.dispatch Testable.noSuites ⟨c.recorded, families⟩ i)
  rw [Testable.dispatch]
  split
  · have hsuites (e : Element) : Testable.noSuites e = .ok [] := rfl
    refine (Testable.barred_run hsuites h families).mono ?_
    rintro ⟨e, -, hhas⟩
    exact absurd hhas (hnothing e)
  · exact .unsupported hnothing

/-- **Every extension that is always there is barred**, whatever the command runs. -/
theorem Extension.barred_execute [Depths] {x : Extension (Recorded H)}
    (hx : x ∈ Server.defaultExtensions) (hi : i.commandId ∈ Command.running) :
    Barred i.path f (∃ e, p.element? i.path = some e ∧ (e.runnable x.name).Has i) s
      (fun r ↦ [r]) (x.execute ⟨c.recorded, families⟩ i) := by
  have hdispatch : Barred i.path f (∃ e, p.element? i.path = some e ∧ (e.runnable x.name).Has i) s
      (fun r ↦ [r]) (x.dispatch ⟨c.recorded, families⟩ i) := by
    simp only [Server.defaultExtensions, List.mem_cons, List.not_mem_nil, or_false] at hx
    rcases hx with rfl | rfl | rfl
    · exact ServiceGrammar.barred_dispatch h families hi
    · exact RuntimeGrammar.barred_dispatch h families
    · exact FunctionGrammar.barred_dispatch h families hi
  obtain ⟨r, s', hrun, hrest⟩ := hdispatch
  refine ⟨r, s', ?_, hrest⟩
  rw [Extension.execute_apply, hrun]
  rfl

end Dispatches

/-- And so is every table query whose token is not cancelled. -/
theorem Extension.barred_query [Depths] {c : Collaborators H} {sec : Section} {p : Parsed}
    {f : CompileFault} {s : Session (Recorded H)} {token : TokenId} {x : Extension (Recorded H)}
    (hx : x ∈ Server.defaultExtensions) {support : ExecutionSupport (Recorded H)}
    (hsupport : x.execution = some support)
    (h : c.Stuck sec p f (s.carrying token).unrecorded)
    (htoken : s.requests.isCancelled token = false) (path : String) (q : Api.TableQuery)
    (ps : InputParameters) :
    Barred path f (∃ e, p.element? path = some e ∧ (e.runnable x.name).lambda.isSome) s id
      (Executable.query support c.recorded sec path q ps token) := by
  simp only [Server.defaultExtensions, List.mem_cons, List.not_mem_nil, or_false] at hx
  rcases hx with rfl | rfl | rfl
  · obtain rfl : ServiceGrammar.execution = support := Option.some.inj hsupport
    exact Executable.barred_query (fun _ ↦ rfl) h htoken q ps
  · cases hsupport
  · obtain rfl : FunctionGrammar.execution = support := Option.some.inj hsupport
    exact Executable.barred_query (fun _ ↦ rfl) h htoken q ps

end ModelServer
