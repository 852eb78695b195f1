import ModelServer.Proofs.Grammar.Offers
import ModelServer.Proofs.Session.Recording
import ModelServer.Proofs.Workspace.Learning

/-!
# What comes of a command

A command for an element either reaches the collaborator that it is for, or is refused. `Reaches` and
`Refusal` are the two ends, and `Settled` says which of them a dispatch comes to, by whether the command
is offered. On the way to either nothing but the memory of the workspace changes, so `Workspace.Answers`
carries all static checks: finding the element, what it has, whether the project compiles.

There are two more ways to stop, both behind the static checks of a command to execute: no variant of
the execution is chosen by the parameters, and the work belongs to a request that was cancelled.
-/

namespace ModelServer

variable [Depths]

/-- The call is one that the command makes for the element: of its lambda, its tests, its older test, or
to have the service of its path registered. -/
def Call.Serves (e : Element) (id : String) : Call → Prop
  | .generate spec =>
    id = Command.executeId ∧ ∃ func, spec.func = some func ∧
      (ServiceGrammar.lambda e = some func ∨ FunctionGrammar.lambda e = some func)
  | .runLegacyTests d test =>
    id = Command.runLegacyTestsId ∧ d = e ∧ e.service?.bind (·.legacyTest) = some test
  | .runTestSuites d suites =>
    id = Command.runTestsId ∧ d = e ∧
      (ServiceGrammar.suitesOf e = suites ∨ FunctionGrammar.suitesOf e = suites)
  | .post path payload =>
    id = Command.registerId ∧ path = Registration.path ∧
      payload.member? "origin" = some (Registration.origin (.text e.path))
  | .execute => False

/-- The work that is done belongs to a request, of that name, that was cancelled. -/
def Requests.Stopped (r : Requests) (request : String) : Prop :=
  ∃ t, r.carried = some t ∧ (r.token t).cancelled = true ∧ (r.token t).request = request

variable {H α β : Type} {w : Workspace}

omit [Depths] in
/-- Work goes on, unless it is stopped. -/
theorem Action.checkCarried_apply (s : Session H) :
    Action.requests Requests.checkCarried s = (.ok (), s) ∨
      ∃ request, s.requests.Stopped request ∧
        Action.requests Requests.checkCarried s = (.error (.cancelled request), s) := by
  rw [Action.requests, Requests.checkCarried]
  cases hcarried : s.requests.carried with
  | none => exact .inl rfl
  | some t =>
    dsimp only
    rw [Requests.check, Token.check]
    by_cases hcancelled : (s.requests.token t).cancelled = true
    · rw [if_pos hcancelled]
      exact .inr ⟨_, ⟨t, hcarried, hcancelled, rfl⟩, rfl⟩
    · rw [if_neg hcancelled]
      exact .inl rfl

/-- Where the documents of `w` are open the first call that the action makes is one of those; only
where work is stopped it makes none. -/
def Reaches (w : Workspace) (P : Call → Prop) (x : Action (Recorded H) α) : Prop :=
  ∀ s, w.Learns s.workspace →
    (∃ call more, P call ∧ (x s).2.host.calls = s.host.calls ++ call :: more) ∨
      ∃ request, s.requests.Stopped request ∧ (x s).1 = .error (.cancelled request)

namespace Reaches

variable {P : Call → Prop}

/-- What is answered before calls nobody. -/
theorem of_answers {x : Action (Recorded H) α} {f : α → Action (Recorded H) β} {a : α}
    (hx : w.Answers x (.ok a)) (hf : Reaches w P (f a)) : Reaches w P (x >>= f) := by
  intro s hs
  obtain ⟨w', hw', hrun⟩ := hx s hs
  rw [Action.bind_of_ok hrun]
  exact hf { s with workspace := w' } hw'

/-- What is done afterwards takes no call back. -/
theorem bind {x : Action (Recorded H) α} {f : α → Action (Recorded H) β} (hx : Reaches w P x)
    (hf : ∀ a, (f a).Appends) : Reaches w P (x >>= f) := by
  intro s hs
  rcases hx s hs with ⟨call, more, hcall, hmore⟩ | ⟨request, hstopped, herror⟩
  · rcases hrun : x s with ⟨r, s₁⟩
    rw [hrun] at hmore
    cases r with
    | ok a =>
      obtain ⟨more', hmore'⟩ := hf a s₁
      exact .inl ⟨call, more ++ more', hcall,
        by rw [Action.bind_of_ok hrun, hmore', hmore, List.append_assoc, List.cons_append]⟩
    | error e => exact .inl ⟨call, more, hcall, by rw [Action.bind_of_error hrun, hmore]⟩
  · have hrun : x s = (.error (.cancelled request), (x s).2) := Prod.ext herror rfl
    exact .inr ⟨request, hstopped, by rw [Action.bind_of_error hrun]⟩

theorem noted {call : Call} (act : Action H α) (h : P call) : Reaches w P (act.noted call) :=
  fun s _ ↦ .inl ⟨call, [], h, Action.calls_noted call act s⟩

theorem noted_outcome {call : Call} (act : Action H α) (h : P call) :
    Reaches w P (act.noted call).outcome :=
  fun s _ ↦ .inl ⟨call, [], h, Action.calls_noted call act s⟩

/-- Where work is not stopped a plan is asked for. -/
theorem plan {spec : ExecutionSpec} (h : P (.generate spec)) (m : CompiledModel)
    (g : PlanGenerator H) (ext : PlatformExtensions) :
    Reaches w P (spec.plan m g.recorded ext) := by
  intro s hs
  rw [ExecutionSpec.plan]
  rcases Action.checkCarried_apply s with hcheck | ⟨request, hstopped, hcheck⟩
  · rw [Action.bind_of_ok hcheck]
    exact noted _ h s hs
  · rw [Action.bind_of_error hcheck]
    exact .inr ⟨request, hstopped, rfl⟩

end Reaches

/-- How a command for the element of a path is refused. -/
inductive Refusal (path : String) : Except Fault (List Result) → Prop where
  | told (message : String) (location : Option Location) :
    Refusal path (.ok [.ofElement path .error message location])
  | noService : Refusal path (.error (.plain .lookup ("Unable to find service " ++ path)))
  | noServer : Refusal path (.error (.unconfigured "execution server"))

/-- What comes of a command for an element. If it is offered, the collaborator it is for is called, or no
variant of the execution is chosen; if it is not offered, it is refused and nobody is called. -/
structure Settled (w : Workspace) (offered : Prop) (e : Element) (id : String)
    (x : Action (Recorded H) (List Result)) : Prop where
  served : offered → Reaches w (Call.Serves e id) x ∨
    ∃ key value, w.Answers x (.error (.unmatchedKey key value))
  refused : ¬offered → ∃ r, Refusal e.path r ∧ w.Answers x r

theorem Settled.congr {offered offered' : Prop} {e : Element} {id : String}
    {x : Action (Recorded H) (List Result)} (h : Settled w offered e id x)
    (hiff : offered' ↔ offered) : Settled w offered' e id x :=
  ⟨fun ho ↦ h.served (hiff.1 ho), fun hn ↦ h.refused fun ho ↦ hn (hiff.2 ho)⟩

omit [Depths] in
/-- An execution chooses a binding of the lambda that it is given, or no variant is chosen. -/
theorem Execution.resolve_some (x : Execution Location) (func : Option (Lambda Location))
    (ps : InputParameters) :
    (∃ spec, resolve (some x) func ps = .ok spec ∧ spec.func = func) ∨
      ∃ key value, resolve (some x) func ps = .error (.unmatchedKey key value) := by
  cases x with
  | single _ b => exact .inl ⟨_, rfl, rfl⟩
  | multi _ key variants =>
    rw [resolve, selectVariant]
    cases variant? variants (ps.value key) with
    | some v => exact .inl ⟨_, rfl, rfl⟩
    | none => exact .inr ⟨key, _, rfl⟩

/-! ### Commands of an element that was found

From here on a command comes without arguments. -/

omit [Depths] in
/-- Choosing no suite and no test chooses all. -/
theorem TestSuite.select_null {σ : Type} (suites : List (TestSuite σ)) :
    select suites .null .null = suites := by
  have hchoose : choose (σ := σ) .null .null = some := rfl
  rw [select, hchoose, List.filterMap_some]

/-- In a project that compiles to `m`, `e` is the element that the section has at its path. -/
structure Found (w : Workspace) (m : CompiledModel) (sec : Section) (e : Element) : Prop where
  sound : w.Sound
  compiled : Compiled.ofSections w.allSections = .model m
  held : w.Held sec
  element : sec.parse.element? e.path = some e

variable {k : Workers H} {m : CompiledModel} {sec : Section} {e : Element} {id : String}
  {ps : InputParameters}

section Found

variable (hf : Found w m sec e)

include hf

theorem Found.answers_parse : w.Answers (k.recorded.parse sec) (.ok sec.parse) :=
  .parse rfl hf.held

theorem Found.answers_compile : w.Answers k.recorded.compile (.ok (.model m)) :=
  hf.compiled ▸ .compile rfl hf.sound

namespace Testable

theorem answers_run_of_nil {tests : Suites} (htests : tests e = .ok []) :
    w.Answers (run tests k.server.surroundings ⟨sec, e.path, id, [], ps⟩)
      (.ok [.ofElement e.path .error ("Unable to find tests for " ++ e.path) e.source]) := by
  refine (hf.answers_parse).bind ?_
  rw [hf.element]
  dsimp only
  rw [htests]
  exact .pure _

theorem reaches_run {tests : Suites} {ss : List (TestSuite Location)} (htests : tests e = .ok ss)
    (hne : ss ≠ [])
    (hss : ServiceGrammar.suitesOf e = ss ∨ FunctionGrammar.suitesOf e = ss) :
    Reaches w (Call.Serves e Command.runTestsId)
      (run tests k.server.surroundings ⟨sec, e.path, id, [], ps⟩) := by
  refine .of_answers (hf.answers_parse) ?_
  rw [hf.element]
  dsimp only
  rw [htests]
  refine .of_answers (.ofExcept (.ok ss)) ?_
  have hselect : TestSuite.select ss
      (idGiven ⟨sec, e.path, id, [], ps⟩ suiteArg) (idGiven ⟨sec, e.path, id, [], ps⟩ testArg) = ss :=
    TestSuite.select_null ss
  rw [hselect]
  obtain ⟨first, rest, rfl⟩ := List.exists_cons_of_ne_nil hne
  refine .of_answers (hf.answers_compile) ?_
  refine .of_answers (.pure _) (.bind (.noted _ ⟨rfl, rfl, hss⟩) fun outcomes ↦ ?_)
  exact .ofExcept _

omit hf in
/-- Any other command is refused. -/
theorem answers_dispatch_of_ne {tests : Suites} {s : Surroundings (Recorded H)} {i : Invocation}
    (h : i.commandId ≠ Command.runTestsId) :
    w.Answers (dispatch tests s i)
      (.ok [.ofElement i.path .error ("Unsupported command: " ++ i.commandId) none]) := by
  rw [dispatch, if_neg h]
  exact .pure _

end Testable

namespace Executable

variable (x : ExecutionSupport (Recorded H))

theorem answers_run_of_none (hx : x.lambda e = .ok none) :
    w.Answers (run x k.recorded ⟨sec, e.path, id, [], ps⟩)
      (.ok [.ofElement e.path .error ("Entity " ++ e.path ++ " has nothing to execute") e.source]) := by
  refine .bind (a := .error (.ofElement e.path .error
    ("Entity " ++ e.path ++ " has nothing to execute") e.source)) ?_ (.pure _)
  refine (hf.answers_parse).bind ?_
  rw [hf.element]
  dsimp only
  rw [hx]
  exact .pure _

/-- An element with a lambda is executed if there is a plan of it. -/
theorem reaches_run {func : Lambda Location} (hx : x.lambda e = .ok (some func)) {P : Call → Prop}
    (hplan : Reaches w P (x.plan k.recorded e func m ps)) :
    Reaches w P (run x k.recorded ⟨sec, e.path, id, [], ps⟩) := by
  refine .bind ?_ fun p ↦ ?_
  · refine .of_answers (hf.answers_parse) ?_
    rw [hf.element]
    dsimp only
    rw [hx]
    refine .of_answers (.ofExcept (.ok (some func))) (.of_answers (hf.answers_compile) ?_)
    exact .bind hplan fun plan ↦ .pure _
  · cases p with
    | error r => exact .pure _
    | ok p =>
      have hexecutor : k.recorded.requirePlanExecutor = pure k.executor.recorded := rfl
      dsimp only
      rw [hexecutor, pure_bind]
      exact .bind (.noted _ _) fun output ↦ .bind (.ofExcept _) fun shown ↦ .pure _

/-- Where there is no plan there is no execution. -/
theorem answers_run_of_error {func : Lambda Location} (hx : x.lambda e = .ok (some func)) {f : Fault}
    (hplan : w.Answers (x.plan k.recorded e func m ps) (.error f)) :
    w.Answers (run x k.recorded ⟨sec, e.path, id, [], ps⟩) (.error f) := by
  refine .bind_error ?_
  refine (hf.answers_parse).bind ?_
  rw [hf.element]
  dsimp only
  rw [hx]
  refine (Workspace.Answers.ofExcept (.ok (some func))).bind ((hf.answers_compile).bind ?_)
  exact .bind_error hplan

end Executable

/-- The tests of an element are run if it has any. -/
theorem Testable.settled_run {tests : Suites} {ss : List (TestSuite Location)}
    (htests : tests e = .ok ss)
    (hss : ServiceGrammar.suitesOf e = ss ∨ FunctionGrammar.suitesOf e = ss) :
    Settled w (ss ≠ []) e Command.runTestsId
      (run tests k.server.surroundings ⟨sec, e.path, id, [], ps⟩) := by
  refine ⟨fun hne ↦ .inl (reaches_run hf htests hne hss), fun hnil ↦ ?_⟩
  rw [not_not] at hnil
  rw [hnil] at htests
  exact ⟨_, .told _ _, answers_run_of_nil hf htests⟩

namespace ServiceGrammar

theorem answers_findService :
    w.Answers (findService k.recorded sec e.path) (.ok (e.service?.map (e, ·))) := by
  refine (hf.answers_parse).bind ?_
  rw [hf.element]
  exact .pure _

theorem settled_runLegacyTests :
    Settled w (∃ service, e.service? = some service ∧ service.legacyTest.isSome) e
      Command.runLegacyTestsId
      (runLegacyTests k.server.surroundings ⟨sec, e.path, id, [], ps⟩) := by
  have hfind := answers_findService (k := k) hf
  cases hservice : e.service? with
  | none =>
    rw [hservice] at hfind
    refine ⟨?_, fun _ ↦ ⟨_, .told ("Unable to find service " ++ e.path) none, hfind.bind (.pure _)⟩⟩
    rintro ⟨_, h, -⟩
    cases h
  | some service =>
    rw [hservice] at hfind
    cases htest : service.legacyTest with
    | none =>
      refine ⟨?_, fun _ ↦ ⟨_, .told ("Unable to find legacy test for service " ++ e.path) e.source,
        hfind.bind ?_⟩⟩
      · rintro ⟨_, hsome, h⟩
        rw [← Option.some.inj hsome, htest] at h
        cases h
      · dsimp only [Option.map_some]
        rw [htest]
        exact .pure _
    | some test =>
      -- Parsing and compiling call nobody, so the first call there is is that of the runner.
      refine ⟨fun _ ↦ .inl (.of_answers hfind ?_), fun h ↦ absurd ⟨service, rfl, by rw [htest]; rfl⟩ h⟩
      dsimp only [Option.map_some]
      rw [htest]
      refine .of_answers (hf.answers_compile) (.bind ?_ fun runs ↦ ?_)
      · refine .noted_outcome _ ⟨rfl, rfl, ?_⟩
        rw [hservice]
        exact htest
      · cases runs with
        | ok runs => exact .ofExcept _
        | error f => exact .bind (.ofExcept _) fun r ↦ .pure _

theorem settled_register :
    Settled w (∃ service, e.service? = some service ∧ canRegister k.server.surroundings = true) e
      Command.registerId (register k.server.surroundings ⟨sec, e.path, id, [], ps⟩) := by
  have hfind := answers_findService (k := k) hf
  have hcan : canRegister k.server.surroundings = k.executionServer.isSome := Option.isSome_map
  have hrequire : k.server.surroundings.collaborators.requireExecutionServer =
      Collaborators.require "execution server" (k.executionServer.map (·.recorded)) := rfl
  rw [register]
  cases hservice : e.service? with
  | none =>
    rw [hservice] at hfind
    refine ⟨?_, fun _ ↦ ⟨_, .noService, hfind.bind (.ofExcept (.error _))⟩⟩
    rintro ⟨_, h, -⟩
    cases h
  | some service =>
    rw [hservice] at hfind
    cases hserver : k.executionServer with
    | none =>
      rw [hserver] at hcan hrequire
      refine ⟨?_, fun _ ↦ ⟨_, .noServer, hfind.bind (.bind_error ?_)⟩⟩
      · rintro ⟨_, -, h⟩
        rw [hcan] at h
        cases h
      · rw [hrequire]
        exact .ofExcept (.error _)
    | some server =>
      rw [hserver] at hcan hrequire
      refine ⟨fun _ ↦ .inl (.of_answers hfind ?_), fun h ↦ absurd ⟨service, rfl, hcan⟩ h⟩
      -- A project that compiles can be written, so nothing stops before the server is called.
      have hrs := DocumentProvider.recordsOf_of_parses
        fun s hs ↦ Compiled.parses_of_ofSections hf.compiled hs
      have hserialize := Workspace.Answers.serialize (c := k.recorded) (w := w) rfl
        (some (Registration.origin (.text e.path)))
      rw [hrs] at hserialize
      dsimp only [Option.map_some]
      rw [hrequire]
      refine .of_answers (.pure server.recorded) (.of_answers hserialize (.bind ?_ fun response ↦ ?_))
      · exact .noted _ ⟨rfl, rfl, rfl⟩
      · exact .bind (.ofExcept _) fun shown ↦ .pure _

theorem settled_run :
    Settled w ((lambda e).isSome) e Command.executeId
      (Executable.run execution k.recorded ⟨sec, e.path, id, [], ps⟩) := by
  cases hlambda : lambda e with
  | none =>
    exact ⟨fun h ↦ absurd h Bool.false_ne_true, fun _ ↦ ⟨_, .told _ _,
      Executable.answers_run_of_none hf execution (congrArg Except.ok hlambda)⟩⟩
  | some func =>
    refine ⟨fun _ ↦ ?_, fun h ↦ absurd rfl h⟩
    obtain ⟨service, hservice, x, hx, hfunc⟩ : ∃ service, e.service? = some service ∧
        ∃ x, service.execution = some x ∧ x.func = some func := by
      rw [lambda, Option.bind_eq_some_iff] at hlambda
      obtain ⟨x, hbind, hfunc⟩ := hlambda
      obtain ⟨service, hservice, hx⟩ := Option.bind_eq_some_iff.1 hbind
      exact ⟨service, hservice, x, hx, hfunc⟩
    have hexecution : (execution (H := Recorded H)).lambda e = .ok (some func) :=
      congrArg Except.ok hlambda
    -- Whether there is a plan depends on the parameters alone: a variant is chosen or none is.
    rcases Execution.resolve_some x (some func) ps with
      ⟨spec, hspec, hfunc⟩ | ⟨key, value, herror⟩
    · refine .inl (Executable.reaches_run hf execution hexecution ?_)
      show Reaches w _ (plan k.recorded e func m ps)
      rw [plan, hservice]
      dsimp only
      rw [hx, hspec]
      refine .of_answers (.ofExcept (.ok spec)) (.of_answers (.pure k.generator.recorded) ?_)
      exact .plan ⟨rfl, func, hfunc, .inl hlambda⟩ _ _ _
    · refine .inr ⟨key, value,
        Executable.answers_run_of_error hf execution hexecution ?_⟩
      show w.Answers (plan k.recorded e func m ps) _
      rw [plan, hservice]
      dsimp only
      rw [hx, herror]
      exact .bind_error (.ofExcept (.error _))

/-- **For services, what is offered is what is served.** -/
theorem settled_dispatch :
    Settled w ((extension (H := Recorded H)).Offered k.server.surroundings e id) e id
      ((extension (H := Recorded H)).dispatch k.server.surroundings ⟨sec, e.path, id, [], ps⟩) := by
  show Settled w _ e id (dispatch suites k.server.surroundings ⟨sec, e.path, id, [], ps⟩)
  have hoffered := offered_iff k.server.surroundings e id
  rw [dispatch, Executable.dispatch]
  dsimp only
  split
  · next hid =>
    subst hid
    refine (settled_runLegacyTests hf).congr (hoffered.trans ?_)
    simp [Command.runTestsId, Command.executeId, Command.registerId, Command.runLegacyTestsId]
  · next hlegacy =>
    split
    · next hid =>
      subst hid
      refine (settled_register hf).congr (hoffered.trans ?_)
      simp [Command.runTestsId, Command.executeId, Command.registerId, Command.runLegacyTestsId]
    · next hregister =>
      split
      · next hid =>
        subst hid
        refine (settled_run hf).congr (hoffered.trans ?_)
        simp [Command.runTestsId, Command.executeId, Command.registerId, Command.runLegacyTestsId]
      · next hexecute =>
        by_cases hid : id = Command.runTestsId
        · subst hid
          rw [Testable.dispatch, if_pos rfl]
          have htests : suites e = .ok (suitesOf e) := rfl
          refine (Testable.settled_run hf htests (.inl rfl)).congr (hoffered.trans ?_)
          simp [Command.runTestsId, Command.executeId, Command.registerId, Command.runLegacyTestsId]
        · refine ⟨fun h ↦ ?_, fun _ ↦ ⟨_, .told _ _, Testable.answers_dispatch_of_ne hid⟩⟩
          rcases hoffered.1 h with ⟨-, h⟩ | ⟨-, h⟩ | ⟨-, -, ⟨-, h⟩ | ⟨-, h⟩⟩
          · exact absurd h.symm hid
          · exact absurd h.symm hexecute
          · exact absurd h.symm hregister
          · exact absurd h.symm hlegacy

end ServiceGrammar

namespace FunctionGrammar

theorem settled_run :
    Settled w ((lambda e).isSome) e Command.executeId
      (Executable.run execution k.recorded ⟨sec, e.path, id, [], ps⟩) := by
  cases hlambda : lambda e with
  | none =>
    exact ⟨fun h ↦ absurd h Bool.false_ne_true, fun _ ↦ ⟨_, .told _ _,
      Executable.answers_run_of_none hf execution (congrArg Except.ok hlambda)⟩⟩
  | some func =>
    refine ⟨fun _ ↦ .inl ?_, fun h ↦ absurd rfl h⟩
    refine Executable.reaches_run hf execution (congrArg Except.ok hlambda) ?_
    refine .of_answers (.pure k.generator.recorded) ?_
    exact .plan ⟨rfl, func, rfl, .inr hlambda⟩ _ _ _

/-- **For functions, what is offered is what is served.** -/
theorem settled_dispatch :
    Settled w ((extension (H := Recorded H)).Offered k.server.surroundings e id) e id
      ((extension (H := Recorded H)).dispatch k.server.surroundings ⟨sec, e.path, id, [], ps⟩) := by
  show Settled w _ e id (Executable.dispatch execution (Testable.dispatch suites)
    k.server.surroundings ⟨sec, e.path, id, [], ps⟩)
  have hoffered := offered_iff k.server.surroundings e id
  rw [Executable.dispatch]
  dsimp only
  split
  · next hid =>
    subst hid
    refine (settled_run hf).congr (hoffered.trans ?_)
    simp [Command.runTestsId, Command.executeId]
  · next hexecute =>
    by_cases hid : id = Command.runTestsId
    · subst hid
      rw [Testable.dispatch, if_pos rfl]
      have htests : suites e = .ok (suitesOf e) := rfl
      refine (Testable.settled_run hf htests (.inr rfl)).congr (hoffered.trans ?_)
      simp [Command.runTestsId, Command.executeId]
    · refine ⟨fun h ↦ ?_, fun _ ↦ ⟨_, .told _ _, Testable.answers_dispatch_of_ne hid⟩⟩
      rcases hoffered.1 h with ⟨-, h⟩ | ⟨-, h⟩
      · exact absurd h.symm hid
      · exact absurd h.symm hexecute

end FunctionGrammar

namespace RuntimeGrammar

/-- Runtimes are offered nothing, and every command for them is refused. -/
theorem settled_dispatch :
    Settled w ((extension (H := Recorded H)).Offered k.server.surroundings e id) e id
      ((extension (H := Recorded H)).dispatch k.server.surroundings ⟨sec, e.path, id, [], ps⟩) := by
  show Settled w _ e id
    (Testable.dispatch Testable.noSuites k.server.surroundings ⟨sec, e.path, id, [], ps⟩)
  refine ⟨fun h ↦ absurd h not_offered, fun _ ↦ ?_⟩
  by_cases hid : id = Command.runTestsId
  · rw [Testable.dispatch, if_pos hid]
    exact ⟨_, .told _ _, Testable.answers_run_of_nil hf rfl⟩
  · exact ⟨_, .told _ _, Testable.answers_dispatch_of_ne hid⟩

end RuntimeGrammar

end Found

end ModelServer
