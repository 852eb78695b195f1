import ModelServer.Proofs.Grammar.Uncompiled
import ModelServer.Proofs.Testing.Outcome

/-!
# How tests are run

To run tests is to find an element, to choose of its suites, to compile the project and to ask for a runner,
and each of the four may fail. The runner is called behind all of them, once, and it is handed what was chosen
and nothing else. `Testable.Ready` says when nothing fails; then all that comes of the command is what the
runner does (`Testable.run_apply`), and else it is one error, for which nobody is called
(`Testable.answers_run_of_not_ready`). Nothing is asked of the way in which suites are found, which each
grammar has of its own.

To run the older test of a service is the same, with a test in the place of the suites.

What a runner reports is taken up whole, or it is one error (`Answered`): a report with one id that is no
text leaves nothing behind of what was made of the ids before it. A runner that fails is one error too, as
long as what it fails by can be put into words.
-/

namespace ModelServer

variable {H : Type}

/-- What came of the command is one error of the element. -/
def Fails (path : String) (out : Except Fault (List Result)) : Prop :=
  ∃ r, Extension.results path out = .ok [r] ∧ r.ids = [path] ∧ r.outcome = .error

theorem fails_of_hasText {f : Fault} (h : f.HasText) (path : String) : Fails path (.error f) :=
  ⟨_, Extension.results_of_hasText h path, rfl, rfl⟩

theorem fails_of_told (path message : String) (location : Option Location) :
    Fails path (.ok [.ofElement path .error message location]) :=
  ⟨_, rfl, rfl, rfl⟩

theorem fails_of_worded (path : String) (f : Fault) (location : Option Location) :
    Fails path (.ok [.worded path f location]) :=
  ⟨_, rfl, rfl, rfl⟩

/-- What is answered when a runner reports: if it can be read, what `Tells` of the report, else one error.
If the runner fails there is one error in the words of what it failed by; if that has none, asking for them
ends in another fault, of which `retell` says what is answered. -/
inductive Answered {α : Type} (path : String) (retell : Fault → Except Fault (List Result))
    (Readable : α → Prop) (Tells : α → List Result → Prop) :
    Except Fault α → Except Fault (List Result) → Prop
  | told {report : α} {rs : List Result} (readable : Readable report) (tells : Tells report rs) :
    Answered path retell Readable Tells (.ok report) (.ok rs)
  | refused {report : α} {r : Result} (unreadable : ¬Readable report) (ids : r.ids = [path])
      (error : r.outcome = .error) : Answered path retell Readable Tells (.ok report) (.ok [r])
  | failed {f : Fault} {r : Result} (text : f.HasText) (ids : r.ids = [path])
      (error : r.outcome = .error) (message : r.message = Result.messageOf f.message) :
    Answered path retell Readable Tells (.error f) (.ok [r])
  | mute {kind : Kind} {inner : Fault} :
    Answered path retell Readable Tells (.error (.mute kind inner)) (retell inner)

/-- A report of which readable ones become results, and others a fault, is answered so. -/
theorem answered_of_results {α : Type} {path : String}
    {retell : Fault → Except Fault (List Result)} {Readable : α → Prop}
    {Tells : α → List Result → Prop} {results : α → Except Fault (List Result)}
    (hreadable : ∀ a, Readable a → ∃ rs, results a = .ok rs ∧ Tells a rs)
    (hunreadable : ∀ a, ¬Readable a → ∃ f, results a = .error f)
    (htext : ∀ a f, results a = .error f → f.HasText) (a : α) :
    Answered path retell Readable Tells (.ok a) (Extension.results path (results a)) := by
  by_cases h : Readable a
  · obtain ⟨rs, hrs, htells⟩ := hreadable a h
    rw [hrs]
    exact .told h htells
  · obtain ⟨f, hf⟩ := hunreadable a h
    obtain ⟨r, hr, hids, herror⟩ := fails_of_hasText (htext a f hf) path
    rw [hf, hr]
    exact .refused h hids herror

namespace Answered

variable {α : Type} {path : String} {retell : Fault → Except Fault (List Result)} {Readable : α → Prop}
  {Tells : α → List Result → Prop} {report : α} {out : Except Fault (List Result)}
  (h : Answered path retell Readable Tells (.ok report) out)

include h

theorem tells (hr : Readable report) : ∃ rs, out = .ok rs ∧ Tells report rs := by
  cases h with
  | told _ tells => exact ⟨_, rfl, tells⟩
  | refused unreadable => exact absurd hr unreadable

theorem exists_error (hr : ¬Readable report) :
    ∃ r, out = .ok [r] ∧ r.ids = [path] ∧ r.outcome = .error := by
  cases h with
  | told readable => exact absurd readable hr
  | refused _ ids error => exact ⟨_, rfl, ids, error⟩

end Answered

/-! ### The project and the runner -/

namespace Collaborators

/-- Goes on with the compiled project. One that does not compile is one error. -/
def compiling (c : Collaborators H) (path : String)
    (next : CompiledModel → Action H (List Result)) : Action H (List Result) := do
  match (← c.compile).toExcept with
  | .error f => return [f.result path]
  | .ok m => next m

section Compiling

variable [Depths] {c : Collaborators H} {w : Workspace} (hc : c.provider = DocumentProvider.provider)
  (hw : w.Sound) {path : String} {next : CompiledModel → Action H (List Result)}

include hc hw

theorem leadsTo_compiling {m : CompiledModel} (hm : Compiled.ofSections w.allSections = .model m) :
    w.LeadsTo (c.compiling path next) (next m) := by
  refine .bind (Workspace.Answers.compile hc hw) ?_
  rw [hm]
  exact .refl _

/-- Work that comes to compiling fails if what is left to do fails for every project. -/
theorem answers_of_leadsTo_compiling {act : Action H (List Result)}
    (hlead : w.LeadsTo act (c.compiling path next))
    (h : ∀ m, Compiled.ofSections w.allSections = .model m →
      ∃ out, w.Answers (next m) out ∧ Fails path out) :
    ∃ out, w.Answers act out ∧ Fails path out := by
  have hcompile := Workspace.Answers.compile hc hw
  cases hproject : Compiled.ofSections w.allSections with
  | model m =>
    obtain ⟨out, hout, hfails⟩ := h m hproject
    exact ⟨out, (hlead.trans (leadsTo_compiling hc hw hproject)).answers hout, hfails⟩
  | faulty f | nothing =>
    rw [hproject] at hcompile
    exact ⟨_, hlead.answers (hcompile.bind (.pure _)), _, rfl, rfl, rfl⟩

end Compiling

section Runner

variable {c : Collaborators (Recorded H)} {runner? : Option (TestRunner H)}
  (ht : c.testRunner = runner?.map (·.recorded))

include ht

/-- A runner that is there is given, and nothing changes. -/
theorem requireTestRunner_apply {runner : TestRunner H} (h : runner? = some runner)
    (s : Session (Recorded H)) : c.requireTestRunner s = (.ok runner.recorded, s) := by
  rw [requireTestRunner, ht, h]
  rfl

theorem requireTestRunner_of_none (h : runner? = none) :
    c.requireTestRunner = .fail (.unconfigured "test runner") := by
  rw [requireTestRunner, ht, h]
  rfl

end Runner

end Collaborators

variable {u : Surroundings (Recorded H)} {w : Workspace} {runner? : Option (TestRunner H)}
  {i : Invocation} {e : Element}

/-! ### Suites -/

namespace Testable

/-- Nothing keeps those suites of the element from being run: it is the first of the path in its section,
they are what the arguments choose of its suites, and are not none, the project compiles, and there is a
runner. -/
structure Ready (tests : Suites) (runner? : Option (TestRunner H)) (project : Compiled)
    (i : Invocation) (e : Element) (chosen : List (TestSuite Location)) : Prop where
  declared : i.sec.parse.element? i.path = some e
  selected : ∃ all, tests e = .ok all ∧
    TestSuite.select all (idGiven i suiteArg) (idGiven i testArg) = chosen
  occupied : chosen ≠ []
  compiles : ∃ m, project = .model m
  runner : runner?.isSome

variable {tests : Suites} {chosen : List (TestSuite Location)}

/-- The runner is called with the suites, and what it reports is made into results. -/
theorem runOn_apply (ht : u.collaborators.testRunner = runner?.map (·.recorded))
    {runner : TestRunner H} (hrunner : runner? = some runner) (e : Element) (path : String)
    (chosen : List (TestSuite Location)) (m : CompiledModel) (s : Session (Recorded H)) :
    let answer := runner.runTestSuites e chosen m u.collaborators.platformExtensions s.unrecorded
    runOn u.collaborators e path chosen m s =
      (answer.1.bind fun outcomes ↦ TestOutcome.results (.text path) chosen outcomes e.source,
        answer.2.withCalls (s.host.calls ++ [.runTestSuites e chosen])) := by
  have hcall : runner.recorded.runTestSuites e chosen m u.collaborators.platformExtensions =
      (runner.runTestSuites e chosen m u.collaborators.platformExtensions).noted
        (.runTestSuites e chosen) := rfl
  rw [runOn, Action.bind_of_ok (Collaborators.requireTestRunner_apply ht hrunner s), hcall,
    Action.noted_bind_ofExcept_apply]

theorem answers_runOn_of_none [Depths] (ht : u.collaborators.testRunner = runner?.map (·.recorded))
    (hrunner : runner? = none) (e : Element) (path : String) (chosen : List (TestSuite Location))
    (m : CompiledModel) :
    w.Answers (runOn u.collaborators e path chosen m) (.error (.unconfigured "test runner")) := by
  rw [runOn, Collaborators.requireTestRunner_of_none ht hrunner]
  exact .bind_error (.ofExcept (.error _))

/-- What is left to do when suites are chosen. -/
def runChosen (u : Surroundings H) (i : Invocation) (e : Element) :
    List (TestSuite Location) → Action H (List Result)
  | [] => return [.ofElement i.path .error ("Unable to find tests for " ++ i.path) e.source]
  | first :: rest =>
    u.collaborators.compiling i.path (runOn u.collaborators e i.path (first :: rest))

theorem runChosen_of_ne_nil {u : Surroundings H} {i : Invocation} {e : Element}
    {chosen : List (TestSuite Location)} (h : chosen ≠ []) :
    runChosen u i e chosen =
      u.collaborators.compiling i.path (runOn u.collaborators e i.path chosen) := by
  cases chosen with
  | nil => exact absurd rfl h
  | cons first rest => rfl

section Held

variable [Depths] (hc : u.collaborators.provider = DocumentProvider.provider) (hsec : w.Held i.sec)

include hc hsec

/-- When the element is found, and its suites, of these is chosen. -/
theorem leadsTo_runChosen (he : i.sec.parse.element? i.path = some e)
    {all : List (TestSuite Location)} (hall : tests e = .ok all) :
    w.LeadsTo (run tests u i)
      (runChosen u i e (TestSuite.select all (idGiven i suiteArg) (idGiven i testArg))) := by
  refine .bind (Workspace.Answers.parse hc hsec) ?_
  rw [he]
  dsimp only
  rw [hall]
  refine .bind (.ofExcept (.ok all)) ?_
  cases TestSuite.select all (idGiven i suiteArg) (idGiven i testArg) <;> exact .refl _

variable (hw : w.Sound) (ht : u.collaborators.testRunner = runner?.map (·.recorded))

include hw ht

/-- **Where nothing keeps suites from being run the runner is called once, with just these**, and what it
reports is made into results. -/
theorem run_apply {project : Compiled} (hr : Ready tests runner? project i e chosen) {m : CompiledModel}
    (hm : Compiled.ofSections w.allSections = .model m) {runner : TestRunner H}
    (hrunner : runner? = some runner) {s : Session (Recorded H)} (hs : w.Learns s.workspace) :
    ∃ w', w.Learns w' ∧
      let answer := runner.runTestSuites e chosen m u.collaborators.platformExtensions
        ⟨w', s.requests, s.host.host⟩
      run tests u i s =
        (answer.1.bind fun outcomes ↦
            TestOutcome.results (.text i.path) chosen outcomes e.source,
          answer.2.withCalls (s.host.calls ++ [.runTestSuites e chosen])) := by
  obtain ⟨all, hall, hchosen⟩ := hr.selected
  have hlead := leadsTo_runChosen hc hsec hr.declared hall
  rw [hchosen, runChosen_of_ne_nil hr.occupied] at hlead
  obtain ⟨w', hw', hrun⟩ := hlead.trans (Collaborators.leadsTo_compiling hc hw hm) s hs
  exact ⟨w', hw', hrun.trans (runOn_apply ht hrunner e i.path chosen m _)⟩

/-- **Where something does there is one error**, and nobody is called; unless the suites cannot be found by a
fault that has no text. -/
theorem answers_run_of_not_ready
    (h : ∀ e chosen, ¬Ready tests runner? (Compiled.ofSections w.allSections) i e chosen) :
    ∃ out, w.Answers (run tests u i) out ∧
      (Fails i.path out ∨ ∃ e kind inner, tests e = .error (.mute kind inner) ∧
        out = .error (.mute kind inner)) := by
  have hparse := Workspace.Answers.parse hc hsec
  cases he : i.sec.parse.element? i.path with
  | none =>
    have hrun : w.Answers (run tests u i)
        (.ok [.ofElement i.path .error ("Unable to find entity " ++ i.path) none]) := by
      refine hparse.bind ?_
      rw [he]
      exact .pure _
    exact ⟨_, hrun, .inl (fails_of_told ..)⟩
  | some e =>
    cases hall : tests e with
    | error f =>
      have hrun : w.Answers (run tests u i) (.error f) := by
        refine hparse.bind ?_
        rw [he]
        dsimp only
        rw [hall]
        exact .bind_error (.ofExcept (.error f))
      rcases f.hasText_or_mute with htext | ⟨kind, inner, rfl⟩
      · exact ⟨_, hrun, .inl (fails_of_hasText htext i.path)⟩
      · exact ⟨_, hrun, .inr ⟨e, kind, inner, hall, rfl⟩⟩
    | ok all =>
      have hlead := leadsTo_runChosen hc hsec he hall
      by_cases hnone : TestSuite.select all (idGiven i suiteArg) (idGiven i testArg) = []
      · rw [hnone] at hlead
        exact ⟨_, hlead.answers (.pure _), .inl (fails_of_told ..)⟩
      · rw [runChosen_of_ne_nil hnone] at hlead
        obtain ⟨out, hout, hfails⟩ :=
          Collaborators.answers_of_leadsTo_compiling hc hw hlead fun m hm ↦ by
            -- All else is there, so it is the runner that is missing.
            have hrunner : runner? = none := Option.not_isSome_iff_eq_none.1 fun hsome ↦
              h e _ ⟨he, ⟨all, hall, rfl⟩, hnone, ⟨m, hm⟩, hsome⟩
            exact ⟨_, answers_runOn_of_none ht hrunner e i.path _ m,
              fails_of_hasText (f := .unconfigured "test runner") rfl i.path⟩
        exact ⟨out, hout, .inl hfails⟩

end Held

end Testable

/-! ### Older tests -/

namespace ServiceGrammar

/-- Nothing keeps the older test of the element from being run: the element is the first of the path in its
section, and is a service with that test, the project compiles, and there is a runner. -/
structure LegacyReady (runner? : Option (TestRunner H)) (project : Compiled) (i : Invocation)
    (e : Element) (test : LegacyTest Location) : Prop where
  declared : i.sec.parse.element? i.path = some e
  tested : ∃ service, e.service? = some service ∧ service.legacyTest = some test
  compiles : ∃ m, project = .model m
  runner : runner?.isSome

variable {test : LegacyTest Location}

/-- Runs the older test, a fault that has a text being one result. -/
def runAndTell (c : Collaborators H) (e : Element) (path : String) (test : LegacyTest Location)
    (m : CompiledModel) : Action H (List Result) := do
  match ← (runLegacyOn c e test m).outcome with
  | .error f => return [← Action.ofExcept (Result.ofFault path f e.source)]
  | .ok runs => Action.ofExcept (LegacyRun.results (.text path) runs e.source)

/-- What the results of a runner's report are. -/
def resultsOf (path : String) (location : Option Location) :
    Except Fault (List LegacyRun) → Except Fault (List Result)
  | .error f => (Result.ofFault path f location).map ([·])
  | .ok runs => LegacyRun.results (.text path) runs location

/-- The runner is called with the test, and what it reports is made into results. -/
theorem runAndTell_apply (ht : u.collaborators.testRunner = runner?.map (·.recorded))
    {runner : TestRunner H} (hrunner : runner? = some runner) (e : Element) (path : String)
    (test : LegacyTest Location) (m : CompiledModel) (s : Session (Recorded H)) :
    let answer := runner.runLegacyTests e test m u.collaborators.platformExtensions s.unrecorded
    runAndTell u.collaborators e path test m s =
      (resultsOf path e.source answer.1,
        answer.2.withCalls (s.host.calls ++ [.runLegacyTests e test])) := by
  intro answer
  have hcall : runLegacyOn u.collaborators e test m s =
      (answer.1, answer.2.withCalls (s.host.calls ++ [.runLegacyTests e test])) := by
    rw [runLegacyOn, Action.bind_of_ok (Collaborators.requireTestRunner_apply ht hrunner s)]
    rfl
  rw [runAndTell, Action.bind_of_ok (Action.outcome_apply _ s), hcall]
  cases answer.1 with
  | error f =>
    dsimp only [resultsOf]
    cases Result.ofFault path f e.source <;> rfl
  | ok runs =>
    dsimp only [resultsOf]
    cases LegacyRun.results (.text path) runs e.source <;> rfl

theorem answers_runAndTell_of_none [Depths]
    (ht : u.collaborators.testRunner = runner?.map (·.recorded))
    (hrunner : runner? = none) (e : Element) (path : String) (test : LegacyTest Location)
    (m : CompiledModel) :
    w.Answers (runAndTell u.collaborators e path test m)
      (.ok [.worded path (.unconfigured "test runner") e.source]) := by
  rw [runAndTell, runLegacyOn, Collaborators.requireTestRunner_of_none ht hrunner]
  exact fun s hs ↦ ⟨s.workspace, hs, rfl⟩

section Held

variable [Depths] (hc : u.collaborators.provider = DocumentProvider.provider) (hsec : w.Held i.sec)

include hc hsec

/-- To look for the service is to look for the first element of the path. -/
theorem answers_findService_of_held :
    w.Answers (findService u.collaborators i.sec i.path)
      (.ok ((i.sec.parse.element? i.path).bind fun e ↦ e.service?.map (e, ·))) :=
  (Workspace.Answers.parse hc hsec).bind_pure _

/-- When the test is found the project is compiled. -/
theorem leadsTo_runLegacyTests (he : i.sec.parse.element? i.path = some e)
    {service : Service Location} (hservice : e.service? = some service)
    (htest : service.legacyTest = some test) :
    w.LeadsTo (runLegacyTests u i)
      (u.collaborators.compiling i.path (runAndTell u.collaborators e i.path test)) := by
  refine .bind (answers_findService_of_held hc hsec) ?_
  rw [he, Option.bind_some, hservice]
  dsimp only [Option.map_some]
  rw [htest]
  exact .refl _

variable (hw : w.Sound) (ht : u.collaborators.testRunner = runner?.map (·.recorded))

include hw ht

/-- **Where nothing keeps the older test from being run the runner is called once, with just this test.** -/
theorem runLegacyTests_apply {project : Compiled} (hr : LegacyReady runner? project i e test)
    {m : CompiledModel} (hm : Compiled.ofSections w.allSections = .model m) {runner : TestRunner H}
    (hrunner : runner? = some runner) {s : Session (Recorded H)} (hs : w.Learns s.workspace) :
    ∃ w', w.Learns w' ∧
      let answer := runner.runLegacyTests e test m u.collaborators.platformExtensions
        ⟨w', s.requests, s.host.host⟩
      runLegacyTests u i s =
        (resultsOf i.path e.source answer.1,
          answer.2.withCalls (s.host.calls ++ [.runLegacyTests e test])) := by
  obtain ⟨service, hservice, htest⟩ := hr.tested
  have hlead := leadsTo_runLegacyTests hc hsec hr.declared hservice htest
  obtain ⟨w', hw', hrun⟩ := hlead.trans (Collaborators.leadsTo_compiling hc hw hm) s hs
  exact ⟨w', hw', hrun.trans (runAndTell_apply ht hrunner e i.path test m _)⟩

/-- **Where something does there is one error**, and nobody is called. -/
theorem answers_runLegacyTests_of_not_ready
    (h : ∀ e test, ¬LegacyReady runner? (Compiled.ofSections w.allSections) i e test) :
    ∃ out, w.Answers (runLegacyTests u i) out ∧ Fails i.path out := by
  have hfind := answers_findService_of_held hc hsec
  cases hfound : (i.sec.parse.element? i.path).bind fun e ↦ e.service?.map (e, ·) with
  | none =>
    have hrun : w.Answers (runLegacyTests u i)
        (.ok [.ofElement i.path .error ("Unable to find service " ++ i.path) none]) := by
      refine hfind.bind ?_
      rw [hfound]
      exact .pure _
    exact ⟨_, hrun, fails_of_told ..⟩
  | some found =>
    obtain ⟨e, he, hmap⟩ := Option.bind_eq_some_iff.1 hfound
    obtain ⟨service, hservice, rfl⟩ := Option.map_eq_some_iff.1 hmap
    cases htest : service.legacyTest with
    | none =>
      have hrun : w.Answers (runLegacyTests u i) (.ok [.ofElement i.path .error
          ("Unable to find legacy test for service " ++ i.path) e.source]) := by
        refine hfind.bind ?_
        rw [hfound]
        dsimp only
        rw [htest]
        exact .pure _
      exact ⟨_, hrun, fails_of_told ..⟩
    | some test =>
      have hlead := leadsTo_runLegacyTests hc hsec he hservice htest
      refine Collaborators.answers_of_leadsTo_compiling hc hw hlead fun m hm ↦ ?_
      -- As for suites, it is the runner that is missing.
      have hrunner : runner? = none := Option.not_isSome_iff_eq_none.1 fun hsome ↦
        h e test ⟨he, ⟨service, hservice, htest⟩, ⟨m, hm⟩, hsome⟩
      exact ⟨_, answers_runAndTell_of_none ht hrunner e i.path test m, fails_of_worded ..⟩

end Held

/-- A command to run the older test is handled as such. -/
theorem dispatch_runLegacyTests [Depths] (u : Surroundings (Recorded H)) {i : Invocation}
    (hi : i.commandId = Command.runLegacyTestsId) : extension.dispatch u i = runLegacyTests u i := by
  show dispatch suites u i = _
  rw [dispatch, if_pos hi]

end ServiceGrammar

/-! ### Through the extensions -/

/-- **Tests are run in the same way by every extension that is always there**; all that differs is where
their suites are. -/
theorem Extension.dispatch_runTests [Depths] {x : Extension H} (hx : x ∈ Server.defaultExtensions)
    (u : Surroundings H) {i : Invocation} (hi : i.commandId = Command.runTestsId) :
    x.dispatch u i = Testable.run (fun e ↦ .ok (e.runnable x.name).suites) u i := by
  simp only [Server.defaultExtensions, List.mem_cons, List.not_mem_nil, or_false] at hx
  rcases hx with rfl | rfl | rfl
  · show ServiceGrammar.dispatch ServiceGrammar.suites u i = _
    rw [ServiceGrammar.dispatch, hi, if_neg (by decide), if_neg (by decide), Executable.dispatch, hi,
      if_neg (by decide), Testable.dispatch, if_pos hi]
    rfl
  · exact if_pos hi
  · show Executable.dispatch FunctionGrammar.execution (Testable.dispatch FunctionGrammar.suites) u i = _
    rw [Executable.dispatch, hi, if_neg (by decide), Testable.dispatch, if_pos hi]
    rfl

section Execute

variable {x : Extension (Recorded H)}

/-- All that comes of the command is one error of the element; more may be remembered. -/
def Extension.Refuses [Depths] (x : Extension (Recorded H)) (u : Surroundings (Recorded H))
    (i : Invocation) (s : Session (Recorded H)) : Prop :=
  ∃ w' r, s.workspace.Learns w' ∧ r.ids = [i.path] ∧ r.outcome = .error ∧
    x.execute u i s = (.ok [r], { s with workspace := w' })

theorem Extension.refuses_of_fails [Depths] {out : Except Fault (List Result)}
    {s : Session (Recorded H)}
    (hw : s.workspace.Sound) (h : s.workspace.Answers (x.dispatch u i) out) (hf : Fails i.path out) :
    x.Refuses u i s := by
  obtain ⟨w', hw', hrun⟩ := h s hw.learns
  obtain ⟨r, hr, hids, herror⟩ := hf
  refine ⟨w', r, hw', hids, herror, ?_⟩
  rw [x.execute_apply, hrun, hr]

variable [Depths] (hc : u.collaborators.provider = DocumentProvider.provider) (hsec : w.Held i.sec)
  (hw : w.Sound)
  (ht : u.collaborators.testRunner = runner?.map (·.recorded)) {m : CompiledModel}
  (hm : Compiled.ofSections w.allSections = .model m) {runner : TestRunner H}
  (hrunner : runner? = some runner) {s : Session (Recorded H)} (hs : w.Learns s.workspace)

include hc hsec hw ht hm hrunner hs

/-- **What is reported of tests is told entry by entry, or is one error.** -/
theorem Extension.execute_runTests (hx : x ∈ Server.defaultExtensions)
    (hi : i.commandId = Command.runTestsId) {project : Compiled} {chosen : List (TestSuite Location)}
    (hr : Testable.Ready (fun e ↦ .ok (e.runnable x.name).suites) runner? project i e chosen) :
    ∃ w' out, w.Learns w' ∧
      let answer := runner.runTestSuites e chosen m u.collaborators.platformExtensions
        ⟨w', s.requests, s.host.host⟩
      Answered i.path .error (fun outcomes ↦ ∀ o ∈ outcomes, o.Readable)
        (List.Forall₂ fun o r ↦ o.Tells i.path r) answer.1 out ∧
      x.execute u i s = (out, answer.2.withCalls (s.host.calls ++ [.runTestSuites e chosen])) := by
  obtain ⟨w', hw', hrun⟩ := Testable.run_apply hc hsec hw ht hr hm hrunner hs
  refine ⟨w', _, hw', ?_, by rw [x.execute_apply, Extension.dispatch_runTests hx u hi, hrun]⟩
  cases (runner.runTestSuites e chosen m u.collaborators.platformExtensions
    ⟨w', s.requests, s.host.host⟩).1 with
  | error f =>
    rcases f.hasText_or_mute with htext | ⟨kind, inner, rfl⟩
    · exact Extension.results_of_hasText htext i.path ▸ .failed htext rfl rfl rfl
    · exact .mute
  | ok outcomes =>
    refine answered_of_results (fun outcomes h ↦ ?_)
      (fun outcomes ↦ TestOutcome.results_of_not_readable i.path chosen e.source)
      (fun outcomes f ↦ TestOutcome.hasText_of_results) outcomes
    obtain ⟨rs, hrs, hall⟩ := TestOutcome.results_of_readable i.path chosen e.source h
    exact ⟨rs, hrs, hall.imp fun _ _ ↦ And.left⟩

/-- **And so is what is reported of older tests.** -/
theorem ServiceGrammar.execute_runLegacyTests (hi : i.commandId = Command.runLegacyTestsId)
    {project : Compiled} {test : LegacyTest Location} (hr : LegacyReady runner? project i e test) :
    ∃ w' out, w.Learns w' ∧
      let answer := runner.runLegacyTests e test m u.collaborators.platformExtensions
        ⟨w', s.requests, s.host.host⟩
      Answered i.path (fun inner ↦ Extension.results i.path (.error inner))
        (fun runs ↦ ∀ run ∈ runs, run.Readable)
        (fun runs ↦ List.Forall₂ (fun a r ↦ a.1.Tells i.path a.2 r) (LegacyRun.assertions runs))
        answer.1 out ∧
      extension.execute u i s =
        (out, answer.2.withCalls (s.host.calls ++ [.runLegacyTests e test])) := by
  obtain ⟨w', hw', hrun⟩ := runLegacyTests_apply hc hsec hw ht hr hm hrunner hs
  refine ⟨w', _, hw', ?_, by rw [extension.execute_apply, dispatch_runLegacyTests u hi, hrun]⟩
  cases (runner.runLegacyTests e test m u.collaborators.platformExtensions
    ⟨w', s.requests, s.host.host⟩).1 with
  | error f =>
    dsimp only [resultsOf]
    rcases f.hasText_or_mute with htext | ⟨kind, inner, rfl⟩
    · rw [Result.ofFault_of_hasText htext]
      exact .failed htext rfl rfl rfl
    · exact .mute
  | ok runs =>
    exact answered_of_results (fun _ ↦ LegacyRun.results_of_readable i.path e.source)
      (fun _ ↦ LegacyRun.results_of_not_readable i.path e.source)
      (fun _ _ ↦ LegacyRun.hasText_of_results) runs

end Execute

end ModelServer
