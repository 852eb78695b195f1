import ModelServer.Proofs.Grammar.Testing
import ModelServer.Proofs.Server.Project
import ModelServer.Proofs.Testing.Selection

/-!
# Tests in a project

What is said of selections and of reports is said of any suites and any reports, and what is said of running
tests of any project. Here the two are put together for the states that a server can be in: what the runner is
called with is the selection, and what is answered is what its report tells.
-/

namespace ModelServer.History

open Texts

variable {H : Type}

section After

variable [Depths] {v : Server (Recorded H)}
  (hp : v.collaborators.provider = DocumentProvider.provider)
  {host : Recorded H} {operations : List Operation} {s : Session (Recorded H)}
  (hs : s.workspace = (after v host operations).session.workspace)

include hp hs

/-- The project compiles to what the open texts compile to. -/
theorem ofSections_eq :
    Compiled.ofSections s.workspace.allSections =
      Compiled.ofSections (openAfter operations).allSections :=
  Except.ok.inj ((compile_apply hp hs).symm.trans (compile_eq_ofSections hp hs))

end After

/-- **The runner is handed what is selected, and called only for that.** Of all suites those are selected that
`TestSuite.Selection` says, whatever they are and whatever ids are wanted; to select by suite and by test at
once is to select by the one and then by the other, in either order, and to select twice is to select once. In
every state of a server, for any section that was ever handed out and in whatever way suites are found, the
runner is called with suites of an element exactly if nothing keeps them from being run, for which they have to
be what is selected, and not to be none; otherwise nobody is called, and there is one error (unless the way in
which suites are found fails by what has no text). So it is with every extension that is always there. -/
theorem run_selected [Depths] (v : Server (Recorded H))
    (hp : v.collaborators.provider = DocumentProvider.provider) (runner? : Option (TestRunner H))
    (ht : v.collaborators.testRunner = runner?.map (·.recorded)) (host : Recorded H)
    (operations : List Operation) {s : Session (Recorded H)}
    (hs : s.workspace = (after v host operations).session.workspace) {i : Invocation}
    (hsec : i.sec ∈ (after v host operations).handed) (tests : Testable.Suites) :
    let project := Compiled.ofSections (openAfter operations).allSections
    let run := Testable.run tests v.surroundings i s
    (∀ {σ : Type} (suites : List (TestSuite σ)) (suite test : Json),
      let chosen := TestSuite.select suites suite test
      TestSuite.Selection suites suite test chosen ∧
      TestSuite.select (TestSuite.select suites suite .null) .null test = chosen ∧
      TestSuite.select (TestSuite.select suites .null test) suite .null = chosen ∧
      TestSuite.select chosen suite test = chosen) ∧
    (∀ e chosen, run.2.host.calls = s.host.calls ++ [.runTestSuites e chosen] ↔
      Testable.Ready tests runner? project i e chosen) ∧
    ((∀ e chosen, ¬Testable.Ready tests runner? project i e chosen) →
      run.2.host.calls = s.host.calls ∧ (Fails i.path run.1 ∨
        ∃ e kind inner, tests e = .error (.mute kind inner) ∧ run.1 = .error (.mute kind inner))) ∧
    ∀ x ∈ Server.defaultExtensions, i.commandId = Command.runTestsId →
      x.dispatch v.surroundings i =
        Testable.run (fun e ↦ .ok (e.runnable x.name).suites) v.surroundings i := by
  intro project run
  have hw : s.workspace.Sound := sound_of_after hp hs
  have hheld : s.workspace.Held i.sec := hs ▸ (follows_after hp host operations).held i.sec hsec
  have hproject : Compiled.ofSections s.workspace.allSections = project := ofSections_eq hp hs
  have hcalled (e : Element) (chosen : List (TestSuite Location))
      (hr : Testable.Ready tests runner? project i e chosen) :
      run.2.host.calls = s.host.calls ++ [.runTestSuites e chosen] := by
    obtain ⟨m, hm⟩ := hr.compiles
    obtain ⟨runner, hrunner⟩ := Option.isSome_iff_exists.1 hr.runner
    obtain ⟨w', -, hrun⟩ := Testable.run_apply (u := v.surroundings) hp hheld hw ht hr
      (hproject.trans hm) hrunner hw.learns
    exact congrArg (fun out ↦ out.2.host.calls) hrun
  have hnobody (h : ∀ e chosen, ¬Testable.Ready tests runner? project i e chosen) :
      run.2.host.calls = s.host.calls ∧ (Fails i.path run.1 ∨
        ∃ e kind inner, tests e = .error (.mute kind inner) ∧ run.1 = .error (.mute kind inner)) := by
    rw [← hproject] at h
    obtain ⟨out, hanswers, hfails⟩ :=
      Testable.answers_run_of_not_ready (u := v.surroundings) hp hheld hw ht h
    obtain ⟨w', -, hrun⟩ := hanswers s hw.learns
    exact ⟨congrArg (fun out ↦ out.2.host.calls) hrun, (congrArg Prod.fst hrun).symm ▸ hfails⟩
  refine ⟨fun suites suite test ↦ ⟨TestSuite.selection_select suites suite test,
    TestSuite.select_suite_test suites suite test, TestSuite.select_test_suite suites suite test,
    TestSuite.select_select suites suite test⟩, fun e chosen ↦ ⟨fun hcalls ↦ ?_, hcalled e chosen⟩,
    hnobody, fun x hx hi ↦ x.dispatch_runTests hx v.surroundings hi⟩
  by_cases h : ∃ e' chosen', Testable.Ready tests runner? project i e' chosen'
  · -- There is one call, so it is that of what is ready.
    obtain ⟨e', chosen', h⟩ := h
    cases List.append_cancel_left (hcalls.symm.trans (hcalled e' chosen' h))
    exact h
  · have hsame := (hnobody fun e' chosen' hr ↦ h ⟨e', chosen', hr⟩).1
    rw [hcalls] at hsame
    simp at hsame

/-- **Reports become results, entry by entry or not at all.** Every list of runs of older tests whose
assertions have texts for names becomes as many results as there are assertions, in their order, and every list
of outcomes whose ids are texts as many as there are outcomes; each tells of its own entry, under its ids, and
is a success or a failure only if its name says just this. In every state of a server, with whatever runner
there is, what is answered when tests are run is what the report tells, or one error if an id is no text or the
runner fails by what can be put into words (`Answered`). Where something keeps tests from being run there is
one error too. -/
theorem reports_told [Depths] (v : Server (Recorded H))
    (hp : v.collaborators.provider = DocumentProvider.provider) (runner : TestRunner H)
    (ht : v.collaborators.testRunner = some runner.recorded) (host : Recorded H)
    (operations : List Operation) {s : Session (Recorded H)}
    (hs : s.workspace = (after v host operations).session.workspace) {m : CompiledModel}
    (hm : Compiled.ofSections (openAfter operations).allSections = .model m) {i : Invocation}
    (hsec : i.sec ∈ (after v host operations).handed) :
    (∀ path location runs, (∀ run ∈ runs, LegacyRun.Readable run) →
      ∃ rs, LegacyRun.results (.text path) runs location = .ok rs ∧
        List.Forall₂ (fun a r ↦ a.1.Tells path a.2 r) (LegacyRun.assertions runs) rs) ∧
    (∀ path suites fallback outcomes, (∀ o ∈ outcomes, TestOutcome.Readable o) →
      ∃ rs, TestOutcome.results (.text path) suites outcomes fallback = .ok rs ∧
        List.Forall₂ (fun o r ↦ o.Tells path r) outcomes rs) ∧
    (i.commandId = Command.runTestsId → ∀ x ∈ Server.defaultExtensions,
      let Ready := Testable.Ready (fun e ↦ .ok (e.runnable x.name).suites) (some runner) (.model m) i
      (∀ e chosen, Ready e chosen →
        ∃ w' out, s.workspace.Learns w' ∧
          let answer := runner.runTestSuites e chosen m v.collaborators.platformExtensions
            ⟨w', s.requests, s.host.host⟩
          Answered i.path .error (fun outcomes ↦ ∀ o ∈ outcomes, o.Readable)
            (List.Forall₂ fun o r ↦ o.Tells i.path r) answer.1 out ∧
          x.execute v.surroundings i s =
            (out, answer.2.withCalls (s.host.calls ++ [.runTestSuites e chosen]))) ∧
      ((∀ e chosen, ¬Ready e chosen) → x.Refuses v.surroundings i s)) ∧
    (i.commandId = Command.runLegacyTestsId →
      let Ready := ServiceGrammar.LegacyReady (some runner) (.model m) i
      let x := ServiceGrammar.extension
      (∀ e test, Ready e test →
        ∃ w' out, s.workspace.Learns w' ∧
          let answer := runner.runLegacyTests e test m v.collaborators.platformExtensions
            ⟨w', s.requests, s.host.host⟩
          Answered i.path (fun inner ↦ Extension.results i.path (.error inner))
            (fun runs ↦ ∀ run ∈ runs, run.Readable)
            (fun runs ↦ List.Forall₂ (fun a r ↦ a.1.Tells i.path a.2 r) (LegacyRun.assertions runs))
            answer.1 out ∧
          x.execute v.surroundings i s =
            (out, answer.2.withCalls (s.host.calls ++ [.runLegacyTests e test]))) ∧
      ((∀ e test, ¬Ready e test) → x.Refuses v.surroundings i s)) := by
  have hw : s.workspace.Sound := sound_of_after hp hs
  have hheld : s.workspace.Held i.sec := hs ▸ (follows_after hp host operations).held i.sec hsec
  have hcompiled := (ofSections_eq hp hs).trans hm
  have ht' : v.surroundings.collaborators.testRunner = (some runner).map (·.recorded) := ht
  refine ⟨fun path location runs ↦ LegacyRun.results_of_readable path location,
    fun path suites fallback outcomes h ↦ ?_, fun hi x hx ↦ ⟨fun e chosen hr ↦ ?_, fun hnot ↦ ?_⟩,
    fun hi ↦ ⟨fun e test hr ↦ ?_, fun hnot ↦ ?_⟩⟩
  · obtain ⟨rs, hrs, hall⟩ := TestOutcome.results_of_readable path suites fallback h
    exact ⟨rs, hrs, hall.imp fun _ _ ↦ And.left⟩
  · exact Extension.execute_runTests (u := v.surroundings) hp hheld hw ht' hcompiled rfl hw.learns hx hi hr
  · rw [← hcompiled] at hnot
    obtain ⟨out, hanswers, hfails | ⟨e, kind, inner, hmute, -⟩⟩ :=
      Testable.answers_run_of_not_ready (u := v.surroundings) hp hheld hw ht' hnot
    · rw [← Extension.dispatch_runTests hx v.surroundings hi] at hanswers
      exact Extension.refuses_of_fails hw hanswers hfails
    · cases hmute
  · exact ServiceGrammar.execute_runLegacyTests (u := v.surroundings) hp hheld hw ht' hcompiled rfl
      hw.learns hi hr
  · rw [← hcompiled] at hnot
    obtain ⟨out, hanswers, hfails⟩ :=
      ServiceGrammar.answers_runLegacyTests_of_not_ready (u := v.surroundings) hp hheld hw ht' hnot
    rw [← ServiceGrammar.dispatch_runLegacyTests v.surroundings hi] at hanswers
    exact Extension.refuses_of_fails hw hanswers hfails

/-- A document that declares a service with two tests in a suite, another suite without any, and an older
test. -/
def testedText : String :=
  "\x7b\"sections\":[\x7b\"grammar\":\"Service\",\"elements\":[" ++
    "\x7b\"kind\":\"service\",\"path\":\"s\",\"legacy_test\":\x7b\x7d,\"test_suites\":[" ++
    "\x7b\"id\":\"a\",\"tests\":[\x7b\"id\":\"t\"\x7d,\x7b\"id\":\"u\"\x7d]\x7d,\x7b\"id\":\"b\"\x7d]\x7d]\x7d]\x7d"

/-- The suites that it declares. -/
def testedSuites : List (TestSuite Location) :=
  [⟨"a", [⟨"t", none⟩, ⟨"u", none⟩], none⟩, ⟨"b", [], none⟩]

/-- What the second test failed by, and where. -/
def missingRow : Incident :=
  ⟨.plain .assertion "expected 1 row", [], some ["  File \"rows.py\", line 3, in u"], []⟩

/-- Of the first test that it succeeded, and of the second something that nobody knows, with what it failed
by. -/
def testedOutcomes : List TestOutcome :=
  [⟨.text "a", .text "t", none, .text "SUCCESS", .text "", none⟩,
    ⟨.text "a", .text "u", none, .text "ODD", .text "", some missingRow⟩]

/-- Of two assertions that they succeeded. The second has no text for a name. -/
def namelessRun : LegacyRun :=
  ⟨[(.text "x", .text "SUCCESS"), (.null, .text "SUCCESS")], []⟩

/-- Workers of which only the runner does anything: it reports that. -/
def testing : Workers Unit :=
  { Workers.idle with runner := ⟨fun _ _ _ _ ↦ pure [namelessRun], fun _ _ _ _ ↦ pure testedOutcomes⟩ }

/-- What has happened when the document was set for these workers. -/
def testedHistory [Depths] : History (Recorded Unit) :=
  after testing.server ⟨(), []⟩ [.set "a" testedText 1]

open Depths in
/-- The state of the server is one that comes of what has happened. -/
theorem session_testedHistory : testedHistory.session.workspace =
    (after testing.server ⟨(), []⟩ [.set "a" testedText 1]).session.workspace := by
  rw [testedHistory]

open Depths in
/-- The document is a project that compiles, and declares what it says. -/
theorem testedText_declares :
    (∃ m, Compiled.ofSections (openAfter [.set "a" testedText 1]).allSections = .model m) ∧
      ∃ sec ∈ testedHistory.handed, ∃ e service test, sec.parse.element? "s" = some e ∧
        e.service? = some service ∧ service.legacyTest = some test ∧ service.suites = testedSuites := by
  have h : ((testing.server.collaborators.compile testedHistory.session).1.toOption.any
        (·.model?.isSome) &&
      testedHistory.handed.any fun sec ↦ (sec.parse.element? "s").any fun e ↦
        e.service?.any fun service ↦
          service.legacyTest.isSome && decide (service.suites = testedSuites)) = true := by
    decide +kernel
  obtain ⟨hcompiles, hdeclares⟩ := Bool.and_eq_true_iff.1 h
  constructor
  · have hproject := compile_eq_ofSections (v := testing.server) rfl session_testedHistory
    rw [hproject] at hcompiles
    cases hmodel : Compiled.ofSections (openAfter [.set "a" testedText 1]).allSections with
    | model m => exact ⟨m, rfl⟩
    | faulty _ | nothing =>
      rw [hmodel] at hcompiles
      cases hcompiles
  · obtain ⟨sec, hsec, hany⟩ := List.any_eq_true.1 hdeclares
    obtain ⟨e, he, hany⟩ := (Option.any_eq_true _ _).1 hany
    obtain ⟨service, hservice, hboth⟩ := (Option.any_eq_true _ _).1 hany
    obtain ⟨hlegacy, hsuites⟩ := Bool.and_eq_true_iff.1 hboth
    obtain ⟨test, htest⟩ := Option.isSome_iff_exists.1 hlegacy
    exact ⟨sec, hsec, e, service, test, he, hservice, htest, of_decide_eq_true hsuites⟩

open Depths in
/-- The runner is called with the one test that is wanted. Nobody is called for a test that the wanted suite
does not have. -/
theorem run_testedText :
    ∃ sec ∈ testedHistory.handed, ∃ e,
      let run (args : List (String × String)) := Testable.run ServiceGrammar.suites
        testing.server.surroundings ⟨sec, "s", Command.runTestsId, args, []⟩ testedHistory.session
      (run [(Testable.suiteArg, "a"), (Testable.testArg, "u")]).2.host.calls =
        testedHistory.session.host.calls ++ [.runTestSuites e [⟨"a", [⟨"u", none⟩], none⟩]] ∧
      (run [(Testable.suiteArg, "b"), (Testable.testArg, "u")]).2.host.calls =
        testedHistory.session.host.calls := by
  obtain ⟨hcompiles, sec, hsec, e, service, -, he, hservice, -, hsuites⟩ := testedText_declares
  have hall : ServiceGrammar.suites e = .ok testedSuites := by
    rw [ServiceGrammar.suites, hservice, ← hsuites]
    rfl
  have hsec' : sec ∈ (after testing.server ⟨(), []⟩ [.set "a" testedText 1]).handed := by
    rwa [testedHistory] at hsec
  have hrun (args : List (String × String)) := run_selected testing.server rfl (some testing.runner) rfl
    ⟨(), []⟩ [.set "a" testedText 1] (s := testedHistory.session) session_testedHistory
    (i := ⟨sec, "s", Command.runTestsId, args, []⟩) hsec' ServiceGrammar.suites
  have hone : TestSuite.select testedSuites (.text "a") (.text "u") = [⟨"a", [⟨"u", none⟩], none⟩] := by
    decide
  have hnone : TestSuite.select testedSuites (.text "b") (.text "u") = [] := by decide
  have hready : Testable.Ready ServiceGrammar.suites (some testing.runner)
      (Compiled.ofSections (openAfter [.set "a" testedText 1]).allSections)
      ⟨sec, "s", Command.runTestsId, [(Testable.suiteArg, "a"), (Testable.testArg, "u")], []⟩ e
      [⟨"a", [⟨"u", none⟩], none⟩] :=
    ⟨he, ⟨testedSuites, hall, hone⟩, List.cons_ne_nil _ _, hcompiles, rfl⟩
  obtain ⟨-, hiff, -⟩ := hrun [(Testable.suiteArg, "a"), (Testable.testArg, "u")]
  obtain ⟨-, -, hnobody, -⟩ := hrun [(Testable.suiteArg, "b"), (Testable.testArg, "u")]
  refine ⟨sec, hsec, e, ?_⟩
  dsimp only
  refine ⟨(hiff e _).2 hready, (hnobody ?_).1⟩
  rintro e' chosen ⟨he', ⟨all, hall', hchosen⟩, hne, -, -⟩
  obtain rfl : e = e' := Option.some.inj (he.symm.trans he')
  obtain rfl : testedSuites = all := Except.ok.inj (hall.symm.trans hall')
  exact hne (hchosen.symm.trans hnone)

/-- The ids of the outcomes are texts. -/
theorem readable_testedOutcomes : ∀ o ∈ testedOutcomes, o.Readable := by
  simp only [testedOutcomes, List.forall_mem_cons, List.not_mem_nil, false_imp_iff, implies_true, and_true]
  exact ⟨⟨["a", "t"], rfl⟩, ["a", "u"], rfl⟩

/-- The second assertion has no text for a name. -/
theorem not_readable_namelessRun : ¬namelessRun.Readable := by
  intro h
  obtain ⟨assertion, hassertion⟩ := h (.null, .text "SUCCESS") (List.mem_cons_of_mem _ List.mem_cons_self)
  cases hassertion

open Depths in
/-- The two outcomes are told one by one, and the one that nobody knows is a warning, with all of what it
failed by. Of the two assertions nothing is told, since the second has no name. -/
theorem reports_of_testedText :
    ∃ sec ∈ testedHistory.handed,
      let run (id : String) := ServiceGrammar.extension.execute testing.server.surroundings
        ⟨sec, "s", id, [], []⟩ testedHistory.session
      (∃ r r', (run Command.runTestsId).1 = .ok [r, r'] ∧ r.outcome = .success ∧ r'.outcome = .warning ∧
        r'.message = "s.a.u: ODD\nTraceback (most recent call last):\n" ++
          "  File \"rows.py\", line 3, in u\nAssertionError: expected 1 row\n") ∧
      ∃ r, (run Command.runLegacyTestsId).1 = .ok [r] ∧ r.outcome = .error := by
  obtain ⟨⟨m, hm⟩, sec, hsec, e, service, test, he, hservice, htest, hsuites⟩ := testedText_declares
  have hall : (e.runnable "Service").suites = testedSuites := by
    show ServiceGrammar.suitesOf e = testedSuites
    rw [ServiceGrammar.suitesOf, hservice, ← hsuites]
    rfl
  have hsec' : sec ∈ (after testing.server ⟨(), []⟩ [.set "a" testedText 1]).handed := by
    rwa [testedHistory] at hsec
  have hrun (id : String) := reports_told testing.server rfl testing.runner rfl ⟨(), []⟩
    [.set "a" testedText 1] session_testedHistory hm (i := ⟨sec, "s", id, [], []⟩) hsec'
  refine ⟨sec, hsec, ?_, ?_⟩
  · have hready : Testable.Ready (fun e ↦ .ok (e.runnable "Service").suites) (some testing.runner)
        (.model m) ⟨sec, "s", Command.runTestsId, [], []⟩ e testedSuites :=
      ⟨he, ⟨testedSuites, congrArg Except.ok hall, rfl⟩, List.cons_ne_nil _ _, ⟨m, rfl⟩, rfl⟩
    obtain ⟨-, -, htests, -⟩ := hrun Command.runTestsId
    obtain ⟨w', out, -, hanswered, hexecute⟩ :=
      (htests rfl ServiceGrammar.extension List.mem_cons_self).1 e _ hready
    obtain ⟨rs, rfl, htells⟩ : ∃ rs, out = .ok rs ∧
        List.Forall₂ (fun o r ↦ TestOutcome.Tells "s" o r) testedOutcomes rs :=
      hanswered.tells readable_testedOutcomes
    obtain ⟨r, rest, hr, hrest, rfl⟩ := List.forall₂_cons_left_iff.1 htells
    obtain ⟨r', rest', hr', hrest', rfl⟩ := List.forall₂_cons_left_iff.1 hrest
    obtain rfl := List.forall₂_nil_left_iff.1 hrest'
    obtain ⟨ids, name, _, -, hname, -, hreports⟩ := hr
    obtain ⟨ids', name', added, hids, hname', hadds, hreports'⟩ := hr'
    obtain rfl := hname.eq_of_text
    obtain rfl := hname'.eq_of_text
    obtain rfl := hadds.unique (.trace missingRow.tells_trace)
    obtain rfl : ["a", "u"] = ids' :=
      List.map_injective_iff.2 (fun _ _ h ↦ Data.text.inj h) hids
    refine ⟨r, r', congrArg Prod.fst hexecute, hreports.success.2 rfl, hreports'.warning.2 (by decide), ?_⟩
    rw [hreports'.message]
    decide +kernel
  · obtain ⟨-, -, -, hlegacy⟩ := hrun Command.runLegacyTestsId
    obtain ⟨w', out, -, hanswered, hexecute⟩ := (hlegacy rfl).1 e test
      ⟨he, ⟨service, hservice, htest⟩, ⟨m, rfl⟩, rfl⟩
    obtain ⟨r, rfl, -, herror⟩ := hanswered.exists_error fun h ↦
      not_readable_namelessRun (h namelessRun List.mem_cons_self)
    exact ⟨r, congrArg Prod.fst hexecute, herror⟩

/-- Workers of which the runner raises what cannot be put into words. -/
def speechless : Workers Unit :=
  { Workers.idle with
    runner := ⟨fun _ _ _ _ ↦ .fail Server.unspeakable, fun _ _ _ _ ↦ .fail Server.unspeakable⟩ }

/-- What has happened when the document was set for these. -/
def speechlessHistory [Depths] : History (Recorded Unit) :=
  after speechless.server ⟨(), []⟩ [.set "a" testedText 1]

open Depths in
/-- **A runner that raises may leave no result behind**: it is called, and what the command ends in is the
fault of asking for the text of what it raised. -/
theorem tests_without_result :
    ∃ sec ∈ speechlessHistory.handed,
      let run := ServiceGrammar.extension.execute speechless.server.surroundings
        ⟨sec, "s", Command.runTestsId, [], []⟩ speechlessHistory.session
      Server.failure run.1 = "ValueError" ∧
        run.2.host.calls.length = speechlessHistory.session.host.calls.length + 1 := by
  have h : (speechlessHistory.handed.any fun sec ↦
      let run := ServiceGrammar.extension.execute speechless.server.surroundings
        ⟨sec, "s", Command.runTestsId, [], []⟩ speechlessHistory.session
      decide (Server.failure run.1 = "ValueError" ∧
        run.2.host.calls.length = speechlessHistory.session.host.calls.length + 1)) = true := by
    decide +kernel
  obtain ⟨sec, hsec, hrun⟩ := List.any_eq_true.1 h
  exact ⟨sec, hsec, of_decide_eq_true hrun⟩

end ModelServer.History
