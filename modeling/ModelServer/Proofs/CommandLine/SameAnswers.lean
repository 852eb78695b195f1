import ModelServer.Server.Handlers
import ModelServer.Proofs.CommandLine.Pairs
import ModelServer.Proofs.CommandLine.Run
import ModelServer.Proofs.Json.Depth
import ModelServer.Proofs.Model.Options
import ModelServer.Proofs.Server.Boundary
import ModelServer.Proofs.Server.SideBySide

/-!
# The program answers as the server does

To run a command from a command line is to open documents, to take the first one that declares the
element, and to make the request that a client would send as a payload. `Reports` says that what is
printed is what the handler answers to that payload, wherever the server has the same documents open.
`Ends` says that an invocation comes to an end before anything is run; that is what becomes of arguments
and parameters that are `Unusable`.

The sessions in which the two make the request have little in common: the program has just opened its
documents, while the server may have had them set in any order, with others in between that are gone
again, and may have answered other requests since. That the request comes to the same in both is
`Server.agrees_runCommand`; collaborators see no more of a session than the host
(`Collaborators.OnHost`), which is left the same too.

All this is for command lines whose values can be read. One that is nested too deep is a fault here,
whereas a client sends it as any other (`nested_value_not_answered`).
-/

namespace ModelServer

variable {H : Type}

/-! ### Requests as payloads -/

/-- Texts by name are read back from the record of them. -/
theorem values_textMembers (entries : List (String × String)) :
    Schema.values Schema.text (textMembers entries) = .ok entries := by
  induction entries with
  | nil => rfl
  | cons e rest ih =>
    have hcons : textMembers (e :: rest) = (e.1, .text e.2) :: textMembers rest := rfl
    rw [hcons, Schema.values, ih]
    rfl

/-- Where any value will do, every record is read as it is. -/
theorem values_any (ms : Members) : Schema.values Schema.any ms = .ok ms := by
  induction ms with
  | nil => rfl
  | cons m rest ih =>
    rw [Schema.values, ih]
    rfl

namespace Api.ExecuteRequest

/-- The members of the payload in which a client sends a request that names no section. -/
def members (r : ExecuteRequest) : Members :=
  [("uri", .text r.uri), ("entity_path", .text r.entityPath), ("command_id", .text r.commandId),
    ("executable_args", .record (textMembers r.executableArgs)),
    ("input_parameters", .record r.inputParameters)]

/-- The payload in which a client sends a request that names no section. -/
def payload (r : ExecuteRequest) : Json :=
  .record r.members

/-- The request is read from its payload. -/
theorem reader_payload {r : ExecuteRequest} (h : r.sectionIndex = none) :
    reader r.payload = .ok r := by
  have hargs : Schema.fieldOr "executable_args" (Schema.dictionary Schema.text) [] r.members =
      .ok r.executableArgs := by
    show (Schema.values Schema.text (textMembers r.executableArgs)).under _ = _
    rw [values_textMembers]
    rfl
  have hps : Schema.fieldOr "input_parameters" (Schema.dictionary Schema.any) [] r.members =
      .ok r.inputParameters := by
    show (Schema.values Schema.any r.inputParameters).under _ = _
    rw [values_any]
    rfl
  rw [payload, reader, Schema.record, hargs, hps]
  show Schema.Checked.ok (⟨r.uri, none, r.entityPath, r.commandId, r.executableArgs,
    r.inputParameters⟩ : ExecuteRequest) = _
  rw [← h]

end Api.ExecuteRequest

/-- The handler makes the request that is sent. -/
theorem Server.executeCommand_payload (v : Server H) {r : Api.ExecuteRequest}
    (h : r.sectionIndex = none) (s : Session H) :
    executeCommand (.ok v) r.payload s = (v.runCommand r >>= fun rs ↦ pure (resultsJson rs)) s := by
  have hread : Api.ExecuteRequest.reader (.record r.members) = .ok r :=
    Api.ExecuteRequest.reader_payload h
  have hmembers : payloadMembers Command.executeRequest r.payload = .ok r.members :=
    payloadMembers_of_record _ (.inl rfl)
  rw [executeCommand, hmembers, Action.bind_ofExcept_apply, hread]
  exact Action.bind_ofExcept_apply _ _ _

namespace CommandLine

open Workspace

variable {sh : Shell H} {src : Sources} {v : Server H} {entity uri : String} {words : List String}

/-- In a session of the server those texts are open, the host is that one, and no request is carried.
How the texts came to be open makes no difference, nor does what is remembered of them. -/
structure Serves [Depths] (v : Server H) (texts : Texts) (host : H) (t : Session H) : Prop where
  host : t.host = host
  free : t.requests.carried = none
  workspace : ∃ host' operations,
    (History.after v host' operations).session.workspace.Learns t.workspace ∧
      ∀ id, (Texts.openAfter operations).text? id = texts.text? id

/-- **The command line reports what the handler answers**: it prints the list of the results, and its
status is 1 if one of them is an error or a failure. The host is left as the handler leaves it. Only where
a collaborator may raise what has no text there need be no results, and then both end in the same fault. -/
def Reports [Depths] (sh : Shell H) (src : Sources) (v : Server H) (words : List String)
    (r : Api.ExecuteRequest) : Prop :=
  ∀ host,
    (∃ rs : List Result,
      (run sh words (.new host)).1 =
          .finished
            (if ∃ result ∈ rs, result.outcome = .error ∨ result.outcome = .failure then 1 else 0)
            (printed (.list (rs.map Result.toJson))) "" ∧
        ∀ t, Serves v (sh.texts src) host t →
          (Server.executeCommand (.ok v) r.payload t).1 =
              .ok (.record [("results", .list (rs.map Result.toJson))]) ∧
            (Server.executeCommand (.ok v) r.payload t).2.host = (run sh words (.new host)).2.host) ∨
    ¬v.collaborators.Articulate ∧ ∃ f,
      (run sh words (.new host)).1 = .failed f ∧
        ∀ t, Serves v (sh.texts src) host t →
          (Server.executeCommand (.ok v) r.payload t).1 = .error f ∧
            (Server.executeCommand (.ok v) r.payload t).2.host = (run sh words (.new host)).2.host

/-- The command line comes to that report, and nobody but those who read documents has been asked for
anything. -/
def Ends [Depths] (sh : Shell H) (words : List String) (report : Report) : Prop :=
  ∀ host, ∃ w, run sh words (.new host) = (report, { Session.new host with workspace := w })

/-- The report of work that ended early. -/
def Stop.report : Stop → Report
  | usage u => .refused u
  | fault f => .failed f

/-- Why the arguments and parameters of a command line cannot be used. -/
inductive Unusable [Depths] (args params : List String) : Stop → Prop
  | argument {e : String} (he : e ∈ args) (h : Pairs.Malformed e) :
      Unusable args params (.usage (Pairs.split.refusal "--arg" e))
  | parameter {e : String} {stop : Stop} (he : e ∈ params) (h : Pairs.Unfit "--param" e stop) :
      Unusable args params stop

/-- What is left to do for a command when the document is found. -/
def execution [Depths] (v : Server H) (uri entity command : String) (args params : List String) :
    Run H Report := do
  let executableArgs ← Run.ofUsage (Pairs.texts "--arg" args)
  let inputParameters ← Run.ofStop (Pairs.values "--param" params)
  let results ← Run.ofAction
    (v.runCommand ⟨uri, none, entity, command, executableArgs, inputParameters⟩)
  return reportResults results

theorem runExecute_eq [Depths] (sh : Shell H) (src : Sources) (entity command : String)
    (args params : List String) :
    runExecute sh src entity command args params = sh.start src >>= fun p ↦
      documentOf p.1 entity p.2 >>= fun uri ↦ execution p.1 uri entity command args params :=
  rfl

/-- **What cannot be used ends the work**, for the reason of one of those there are, and nothing has been
done. -/
theorem execution_of_unusable [Depths] {args params : List String}
    (h : ∃ stop, Unusable args params stop) (v : Server H) (uri entity command : String) :
    ∃ stop, Unusable args params stop ∧
      ∀ s, execution v uri entity command args params s = (.error stop, s) := by
  by_cases hargs : ∃ e ∈ args, Pairs.Malformed e
  · obtain ⟨e, he, hbad, htexts⟩ := Pairs.texts_of_malformed hargs "--arg"
    refine ⟨_, .argument he hbad, fun s ↦ ?_⟩
    rw [execution, htexts]
    rfl
  · -- The arguments are fine, so it is the parameters.
    obtain ⟨as, has, rfl⟩ := Pairs.eq_map_entry hargs
    have hparams : ∃ e ∈ params, ∃ stop, Pairs.Unfit "--param" e stop := by
      obtain ⟨stop, hstop⟩ := h
      cases hstop with
      | argument he hbad => exact absurd ⟨_, he, hbad⟩ hargs
      | parameter he hunfit => exact ⟨_, he, _, hunfit⟩
    obtain ⟨e, he, stop, hunfit, hvalues⟩ := Pairs.values_of_unfit hparams
    refine ⟨stop, .parameter he hunfit, fun s ↦ ?_⟩
    rw [execution, Pairs.texts_entries has, hvalues]
    rfl

/-! ### Before the request -/

/-- The documents of an invocation are open to a server in which they were set. -/
theorem Shell.Opens.serves [Depths] (h : sh.Opens src v) (host : H) :
    Serves v (sh.texts src) host (History.after v host (sh.opening src)).session := by
  obtain ⟨hp, -⟩ := of_start h.started
  obtain ⟨w, hs⟩ : ∃ w, (History.after v host (sh.opening src)).session =
      { Session.new host with workspace := w } :=
    Shell.foldl_setting_session hp (src.paths.map Path.plain) (History.start host)
  have hhost : (History.after v host (sh.opening src)).session.host = host := by
    rw [hs]
    rfl
  have hfree : (History.after v host (sh.opening src)).session.requests.carried = none := by
    rw [hs]
    rfl
  exact ⟨hhost, hfree, host, sh.opening src, (History.follows_after hp host _).sound.learns,
    fun _ ↦ rfl⟩

/-- The program finds the document, and is then in a session like that of a server. -/
theorem Shell.Opens.find_apply [Depths] (h : sh.Opens src v)
    (hfirst : (sh.ids src).find? ((sh.texts src).declares entity) = some uri) (host : H) :
    ∃ s₀ w, sh.start src (.new host) = (.ok (v, sh.ids src), s₀) ∧
      documentOf v entity (sh.ids src) s₀ =
        (.ok uri, { Session.new host with workspace := w }) ∧
      (History.after v host (sh.opening src)).session.workspace.Learns w := by
  obtain ⟨hp, -⟩ := of_start h.started
  have hf := History.follows_after hp host (sh.opening src)
  obtain ⟨w₀, hs₀⟩ : ∃ w₀, (History.after v host (sh.opening src)).session =
      { Session.new host with workspace := w₀ } :=
    Shell.foldl_setting_session hp (src.paths.map Path.plain) (History.start host)
  obtain ⟨w, hw, hrun⟩ := yields_documentOf hp hf hfirst _ hf.sound.learns
  refine ⟨_, w, h.start_apply host, ?_, hw⟩
  rw [hrun, hs₀]

theorem run_of_perform [Depths] {i : Invocation} (hwords : Invocation.ofWords words = .ok i)
    {s s' : Session H} {report : Report} (h : perform sh i s = (.ok report, s')) :
    run sh words s = (report, s') := by
  rw [run, hwords]
  dsimp only
  rw [h]

theorem run_of_stop [Depths] {i : Invocation} (hwords : Invocation.ofWords words = .ok i)
    {s s' : Session H} {stop : Stop} (h : perform sh i s = (.error stop, s')) :
    run sh words s = (stop.report, s') := by
  rw [run, hwords]
  dsimp only
  rw [h]
  cases stop <;> rfl

/-! ### The request -/

/-- What the program reports of a request that it makes is what the handler answers to it. -/
theorem Shell.Opens.reports [Depths] (h : sh.Opens src v) (hc : v.collaborators.OnHost)
    {r : Api.ExecuteRequest} (hr : r.sectionIndex = none)
    (hrun : ∀ host, ∃ w, (History.after v host (sh.opening src)).session.workspace.Learns w ∧
      ∃ i, Invocation.ofWords words = .ok i ∧ perform sh i (.new host) =
        (Run.ofAction (v.runCommand r) >>= fun rs ↦ pure (reportResults rs))
          { Session.new host with workspace := w }) :
    Reports sh src v words r := by
  obtain ⟨hp, hx⟩ := of_start h.started
  intro host
  obtain ⟨w, hw, i, hwords, hperform⟩ := hrun host
  rcases hrequest : v.runCommand r { Session.new host with workspace := w } with ⟨out, s'⟩
  -- The handler comes to the same in every session that serves these documents.
  have hserver (t : Session H) (ht : Serves v (sh.texts src) host t) :
      v.runCommand r t = (out, (v.runCommand r t).2) ∧ (v.runCommand r t).2.host = s'.host := by
    obtain ⟨host', operations, hlearns, htexts⟩ := ht.workspace
    have hsame := History.sameTexts_after hp host host' fun id ↦ (htexts id).symm
    have htwins : Twins (History.after v host (sh.opening src)).session.workspace
        (History.after v host' operations).session.workspace
        { Session.new host with workspace := w } t :=
      ⟨hw, hlearns, ht.host.symm, rfl, ht.free⟩
    obtain ⟨hresult, htwins'⟩ := Server.agrees_runCommand hp (fun x hmem ↦ hx ▸ hmem) hc hsame r htwins
    rw [hrequest] at hresult htwins'
    exact ⟨Prod.ext hresult.symm rfl, htwins'.host.symm⟩
  cases out with
  | ok rs =>
    have hstatus : (rs.any (·.outcome.isFailing) = true) =
        ∃ result ∈ rs, result.outcome = .error ∨ result.outcome = .failure := by
      simp only [List.any_eq_true, Outcome.isFailing_iff]
    have hreport : run sh words (.new host) = (reportResults rs, s') :=
      run_of_perform hwords (hperform.trans (Run.bind_of_ok (Run.ofAction_of_ok hrequest) _))
    refine .inl ⟨rs, ?_, fun t ht ↦ ?_⟩
    · rw [hreport, reportResults]
      simp only [hstatus]
    · obtain ⟨hanswer, hhost⟩ := hserver t ht
      rw [Server.executeCommand_payload v hr, Action.bind_of_ok hanswer, hreport]
      exact ⟨rfl, hhost⟩
  | error f =>
    have hreport : run sh words (.new host) = (.failed f, s') :=
      run_of_stop hwords (hperform.trans (Run.bind_of_error (Run.ofAction_of_error hrequest) _))
    refine .inr ⟨fun hworded ↦ ?_, f, congrArg Prod.fst hreport, fun t ht ↦ ?_⟩
    · obtain ⟨rs, s'', hanswer, -⟩ := Server.always_runCommand hp hx hworded r
        { Session.new host with workspace := w }
      rw [hrequest] at hanswer
      cases hanswer
    · obtain ⟨hanswer, hhost⟩ := hserver t ht
      rw [Server.executeCommand_payload v hr, Action.bind_of_error hanswer, hreport]
      exact ⟨rfl, hhost⟩

/-- **A command that is run on an element** is the request with the dictionaries that the arguments and
parameters make. -/
theorem Shell.Opens.reports_execute [Depths] (h : sh.Opens src v) (hc : v.collaborators.OnHost)
    (hfirst : (sh.ids src).find? ((sh.texts src).declares entity) = some uri) {command : String}
    {as ps : List (String × String)}
    (hwords : Invocation.ofWords words =
      .ok (.execute src entity command (as.map Pairs.entry) (ps.map Pairs.entry)))
    (has : ∀ p ∈ as, Pairs.IsName p.1) (hps : ∀ p ∈ ps, Pairs.IsName p.1 ∧ Pairs.Shallow p.2) :
    Reports sh src v words ⟨uri, none, entity, command, Dictionary.ofList as,
      Dictionary.ofList (Dictionary.mapValues (fun _ text ↦ Pairs.denoted text) ps)⟩ := by
  refine h.reports hc rfl fun host ↦ ?_
  obtain ⟨s₀, w, hstart, hfind, hw⟩ := h.find_apply hfirst host
  refine ⟨w, hw, _, hwords, ?_⟩
  rw [perform, runExecute_eq, Run.bind_of_ok hstart, Run.bind_of_ok hfind, execution,
    Pairs.texts_entries has, Pairs.values_entries hps]
  rfl

/-- **Tests that are run** are the request for the tests of the suite and of that name, where these are
given. -/
theorem Shell.Opens.reports_test [Depths] (h : sh.Opens src v) (hc : v.collaborators.OnHost)
    (hfirst : (sh.ids src).find? ((sh.texts src).declares entity) = some uri)
    {suite test : Option String} {legacy : Bool}
    (hwords : Invocation.ofWords words = .ok (.test src entity suite test legacy))
    (hsuite : test.isSome = true → suite.isSome = true) :
    Reports sh src v words ⟨uri, none, entity,
      if legacy then Command.runLegacyTestsId else Command.runTestsId,
      (suite.map fun id ↦ ("testSuite", id)).toList ++ (test.map fun id ↦ ("test", id)).toList,
      []⟩ := by
  refine h.reports hc rfl fun host ↦ ?_
  obtain ⟨s₀, w, hstart, hfind, hw⟩ := h.find_apply hfirst host
  refine ⟨w, hw, _, hwords, ?_⟩
  have hgiven : (test.isSome && suite.isNone) = false := by
    cases test with
    | none => rfl
    | some _ => rw [Option.isNone_eq_false_iff.2 (hsuite rfl), Bool.and_false]
  rw [perform, runTest, hgiven, if_neg Bool.false_ne_true]
  dsimp only
  rw [Run.bind_of_ok hstart]
  dsimp only
  rw [Run.bind_of_ok hfind]

/-! ### No request -/

/-- **What cannot be used ends the work**, for the reason of one of those there are. -/
theorem Shell.Opens.ends_of_unusable [Depths] (h : sh.Opens src v)
    (hfirst : (sh.ids src).find? ((sh.texts src).declares entity) = some uri) {command : String}
    {args params : List String}
    (hwords : Invocation.ofWords words = .ok (.execute src entity command args params))
    (hunusable : ∃ stop, Unusable args params stop) :
    ∃ stop, Unusable args params stop ∧ Ends sh words stop.report := by
  obtain ⟨stop, hunusable, hrun⟩ := execution_of_unusable hunusable v uri entity command
  refine ⟨stop, hunusable, fun host ↦ ?_⟩
  obtain ⟨s₀, w, hstart, hfind, -⟩ := h.find_apply hfirst host
  refine ⟨w, run_of_stop hwords ?_⟩
  rw [perform, runExecute_eq, Run.bind_of_ok hstart, Run.bind_of_ok hfind, hrun]

/-- A test is looked for in a suite, so there must be one. -/
theorem ends_test_without_suite [Depths] {test : String} {legacy : Bool}
    (hwords : Invocation.ofWords words = .ok (.test src entity none (some test) legacy)) :
    Ends sh words (.refused (.invalid "--test requires --suite")) := by
  intro host
  have hstop : perform sh (.test src entity none (some test) legacy) (.new host) =
      (.error (.usage (.invalid "--test requires --suite")), .new host) := rfl
  exact ⟨.empty, run_of_stop hwords hstop⟩

/-! ### The command line and the server -/

/-- **The program answers as the server does.** Take an invocation whose documents can be opened, and an
element that one of them declares; the request is made of the first document that does.

A command is run with the arguments and parameters that are given, the last one counting where a name is
given twice, and tests are run of the suite and of the name that are given. Each is reported as the
handler answers it. What cannot be used ends the work before anything is run: an entry that is malformed,
a value that is nested too deep to be read, or the name of a test without that of a suite. -/
theorem answers_as_server [Depths] (h : sh.Opens src v) (hc : v.collaborators.OnHost)
    (hdeclared : ∃ id ∈ sh.ids src, (sh.texts src).declares entity id = true) :
    ∃ uri, (sh.ids src).find? ((sh.texts src).declares entity) = some uri ∧
      (∀ words command as ps,
        Invocation.ofWords words =
          .ok (.execute src entity command (as.map Pairs.entry) (ps.map Pairs.entry)) →
        (∀ p ∈ as, Pairs.IsName p.1) → (∀ p ∈ ps, Pairs.IsName p.1 ∧ Pairs.Shallow p.2) →
          Reports sh src v words ⟨uri, none, entity, command, Dictionary.ofList as,
            Dictionary.ofList (Dictionary.mapValues (fun _ text ↦ Pairs.denoted text) ps)⟩) ∧
      (∀ words suite test legacy,
        Invocation.ofWords words = .ok (.test src entity suite test legacy) →
        (test.isSome = true → suite.isSome = true) →
          Reports sh src v words ⟨uri, none, entity,
            if legacy then Command.runLegacyTestsId else Command.runTestsId,
            (suite.map fun id ↦ ("testSuite", id)).toList ++
              (test.map fun id ↦ ("test", id)).toList, []⟩) ∧
      (∀ words command args params,
        Invocation.ofWords words = .ok (.execute src entity command args params) →
        (∃ stop, Unusable args params stop) →
          ∃ stop, Unusable args params stop ∧ Ends sh words stop.report) ∧
      ∀ words test legacy,
        Invocation.ofWords words = .ok (.test src entity none (some test) legacy) →
          Ends sh words (.refused (.invalid "--test requires --suite")) := by
  obtain ⟨uri, hfirst⟩ := Option.isSome_iff_exists.1 (List.find?_isSome.2 hdeclared)
  exact ⟨uri, hfirst,
    fun _ _ _ _ hwords has hps ↦ h.reports_execute hc hfirst hwords has hps,
    fun _ _ _ _ hwords hsuite ↦ h.reports_test hc hfirst hwords hsuite,
    fun _ _ _ _ hwords hunusable ↦ h.ends_of_unusable hfirst hwords hunusable,
    fun _ _ _ hwords ↦ ends_test_without_suite hwords⟩

/-! ### A directory with one document -/

/-- A document that declares a function. -/
def sampleText : String :=
  "\x7b\"sections\":[\x7b\"grammar\":\"Function\",\"elements\":[" ++
    "\x7b\"kind\":\"function\",\"path\":\"m::f\",\"func\":\x7b\x7d\x7d]\x7d]\x7d"

/-- Settings that name those who plan and execute. -/
def sampleSettings : String :=
  "[collaborators]\nplan_generator = 'plans:make'\nplan_executor = 'plans:run'\n"

/-- The same plan for everything. -/
def sampleGenerator : PlanGenerator (List Value) :=
  ⟨fun _ _ _ _ ↦ pure (.text "plan")⟩

/-- Runs a plan, which the host keeps, and answers with it. -/
def sampleExecutor : PlanExecutor (List Value) :=
  ⟨fun plan _ _ s ↦ (.ok (.value plan), { s with host := plan :: s.host })⟩

/-- A directory in which there are that document and those settings. -/
def sample : Shell (List Value) where
  environment := ⟨fun _ ↦ none, ⟨fun _ ↦ .ok sampleGenerator, fun _ ↦ .ok sampleExecutor,
    fun _ ↦ .error .tooDeep⟩, fun _ ↦ .fail .tooDeep, ⟨[], []⟩⟩
  directory := "/workspace"
  file path :=
    if path = "model.json" then .octets sampleText.toUTF8.toList
    else if path = Settings.fileName then .octets sampleSettings.toUTF8.toList
    else .missing

/-- What a command line names that names the document. -/
def sampleSources : Sources :=
  ⟨["model.json"], ".", none⟩

/-- The server with those settings. -/
def sampleServer [Depths] : Server (List Value) :=
  ⟨⟨DocumentProvider.provider, some sampleGenerator, some sampleExecutor, none, none, ⟨[], []⟩⟩,
    Server.defaultExtensions⟩

/-- Its collaborators raise nothing. -/
theorem articulate_sampleServer [Depths] : sampleServer.collaborators.Articulate where
  provider := DocumentProvider.articulate
  generator g hg := by
    obtain rfl := Option.some.inj hg
    exact fun _ _ _ _ _ _ hf ↦ nomatch hf
  executor k hk := by
    obtain rfl := Option.some.inj hk
    refine ⟨fun _ _ _ _ _ hf ↦ (nomatch hf), fun plan ps q t output houtput f hf ↦ ?_⟩
    obtain rfl := Except.ok.inj houtput
    cases hf
  runner t ht := nomatch ht
  server x hx := nomatch hx

theorem plain_sample : Path.plain "model.json" = "model.json" := by
  have hsteps : "model.json".splitOn "/" = ["model.json"] := by
    simp +decide [String.splitOn, String.splitOnAux]
  rw [Path.plain, Path.steps, hsteps]
  decide

theorem settingsPath_sample : Shell.settingsPath sampleSources = "conduit.toml" := by
  have hsteps : "./conduit.toml".splitOn "/" = [".", "conduit.toml"] := by
    simp +decide [String.splitOn, String.splitOnAux]
  show Path.plain "./conduit.toml" = _
  rw [Path.plain, Path.steps, hsteps]
  decide

theorem documentId_sample : sample.documentId "model.json" = "file:///workspace/model.json" := by
  have hsteps : "/workspace/model.json".splitOn "/" = ["", "workspace", "model.json"] := by
    simp +decide [String.splitOn, String.splitOnAux]
  have hstart : "model.json".startsWith "/" = false := by simp
  have hwhole : "/workspace" ++ "/" ++ "model.json" = "/workspace/model.json" := rfl
  have habsolute : Url.absolute "/workspace" "model.json" = "/workspace/model.json" := by
    rw [Url.absolute, hstart, if_neg Bool.false_ne_true, hwhole, hsteps]
    decide
  show Url.ofFile (Url.absolute "/workspace" "model.json") = _
  rw [habsolute]
  decide +kernel

theorem readText_sample : sample.readText "model.json" = .ok sampleText := by
  have hdecode : FileContent.decode sampleText.toUTF8.toList = .ok sampleText :=
    eq_ok_of_toOption (by decide +kernel)
  exact hdecode

open Depths in
theorem opens_sample : sample.Opens sampleSources sampleServer where
  started := by
    have hread : Settings.read (.octets sampleSettings.toUTF8.toList) (fun _ ↦ none) =
        .ok ⟨none, none, [(.planGenerator, "plans:make"), (.planExecutor, "plans:run")]⟩ :=
      eq_ok_of_toOption (by decide +kernel)
    have hfile : sample.file "conduit.toml" = .octets sampleSettings.toUTF8.toList := rfl
    rw [settingsPath_sample, hfile, Server.start]
    show (Settings.read (.octets sampleSettings.toUTF8.toList) (fun _ ↦ none) >>= _) = _
    rw [hread]
    rfl
  readable := by
    have hparts : (splitSections sampleText).toOption.isSome = true := by decide +kernel
    obtain ⟨parts, hparts⟩ := Option.isSome_iff_exists.1 hparts
    intro path hpath
    obtain rfl := List.mem_singleton.1 hpath
    rw [plain_sample]
    exact ⟨sampleText, parts, readText_sample, eq_ok_of_toOption hparts⟩

theorem ids_sample : sample.ids sampleSources = ["file:///workspace/model.json"] := by
  rw [Shell.ids, sampleSources, List.map_singleton, List.map_singleton, plain_sample,
    documentId_sample]

open Depths in
theorem declares_sample :
    (sample.texts sampleSources).declares "m::f" "file:///workspace/model.json" = true := by
  have htext : sample.text "model.json" = sampleText := by
    rw [Shell.text, readText_sample]
    rfl
  have hopening : sample.opening sampleSources =
      [.set "file:///workspace/model.json" sampleText 0] := by
    rw [Shell.opening, Shell.setting, sampleSources, List.map_singleton, List.map_singleton,
      plain_sample, documentId_sample, htext]
  rw [Shell.texts, hopening]
  decide +kernel

open Depths in
theorem onHost_sample : sampleServer.collaborators.OnHost where
  generate g hg _ _ _ _ := by
    obtain rfl : sampleGenerator = g := Option.some.inj hg
    exact ⟨fun host ↦ (.ok (.text "plan"), host), fun _ _ ↦ rfl⟩
  execute k hk plan _ := by
    obtain rfl : sampleExecutor = k := Option.some.inj hk
    exact ⟨fun host ↦ (.ok (.value plan), plan :: host), fun _ _ ↦ rfl⟩
  runTestSuites := nofun
  runLegacyTests := nofun
  post := nofun

theorem ofWords_sample {p : Profile} (hp : p ∈ Profile.all) (hpaths : p.takesPaths = true)
    {rest : List String} {o : List (String × String)}
    (hscan : scan p.options true ("model.json" :: rest) = .ok ⟨o, ["model.json"]⟩)
    (hhelp : Scan.has helpOption.name ⟨o, ["model.json"]⟩ = false)
    (hoptions : Profile.checkOptions ⟨o, ["model.json"]⟩ = .ok ())
    (hpresent : p.checkPresent ⟨o, ["model.json"]⟩ = .ok ()) :
    Invocation.ofWords (p.name :: "model.json" :: rest) =
      .ok (Invocation.ofScan p ⟨o, ["model.json"]⟩) := by
  have hcommand : Invocation.ofWords (p.name :: "model.json" :: rest) =
      Invocation.ofCommand p ("model.json" :: rest) := by
    simp only [Profile.all, List.mem_cons, List.not_mem_nil, or_false] at hp
    rcases hp with rfl | rfl | rfl | rfl | rfl <;> rfl
  have hrefusal : Path.refusal? "model.json" = none := by
    rw [Path.refusal?, String.contains_char_eq]
    decide
  have hwords : p.checkWords ⟨o, ["model.json"]⟩ = .ok () := by
    rw [Profile.checkWords, hpaths]
    show (Profile.checkPath Profile.pathsArgument "model.json" >>= fun _ ↦ pure ()) = _
    rw [Profile.checkPath, hrefusal]
    rfl
  have hcheck : p.check ⟨o, ["model.json"]⟩ = .ok () := by
    rw [Profile.check, hoptions, hwords]
    exact hpresent
  rw [hcommand, Invocation.ofCommand, hscan]
  show (if Scan.has helpOption.name ⟨o, ["model.json"]⟩ = true then _
    else p.check ⟨o, ["model.json"]⟩ >>= fun _ ↦ pure _) = _
  rw [hhelp, if_neg Bool.false_ne_true, hcheck]
  rfl

open Depths in
/-- In that directory a command with arguments and parameters is reported as the handler answers it, and
so are tests; an argument without a name is refused. -/
theorem sample_answers_as_server :
    Serves sampleServer (sample.texts sampleSources) []
        (History.after sampleServer [] (sample.opening sampleSources)).session ∧
      Reports sample sampleSources sampleServer
        ["execute", "model.json", "--entity", "m::f", "--arg", "a=b", "--arg", "a=c=d",
          "--param", "x=[1, 2]", "--param", "y=[1"]
        ⟨"file:///workspace/model.json", none, "m::f", Command.executeId, [("a", "c=d")],
          [("x", .list [.int 1, .int 2]), ("y", .text "[1")]⟩ ∧
      Reports sample sampleSources sampleServer
        ["test", "model.json", "--entity", "m::f", "--suite", "s"]
        ⟨"file:///workspace/model.json", none, "m::f", Command.runTestsId, [("testSuite", "s")], []⟩ ∧
      ∃ stop, Unusable ["=b"] [] stop ∧
        Ends sample ["execute", "model.json", "--entity", "m::f", "--arg", "=b"] stop.report := by
  have hdeclared : ∃ id ∈ sample.ids sampleSources,
      (sample.texts sampleSources).declares "m::f" id = true := by
    rw [ids_sample]
    exact ⟨_, List.mem_singleton_self _, declares_sample⟩
  obtain ⟨uri, huri, hexecute, htest, hunusable, -⟩ :=
    answers_as_server opens_sample onHost_sample hdeclared
  rw [ids_sample, List.find?_cons_of_pos declares_sample] at huri
  obtain rfl := Option.some.inj huri
  refine ⟨opens_sample.serves [], ?_, ?_, ?_⟩
  · have hx : Pairs.Shallow "[1, 2]" ∧ Pairs.denoted "[1, 2]" = .list [.int 1, .int 2] :=
      Pairs.decode_eq_ok_iff.1 rfl
    have hy : Pairs.Shallow "[1" ∧ Pairs.denoted "[1" = .text "[1" :=
      Pairs.decode_eq_ok_iff.1 rfl
    have hwords : Invocation.ofWords ["execute", "model.json", "--entity", "m::f", "--arg", "a=b",
        "--arg", "a=c=d", "--param", "x=[1, 2]", "--param", "y=[1"] =
        .ok (.execute sampleSources "m::f" Command.executeId
          ([("a", "b"), ("a", "c=d")].map Pairs.entry)
          ([("x", "[1, 2]"), ("y", "[1")].map Pairs.entry)) :=
      ofWords_sample (p := .execute) (by decide) rfl (o := [("--entity", "m::f"), ("--arg", "a=b"),
        ("--arg", "a=c=d"), ("--param", "x=[1, 2]"), ("--param", "y=[1")]) rfl rfl rfl rfl
    have hps : Dictionary.mapValues (fun _ text ↦ Pairs.denoted text)
        [("x", "[1, 2]"), ("y", "[1")] = [("x", .list [.int 1, .int 2]), ("y", .text "[1")] := by
      rw [Dictionary.mapValues, List.map_cons, List.map_singleton, hx.2, hy.2]
    have hreport := hexecute _ _ _ _ hwords (by decide)
      (List.forall_mem_cons.2 ⟨⟨by decide, hx.1⟩, List.forall_mem_singleton.2 ⟨by decide, hy.1⟩⟩)
    rw [hps] at hreport
    exact hreport
  · exact htest _ (some "s") none false (ofWords_sample (p := .test) (by decide) rfl
      (o := [("--entity", "m::f"), ("--suite", "s")]) rfl rfl rfl rfl) fun _ ↦ rfl
  · exact hunusable _ Command.executeId ["=b"] [] (ofWords_sample (p := .execute) (by decide) rfl
      (o := [("--entity", "m::f"), ("--arg", "=b")]) rfl rfl rfl rfl)
      ⟨_, .argument (List.mem_singleton_self _) (.inr rfl)⟩

open Depths in
/-- **A value that is JSON may be nested too deep for the command line**: then it ends in a fault, where
the handler answers the request with that value. -/
theorem nested_value_not_answered :
    ∃ f results,
      (run sample ["execute", "model.json", "--entity", "m::f", "--command", "nonsense", "--param",
        Pairs.entry ("k", String.ofList (Json.brackets 1999))] (.new [])).1 = .failed f ∧
      (Server.executeCommand (.ok sampleServer)
        (⟨"file:///workspace/model.json", none, "m::f", "nonsense", [], [("k", Json.nested 1999)]⟩ :
          Api.ExecuteRequest).payload
        (History.after sampleServer [] (sample.opening sampleSources)).session).1 =
          .ok (.record [("results", .list results)]) := by
  have hwords (e : String) : Invocation.ofWords ["execute", "model.json", "--entity", "m::f",
      "--command", "nonsense", "--param", e] =
      .ok (.execute sampleSources "m::f" "nonsense" [] [e]) :=
    ofWords_sample (p := .execute) (by decide) rfl
      (o := [("--entity", "m::f"), ("--command", "nonsense"), ("--param", e)]) rfl rfl rfl rfl
  have hfirst : (sample.ids sampleSources).find? ((sample.texts sampleSources).declares "m::f") =
      some "file:///workspace/model.json" := by
    rw [ids_sample, List.find?_cons_of_pos declares_sample]
  obtain ⟨f, hread, hdepth⟩ := Json.read_brackets_of_le (n := 1999) (by decide)
  have hunfit : Pairs.Unfit "--param" (Pairs.entry ("k", String.ofList (Json.brackets 1999)))
      (.fault (.unreadable f)) := .deep (by decide) rfl hread hdepth
  obtain ⟨stop, hunusable, hends⟩ := opens_sample.ends_of_unusable hfirst (hwords _)
    ⟨_, .parameter (List.mem_singleton_self _) hunfit⟩
  have hstop : stop = .fault (.unreadable f) := by
    cases hunusable with
    | argument he _ => exact absurd he List.not_mem_nil
    | parameter he h =>
      rw [List.mem_singleton.1 he] at h
      exact Except.error.inj
        ((Pairs.member_eq_error_iff.2 h).symm.trans (Pairs.member_eq_error_iff.2 hunfit))
  obtain ⟨w, hrun⟩ := hends []
  obtain ⟨rs, s', hanswer, -⟩ := Server.always_runCommand (v := sampleServer) rfl rfl
    articulate_sampleServer
    ⟨"file:///workspace/model.json", none, "m::f", "nonsense", [], [("k", Json.nested 1999)]⟩
    (History.after sampleServer [] (sample.opening sampleSources)).session
  refine ⟨.unreadable f, rs.map Result.toJson, ?_, ?_⟩
  · rw [hrun, hstop]
    rfl
  · rw [Server.executeCommand_payload _ rfl, Action.bind_of_ok hanswer]
    rfl

end CommandLine

end ModelServer
