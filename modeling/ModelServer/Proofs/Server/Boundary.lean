import ModelServer.Server.Handlers
import ModelServer.Server.Start
import ModelServer.Proofs.Grammar.Wording
import ModelServer.Proofs.Result
import ModelServer.Proofs.Schema.Checked

/-!
# The boundary of commands

Whatever a client sends and whatever collaborators do, the handlers of commands and of table queries
answer with results that are about the element that was asked for. The one exception is a payload that
is no record, which no client of the protocol sends: it is a broken invariant, and ends in that fault.
Two things are needed for this, and neither can be spared (`unanswered_at_boundary`): there is a server,
and what its collaborators raise can be put into words.

The proof is in two halves. What a dispatch *may* end in is `Fits` (`returns_dispatch`), whatever its
collaborators answer, and `Extension.execute` turns the faults that have a text into results.
What is done outside of `Extension.execute` and `Executable.query` never ends in a fault
(`always_locateSection`), for it asks no collaborator but the provider, and the one that reads
documents takes what is wrong with a document as a value.
-/

namespace ModelServer

/-- The results that a command for the element at a path may have: all are about that path, and there is
just one unless tests were run. -/
structure Fits (path commandId : String) (rs : List Result) : Prop where
  about : ∀ r ∈ rs, r.About path
  single : commandId ≠ Command.runTestsId → commandId ≠ Command.runLegacyTestsId → rs.length = 1

namespace Fits

variable {path commandId : String}

theorem one {r : Result} (h : r.About path) : Fits path commandId [r] :=
  ⟨List.forall_mem_singleton.2 h, fun _ _ ↦ rfl⟩

theorem ofElement (outcome : Outcome) (message : String) (location : Option Location) :
    Fits path commandId [.ofElement path outcome message location] :=
  one (Result.about_ofElement _ _ _ _)

theorem ofFault {f : Fault} {location : Option Location} {r : Result}
    (h : Result.ofFault path f location = .ok r) : Fits path commandId [r] :=
  one (Result.about_of_ofFault h)

theorem uncompiled (f : CompileFault) : Fits path commandId [f.result path] :=
  one (Result.about_telling _ _ _ _)

end Fits

/-- A document that declares one function with a lambda. -/
def functionText : String :=
  "\x7b\"sections\":[\x7b\"grammar\":\"Function\",\"elements\":[" ++
    "\x7b\"kind\":\"function\",\"path\":\"f\",\"func\":\x7b\x7d\x7d]\x7d]\x7d"

variable {H : Type}

/-! ### What a dispatch may end in -/

namespace Testable

theorem returns_runOn (c : Collaborators H) (e : Element) (path : String)
    (suites : List (TestSuite Location)) (m : CompiledModel) :
    (runOn c e path suites m).Returns (Fits path Command.runTestsId) :=
  .bind fun _ ↦ .bind fun _ ↦ .ofExcept fun _ hrs ↦
    ⟨TestOutcome.about_of_results hrs, fun h ↦ absurd rfl h⟩

theorem returns_run (suites : Suites) (s : Surroundings H) (i : Invocation) :
    (run suites s i).Returns (Fits i.path Command.runTestsId) := by
  refine .bind fun parsed ↦ ?_
  cases parsed.element? i.path with
  | none => exact .pure (.ofElement _ _ _)
  | some e =>
    refine .bind fun all ↦ ?_
    split
    · exact .pure (.ofElement _ _ _)
    · refine .bind fun compiled ↦ ?_
      cases compiled.toExcept with
      | error f => exact .pure (.uncompiled f)
      | ok m => exact returns_runOn _ _ _ _ _

theorem returns_dispatch (suites : Suites) (s : Surroundings H) (i : Invocation) :
    (dispatch suites s i).Returns (Fits i.path i.commandId) := by
  rw [dispatch]
  split
  · next h =>
    rw [h]
    exact returns_run suites s i
  · exact .pure (.ofElement _ _ _)

end Testable

namespace Executable

/-- Where there is no plan the result that tells why is an error about the element. -/
theorem returns_planned (x : ExecutionSupport H) (c : Collaborators H) (sec : Section) (path : String)
    (ps : InputParameters) :
    (planned x c sec path ps).Returns fun p ↦
      ∀ r, p = .error r → r.About path ∧ r.outcome = .error := by
  refine .bind fun parsed ↦ ?_
  cases parsed.element? path with
  | none =>
    exact .pure fun r hr ↦ Except.error.inj hr ▸ ⟨Result.about_ofElement _ _ _ _, rfl⟩
  | some e =>
    refine .bind fun func? ↦ ?_
    cases func? with
    | none => exact .pure fun r hr ↦ Except.error.inj hr ▸ ⟨Result.about_ofElement _ _ _ _, rfl⟩
    | some func =>
      refine .bind fun compiled ↦ ?_
      cases compiled.toExcept with
      | error f => exact .pure fun r hr ↦ Except.error.inj hr ▸ ⟨Result.about_telling _ _ _ _, rfl⟩
      | ok m => exact .bind fun plan ↦ .pure fun r hr ↦ nomatch hr

theorem returns_run (x : ExecutionSupport H) (c : Collaborators H) (i : Invocation) :
    (run x c i).Returns (Fits i.path i.commandId) := by
  refine (returns_planned x c i.sec i.path i.inputParameters).then fun p hp ↦ ?_
  cases p with
  | error r => exact .pure (.one (hp r rfl).1)
  | ok p =>
    exact .bind fun executor ↦ .bind fun output ↦ .bind fun shown ↦ .pure (.ofElement _ _ _)

theorem returns_dispatch (x : ExecutionSupport H) (suites : Testable.Suites) (s : Surroundings H)
    (i : Invocation) :
    (dispatch x (Testable.dispatch suites) s i).Returns (Fits i.path i.commandId) := by
  rw [dispatch]
  split
  · exact returns_run x s.collaborators i
  · exact Testable.returns_dispatch suites s i

/-- The stages of a query end in a success or an error about the element, or in a fault. -/
theorem returns_queryStages (x : ExecutionSupport H) (c : Collaborators H) (sec : Section)
    (path : String) (query : Api.TableQuery) (ps : InputParameters) (token : TokenId) :
    (queryStages x c sec path query ps token).Returns fun r ↦
      r.About path ∧ (r.outcome = .success ∨ r.outcome = .error) := by
  refine .bind fun _ ↦ (returns_planned x c sec path ps).then fun p hp ↦ ?_
  cases p with
  | error r => exact .pure ⟨(hp r rfl).1, .inr (hp r rfl).2⟩
  | ok p =>
    exact .bind fun _ ↦ .bind fun _ ↦ .bind fun _ ↦ .bind fun _ ↦ .bind fun _ ↦
      .pure ⟨Result.about_ofElement _ _ _ _, .inl rfl⟩

/-- What ended a query and has a text is told in one result about the element. -/
theorem exists_queryFailed {f : Fault} (hf : f.HasText) (path : String) :
    ∃ r, queryFailed path f = .ok r ∧ r.About path := by
  rw [queryFailed]
  split
  · rw [hf]
    exact ⟨_, rfl, Result.about_ofElement _ _ _ _⟩
  · exact ⟨_, Result.ofFault_of_hasText hf _ _, Result.about_telling _ _ _ _⟩

/-- **A table query has one result, and never ends in a fault.** -/
theorem always_query {x : ExecutionSupport H} (hx : x.Articulate) {c : Collaborators H}
    (hc : c.Worded) (sec : Section) (path : String) (q : Api.TableQuery) (ps : InputParameters)
    (token : TokenId) : (query x c sec path q ps token).Always (Result.About path) := by
  refine .of_outcome ((returns_queryStages x c sec path q ps token).carrying token)
    ((fails_queryStages hx hc sec path q ps token).carrying token) (fun r hr ↦ .pure hr.1) fun f hf ↦ ?_
  obtain ⟨r, hr, habout⟩ := exists_queryFailed hf path
  show (Action.ofExcept (queryFailed path f)).Always _
  rw [hr]
  exact .pure habout

end Executable

namespace ServiceGrammar

theorem returns_runLegacyTests (s : Surroundings H) (i : Invocation) :
    (runLegacyTests s i).Returns (Fits i.path Command.runLegacyTestsId) := by
  refine .bind fun found ↦ ?_
  cases found with
  | none => exact .pure (.ofElement _ _ _)
  | some found =>
    obtain ⟨e, service⟩ := found
    dsimp only
    cases service.legacyTest with
    | none => exact .pure (.ofElement _ _ _)
    | some test =>
      refine .bind fun compiled ↦ ?_
      cases compiled.toExcept with
      | error f => exact .pure (.uncompiled f)
      | ok m =>
        refine .bind fun runs ↦ ?_
        cases runs with
        | error f => exact Action.Returns.then (.ofExcept fun r hr ↦ hr) fun r hr ↦ .pure (.ofFault hr)
        | ok runs =>
          exact .ofExcept fun _ hrs ↦ ⟨LegacyRun.about_of_results hrs, fun _ h ↦ absurd rfl h⟩

theorem returns_register [Depths] (s : Surroundings H) (i : Invocation) :
    (register s i).Returns (Fits i.path i.commandId) := by
  refine .bind fun found ↦ ?_
  cases found with
  | none => exact .fail _
  | some found =>
    exact .bind fun _ ↦ .bind fun _ ↦ .bind fun _ ↦ .bind fun _ ↦ .pure (.ofElement _ _ _)

theorem returns_dispatch [Depths] (tests : Testable.Suites) (s : Surroundings H) (i : Invocation) :
    (dispatch tests s i).Returns (Fits i.path i.commandId) := by
  rw [dispatch]
  split
  · next h =>
    rw [h]
    exact returns_runLegacyTests s i
  · split
    · exact returns_register s i
    · exact Executable.returns_dispatch execution tests s i

end ServiceGrammar

namespace Server

/-- What the extensions that are always there may end in. -/
theorem returns_dispatch [Depths] {x : Extension H} (hx : x ∈ defaultExtensions) (s : Surroundings H)
    (i : Invocation) : (x.dispatch s i).Returns (Fits i.path i.commandId) := by
  simp only [defaultExtensions, List.mem_cons, List.not_mem_nil, or_false] at hx
  rcases hx with rfl | rfl | rfl
  · exact ServiceGrammar.returns_dispatch _ s i
  · exact Testable.returns_dispatch _ s i
  · exact Executable.returns_dispatch _ _ s i

end Server

/-! ### What never ends in a fault -/

/-- **Running a command ends in results, whatever happens that has a text.** -/
theorem Extension.always_execute {x : Extension H} {s : Surroundings H} {i : Invocation}
    (h : (x.dispatch s i).Returns (Fits i.path i.commandId))
    (hfails : (x.dispatch s i).Fails Fault.HasText) :
    (x.execute s i).Always (Fits i.path i.commandId) := by
  refine .of_outcome h hfails (fun _ hrs ↦ .pure hrs) fun f hf ↦ ?_
  refine .bind (P := fun r ↦ Result.ofFault i.path f none = .ok r) ?_ fun r hr ↦ .pure (.ofFault hr)
  rw [Result.ofFault_of_hasText hf]
  exact .pure rfl

namespace Collaborators

variable [Depths] {c : Collaborators H} (hc : c.provider = DocumentProvider.provider)

include hc

theorem always_parse (s : Section) : (c.parse s).Always fun _ ↦ True := by
  rw [parse]
  refine .bind .workspace fun w _ ↦ ?_
  cases w.parsed? s with
  | some p => exact .pure trivial
  | none =>
    rw [hc]
    refine .bind (P := fun _ ↦ True) (.pure trivial) fun p _ ↦ ?_
    exact .bind (.modifyWorkspace _) fun _ _ ↦ .pure trivial

theorem always_findSectionIn (path : String) (ss : List Section) :
    (c.findSectionIn path ss).Always fun _ ↦ True := by
  induction ss with
  | nil => exact .pure trivial
  | cons s rest ih =>
    refine .bind (always_parse hc s) fun parsed _ ↦ ?_
    cases parsed.element? path with
    | some e => exact .pure trivial
    | none => exact ih

/-- Sections are found or not, also in documents that cannot be read. -/
theorem always_locateSection (document path : String) (index : Option Int) :
    (c.locateSection document path index).Always fun _ ↦ True := by
  cases index with
  | none => exact .bind .workspace fun w _ ↦ always_findSectionIn hc path _
  | some n => exact .bind .workspace fun w _ ↦ .pure trivial

end Collaborators

namespace Server

variable [Depths] {v : Server H} (hp : v.collaborators.provider = DocumentProvider.provider)
  (hx : v.extensions = defaultExtensions) (hc : v.collaborators.Articulate)

include hp hx hc

theorem always_runCommand (r : Api.ExecuteRequest) :
    (v.runCommand r).Always (Fits r.entityPath r.commandId) := by
  refine .bind (Collaborators.always_locateSection hp _ _ _) fun sec? _ ↦ ?_
  cases sec? with
  | none => exact .pure (.ofElement _ _ _)
  | some sec =>
    dsimp only
    cases h : v.extensionFor sec with
    | none => exact .pure (.ofElement _ _ _)
    | some x =>
      have hmem : x ∈ defaultExtensions := hx ▸ List.mem_of_find?_eq_some h
      exact Extension.always_execute (returns_dispatch hmem _ _) (fails_dispatch hc _ hmem)

theorem always_runTableQuery (r : Api.TableRequest) (token : TokenId) :
    (v.runTableQuery r token).Always (Result.About r.entityPath) := by
  refine .bind (Collaborators.always_locateSection hp _ _ _) fun sec? _ ↦ ?_
  cases sec? with
  | none => exact .pure (Result.about_ofElement _ _ _ _)
  | some sec =>
    dsimp only
    cases h : (v.extensionFor sec).bind (·.execution) with
    | none => exact .pure (Result.about_ofElement _ _ _ _)
    | some x =>
      obtain ⟨e, he, hexecution⟩ := Option.bind_eq_some_iff.1 h
      have hmem : e ∈ defaultExtensions := hx ▸ List.mem_of_find?_eq_some he
      exact Executable.always_query (articulate_execution hmem hexecution) hc.toWorded _ _ _ _ _

end Server

/-! ### Queries that are running -/

/-- A request whose id is a text, and not an empty one, starts, or there is one of that id already. -/
theorem Requests.start_text {id : String} (hid : id.isEmpty = false) (r : Requests) :
    (∃ token r', start (.text id) r = (.ok token, r')) ∨
      start (.text id) r = (.error (.alreadyRunning (.text id)), r) := by
  have hsome : RequestId.isNothing (.text id) = false := hid
  have hkey : keyOf (.text id) = .ok (.text id) := rfl
  rw [start, hsome, if_neg Bool.false_ne_true, hkey]
  dsimp only
  split
  · exact .inr rfl
  · exact .inl ⟨_, _, rfl⟩

/-- Work that never ends in a fault ends in none when it is the work of a request, unless a request of
that id is running. -/
theorem Action.running_text {α : Type} {P : α → Prop} {id : String} (hid : id.isEmpty = false)
    {work : TokenId → Action H α} (h : ∀ token, (work token).Always P) (s : Session H) :
    (∃ a s', running (.text id) work s = (.ok a, s') ∧ P a) ∨
      ∃ s', running (.text id) work s = (.error (.alreadyRunning (.text id)), s') := by
  rw [running]
  rcases Requests.start_text hid s.requests with ⟨token, r', hstart⟩ | hstart
  · obtain ⟨a, s', hwork, ha⟩ := h token { s with requests := r' }
    rw [hstart]
    dsimp only
    rw [hwork]
    exact .inl ⟨a, _, rfl, ha⟩
  · rw [hstart]
    exact .inr ⟨_, rfl⟩

namespace Server

open Schema

variable {v : Server H}

theorem always_tableResult [Depths] (hp : v.collaborators.provider = DocumentProvider.provider)
    (hx : v.extensions = defaultExtensions) (hc : v.collaborators.Articulate) {r : Api.TableRequest}
    (hid : r.requestId.isEmpty = false) :
    (tableResult (.ok v) r).Always (Result.About r.entityPath) := by
  intro s
  rw [tableResult, Action.bind_of_ok (Action.outcome_apply _ s)]
  have hwork : ∀ token, Action.Always (do
      let v ← Action.ofExcept (.ok v)
      v.runTableQuery r token) (Result.About r.entityPath) :=
    fun token ↦ .bind (P := (· = v)) (.pure rfl) fun v' hv' ↦ hv' ▸ always_runTableQuery hp hx hc r token
  rcases Action.running_text hid hwork s with ⟨a, s', hrun, ha⟩ | ⟨s', hrun⟩
  -- The request ran, or another of its id is running and that is what is told of the element.
  · rw [hrun]
    exact ⟨a, s', rfl, ha⟩
  · rw [hrun]
    exact ⟨_, s', rfl, Result.about_ofElement _ _ _ _⟩

/-! ### Payloads -/

/-- What a request with those members is about: the element that it names or, if it does not fit and
names none, the request itself. -/
def subject {α : Type} (read : Reader α) (ms : Members) : String :=
  match Data.lookup "entity_path" ms, read (.record ms) with
  | some (.text path), .ok _ => path
  | some (.text path), .bad _ => if path = "" then "request" else path
  | _, _ => "request"

/-- A request that fits is about the element that it names. -/
theorem subject_executeRequest {ms : Members} {r : Api.ExecuteRequest}
    (h : Api.ExecuteRequest.reader (.record ms) = .ok r) :
    subject Api.ExecuteRequest.reader ms = r.entityPath := by
  have hfields := h
  simp only [Api.ExecuteRequest.reader, record, Checked.seq_eq_ok, Checked.map_eq_ok,
    field_eq_ok, text_eq_ok] at hfields
  obtain ⟨_, _, ⟨_, _, ⟨_, _, ⟨_, _, ⟨_, _, ⟨_, _, rfl⟩, _, rfl⟩, ⟨_, hpath, rfl⟩, rfl⟩, _, rfl⟩, _,
    rfl⟩, _, rfl⟩ := hfields
  rw [subject, hpath, h]

/-- A table query that fits is about the element that it names, and its id is not empty. -/
theorem subject_tableRequest {ms : Members} {r : Api.TableRequest}
    (h : Api.TableRequest.reader (.record ms) = .ok r) :
    subject Api.TableRequest.reader ms = r.entityPath ∧ r.requestId.isEmpty = false := by
  have hfields := h
  simp only [Api.TableRequest.reader, record, Checked.seq_eq_ok, Checked.map_eq_ok,
    field_eq_ok, text_eq_ok, someText_eq_ok] at hfields
  obtain ⟨_, _, ⟨_, _, ⟨_, _, ⟨_, _, ⟨_, _, ⟨_, _, rfl⟩, _, rfl⟩, ⟨_, hpath, rfl⟩, rfl⟩,
    ⟨_, _, rfl, _, hid⟩, rfl⟩, _, rfl⟩, _, rfl⟩ := hfields
  exact ⟨by rw [subject, hpath, h], hid⟩

/-- A request that does not fit is about what it names all the same, if it names anything. -/
theorem subject_of_bad {α : Type} {read : Reader α} {ms : Members} {issues : List Issue}
    (h : read (.record ms) = .bad issues) : subject read ms = subjectOf ms := by
  rw [subject, subjectOf, h]
  rcases Data.lookup "entity_path" ms with - | v
  · rfl
  · cases v with
    | text path => simp only [String.isEmpty_iff]
    | _ => rfl

theorem payloadMembers_of_record (request : String) {payload : Json} {ms : Members}
    (h : payload = .record ms ∨ payload = .list [.record ms]) :
    payloadMembers request payload = .ok ms := by
  rcases h with rfl | rfl <;> rfl

/-- Any other payload breaks an invariant. -/
theorem payloadMembers_of_other (request : String) {payload : Json}
    (h : ∀ ms, payload ≠ .record ms ∧ payload ≠ .list [.record ms]) :
    ∃ reason details, payloadMembers request payload = .error (.invariant reason details) := by
  have hunwrap : ∀ ms, unwrap payload ≠ .record ms := by
    intro ms
    fun_cases unwrap payload with
    | case1 v =>
      rintro rfl
      exact (h ms).2 rfl
    | case2 => exact (h ms).1
  rw [payloadMembers]
  split
  · next ms hms => exact absurd hms (hunwrap ms)
  · exact ⟨_, _, rfl⟩
  · exact ⟨_, _, rfl⟩

/-! ### The handlers -/

/-- The JSON of a result about that subject: its ids are texts, and the first is the subject. -/
def IsResultAbout (subject : String) (result : Json) : Prop :=
  ∃ inner : List String,
    result.member? "ids" = some (.list (.text subject :: inner.map .text))

/-- An answer with results that fit holds results about the subject. -/
theorem isResultAbout_of_mem {path : String} {rs : List Result} (h : ∀ r ∈ rs, r.About path)
    {result : Json} (hresult : result ∈ rs.map Result.toJson) : IsResultAbout path result := by
  obtain ⟨r, hr, rfl⟩ := List.mem_map.1 hresult
  exact (h r hr).member_toJson

/-- A request for which no server is asked. -/
theorem refusal_eq {α : Type} {read : Reader α} {ms : Members} {issues : List Issue} (title : String)
    (h : read (.record ms) = .bad issues) :
    ∃ result, refusal title ms issues = .record [("results", .list [result])] ∧
      IsResultAbout (subject read ms) result :=
  ⟨_, rfl, subject_of_bad h ▸ (Result.about_ofElement _ _ _ _).member_toJson⟩

/-- **The boundary of commands holds.** For a payload that is a record, by itself or alone in a list,
both handlers answer with results about what the request is about: a table query with one, a command
with one unless it runs tests. For any other payload, and only then, they end in the fault of a broken
invariant, and nothing has changed. -/
theorem answers_at_boundary [Depths] (hp : v.collaborators.provider = DocumentProvider.provider)
    (hx : v.extensions = defaultExtensions) (hc : v.collaborators.Articulate) (payload : Json)
    (s : Session H) :
    (∀ ms, payload = .record ms ∨ payload = .list [.record ms] →
      (∃ results, (executeCommand (.ok v) payload s).1 = .ok (.record [("results", .list results)]) ∧
        (∀ r ∈ results, IsResultAbout (subject Api.ExecuteRequest.reader ms) r) ∧
        ((∀ r, Api.ExecuteRequest.reader (.record ms) = .ok r →
          r.commandId ≠ Command.runTestsId ∧ r.commandId ≠ Command.runLegacyTestsId) →
            results.length = 1)) ∧
      ∃ result,
        (executeTableRequest (.ok v) payload s).1 = .ok (.record [("results", .list [result])]) ∧
          IsResultAbout (subject Api.TableRequest.reader ms) result) ∧
    ((∀ ms, payload ≠ .record ms ∧ payload ≠ .list [.record ms]) →
      (∃ reason details,
        executeCommand (.ok v) payload s = (.error (.invariant reason details), s)) ∧
      ∃ reason details,
        executeTableRequest (.ok v) payload s = (.error (.invariant reason details), s)) := by
  refine ⟨fun ms hpayload ↦ ⟨?_, ?_⟩, fun hpayload ↦ ⟨?_, ?_⟩⟩
  · -- A command. What does not fit is refused before anything is done.
    rw [executeCommand, payloadMembers_of_record _ hpayload, Action.bind_ofExcept_apply]
    cases hread : Api.ExecuteRequest.reader (.record ms) with
    | bad issues =>
      obtain ⟨result, hresult, habout⟩ := refusal_eq Api.ExecuteRequest.title hread
      exact ⟨[result], congrArg Except.ok hresult, List.forall_mem_singleton.2 habout, fun _ ↦ rfl⟩
    | ok r =>
      obtain ⟨rs, s', hrun, hfits⟩ := always_runCommand hp hx hc r s
      refine ⟨rs.map Result.toJson, ?_, fun result hresult ↦ ?_, fun hid ↦ ?_⟩
      · dsimp only
        rw [Action.bind_ofExcept_apply, Action.bind_of_ok hrun]
        rfl
      · rw [subject_executeRequest hread]
        exact isResultAbout_of_mem hfits.about hresult
      · rw [List.length_map]
        exact hfits.single (hid r rfl).1 (hid r rfl).2
  · -- A table query, of which a fault is never the end, be it that its id is taken.
    rw [executeTableRequest, payloadMembers_of_record _ hpayload, Action.bind_ofExcept_apply]
    cases hread : Api.TableRequest.reader (.record ms) with
    | bad issues =>
      obtain ⟨result, hresult, habout⟩ := refusal_eq Api.TableRequest.title hread
      exact ⟨result, congrArg Except.ok hresult, habout⟩
    | ok r =>
      obtain ⟨hsubject, hid⟩ := subject_tableRequest hread
      obtain ⟨result, s', hrun, habout⟩ := always_tableResult hp hx hc hid s
      refine ⟨result.toJson, ?_, hsubject ▸ habout.member_toJson⟩
      dsimp only
      rw [Action.bind_of_ok hrun]
      rfl
  · obtain ⟨reason, details, h⟩ := payloadMembers_of_other Command.executeRequest hpayload
    exact ⟨reason, details, by rw [executeCommand, h]; rfl⟩
  · obtain ⟨reason, details, h⟩ := payloadMembers_of_other Command.tableRequest hpayload
    exact ⟨reason, details, by rw [executeTableRequest, h]; rfl⟩

/-- A server whose collaborators fail whatever they are asked for. -/
def failing [Depths] (f : Fault) : Server Unit :=
  ⟨⟨DocumentProvider.provider, some ⟨fun _ _ _ _ ↦ .fail f⟩, some ⟨fun _ _ _ ↦ .fail f⟩,
    some ⟨fun _ _ _ _ ↦ .fail f, fun _ _ _ _ ↦ .fail f⟩, some ⟨fun _ _ ↦ .fail f⟩, ⟨[], []⟩⟩,
    defaultExtensions⟩

/-- What they fail by has a text if that fault has. -/
theorem articulate_failing [Depths] {f : Fault} (hf : f.HasText) :
    (failing f).collaborators.Articulate where
  provider := DocumentProvider.articulate
  generator g hg := by
    cases hg
    exact fun _ _ _ _ ↦ .fail hf
  executor k hk := by
    cases hk
    exact ⟨fun _ _ _ ↦ .fail hf, fun _ _ _ ↦ .fail f⟩
  runner t ht := by
    cases ht
    exact ⟨fun _ _ _ _ ↦ .fail hf, fun _ _ _ _ ↦ .fail hf⟩
  server x hx := by
    cases hx
    exact fun _ _ ↦ .fail hf

/-- The session of a server that fails by that fault, in which a document with a function was set. -/
def failingSession [Depths] (f : Fault) : Session Unit :=
  ((failing f).collaborators.setDocument "a" functionText 1 (.new ())).2

/-- A request to execute the function. -/
def functionRequest : Members :=
  [("uri", .text "a"), ("entity_path", .text "f"), ("command_id", .text Command.executeId)]

/-- The result of an answer that has just one. -/
def soleResult? : Json → Option Json
  | .record [(_, .list [result])] => some result
  | _ => none

open Depths in
/-- That server is asked to execute the function: there is one result, it is about the function, and it tells
what the generator of plans failed by. -/
theorem failing_answers_at_boundary :
    ∃ result,
      (executeCommand (.ok (failing .tooDeep)) (.list [.record functionRequest])
        (failingSession .tooDeep)).1 = .ok (.record [("results", .list [result])]) ∧
      IsResultAbout "f" result ∧
        (result.member? "message").bind (·.text?) = some Fault.tooDeep.message := by
  have hread : Api.ExecuteRequest.reader (.record functionRequest) =
      .ok ⟨"a", none, "f", Command.executeId, [], []⟩ := rfl
  have htold : (((executeCommand (.ok (failing .tooDeep)) (.list [.record functionRequest])
      (failingSession .tooDeep)).1.toOption.bind soleResult?).bind (·.member? "message")).bind
        (·.text?) = some Fault.tooDeep.message := by decide +kernel
  obtain ⟨results, hrun, habout, hsingle⟩ := ((answers_at_boundary (v := failing .tooDeep) rfl rfl
    (articulate_failing rfl) _ (failingSession .tooDeep)).1 _ (.inr rfl)).1
  have hlength : results.length = 1 := by
    refine hsingle fun r hr ↦ ?_
    obtain rfl := Checked.ok.inj (hread.symm.trans hr)
    exact ⟨by decide, by decide⟩
  rw [subject_executeRequest hread] at habout
  obtain ⟨result, rfl⟩ := List.length_eq_one_iff.1 hlength
  refine ⟨result, hrun, habout result List.mem_cons_self, ?_⟩
  rw [hrun] at htold
  exact htold

/-- Settings that name a generator of plans in no module. -/
def misnaming : FileContent :=
  .octets "[collaborators]\nplan_generator = \"nocolon\"\n".toUTF8.toList

/-- Surroundings in which whatever can be named does nothing. -/
def idling : Environment Unit where
  valueOf _ := none
  loader := ⟨fun spec ↦ (Settings.target spec).map fun _ ↦ ⟨fun _ _ _ _ ↦ pure .null⟩,
    fun spec ↦ (Settings.target spec).map fun _ ↦ ⟨fun _ _ _ ↦ pure (.value .null)⟩,
    fun spec ↦ (Settings.target spec).map fun _ ↦ ⟨fun _ _ _ _ ↦ pure [], fun _ _ _ _ ↦ pure []⟩⟩
  wire _ := pure (.unreachable "")
  installed := ⟨[], []⟩

/-- A request to query the function. -/
def functionQuery : Members :=
  ("request_id", .text "q") :: functionRequest

/-- The name of the fault that work ended in; empty if it ended in a value. -/
def failure {α : Type} : Except Fault α → String
  | .error f => f.name
  | .ok _ => ""

/-- A fault that cannot be put into words. -/
def unspeakable : Fault :=
  .mute .runtime (.plain .value "no text")

open Depths in
/-- **Neither the server nor the texts of what is raised can be spared.** Where the settings name a
collaborator that cannot be loaded there is no server, and requests that fit end in the fault of that. Where
what a collaborator raises has no text they end in the fault that asking for it ends in. -/
theorem unanswered_at_boundary :
    failure (start idling misnaming) = "ValueError" ∧
      failure (executeCommand (start idling misnaming) (.record functionRequest) (.new ())).1 =
        "ValueError" ∧
      failure (executeTableRequest (start idling misnaming) (.record functionQuery) (.new ())).1 =
        "ValueError" ∧
      failure (executeCommand (.ok (failing unspeakable)) (.record functionRequest)
        (failingSession unspeakable)).1 = "ValueError" ∧
      failure (executeTableRequest (.ok (failing unspeakable)) (.record functionQuery)
        (failingSession unspeakable)).1 = "ValueError" :=
  ⟨by decide +kernel, by decide +kernel, by decide +kernel, by decide +kernel, by decide +kernel⟩

end Server

end ModelServer
