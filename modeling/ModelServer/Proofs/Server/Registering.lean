import ModelServer.Proofs.Registration.Response
import ModelServer.Proofs.Server.Agreement
import ModelServer.Proofs.Server.Project

/-!
# The whole project is registered, or nothing is

To register a service is to look for it, to ask for the execution server and to write the project out, and
each of the three may fail. The server is called behind all of them, so what it is posted is never a part
of a project: `ServiceGrammar.Registrable` says when nothing fails, `execute_of_registrable` what is posted
then and what comes of the answer, and `execute_of_not_registrable` that otherwise nobody is called.

None of the three changes more than what is remembered of the open documents, so `Workspace.Answers` carries
them, and the posted project is that of the texts which are open, whatever was done before.
-/

namespace ModelServer

variable {H : Type}

namespace Parsed

/-- The section parses. -/
def isClean : Parsed → Bool
  | elements _ => true
  | faulty _ => false

theorem isClean_iff {p : Parsed} : p.isClean = true ↔ ∃ es, p = .elements es := by
  cases p <;> simp [isClean]

end Parsed

namespace ServiceGrammar

/-- Nothing keeps the path from being registered: the first element of the path that the section declares
is a service, there is an execution server, and every section of the project parses. -/
structure Registrable (server? : Option (ExecutionServer H)) (sections : List Section) (sec : Section)
    (path : String) : Prop where
  service : ∃ e, sec.parse.element? path = some e ∧ e.isService
  server : server?.isSome
  parses : ∀ t ∈ sections, ∃ es, t.parse = .elements es

/-- What is posted to register the path: all that the sections declare, and which of it is meant. -/
def project (sections : List Section) (path : String) : Json :=
  Registration.payload (sections.flatMap Section.posted)
    (some (Registration.origin (.text path)))

/-- What comes of an answer: the one result is what the server says, at the place of the service, or that
the answer is nested too deep to be shown, or that the server failed. Where it failed and that has no text,
asking for the text is what the command ends in. -/
inductive Told [Depths] (e : Element) (path : String) : Except Fault String → Except Fault Result → Prop
  | shown {response text : String} (shown : Registration.formatResponse response = .ok text) :
    Told e path (.ok response) (.ok (.ofElement path .success text e.source))
  | tooDeep {response : String} {f : Fault} (deep : Registration.TooDeep response)
      (recursion : f.name = "RecursionError") : Told e path (.ok response) (.ok (.worded path f none))
  | failed {f : Fault} (text : f.HasText) : Told e path (.error f) (.ok (.worded path f none))
  | mute {kind : Kind} {inner : Fault} : Told e path (.error (.mute kind inner)) (.error inner)

/-- What cannot be shown is told as an error. -/
theorem Told.outcome_of_tooDeep [Depths] {e : Element} {path response : String} {out : Except Fault Result}
    (h : Told e path (.ok response) out) (hdeep : Registration.TooDeep response) :
    ∃ r, out = .ok r ∧ r.outcome = .error := by
  cases h with
  | shown shown => exact absurd hdeep (Registration.exists_formatResponse_eq_ok_iff.1 ⟨_, shown⟩)
  | tooDeep deep recursion => exact ⟨_, rfl, rfl⟩

variable {u : Surroundings (Recorded H)} {w : Workspace} {sec : Section} {path : String}
  {server? : Option (ExecutionServer H)}

/-- A command to register is handled as such. -/
theorem dispatch_register [Depths] (u : Surroundings (Recorded H)) (sec : Section) (path : String)
    (args : List (String × String)) (ps : InputParameters) :
    extension.dispatch u ⟨sec, path, Command.registerId, args, ps⟩ =
      register u ⟨sec, path, Command.registerId, args, ps⟩ := by
  have hne : Command.registerId ≠ Command.runLegacyTestsId := by decide
  show dispatch suites u ⟨sec, path, Command.registerId, args, ps⟩ = _
  rw [dispatch, if_neg hne, if_pos rfl]

section Held

variable [Depths] (hc : u.collaborators.provider = DocumentProvider.provider) (hsec : w.Held sec)
  (hserver : u.collaborators.executionServer = server?.map (·.recorded))
  (args : List (String × String)) (ps : InputParameters)

include hc hsec hserver

/-- Where something keeps the path from being registered the command fails and nobody is called. -/
theorem answers_register_of_not_registrable (h : ¬Registrable server? w.allSections sec path) :
    ∃ f, f.HasText ∧ w.Answers (register u ⟨sec, path, Command.registerId, args, ps⟩) (.error f) := by
  have hfind : w.Answers (findService u.collaborators sec path)
      (.ok ((sec.parse.element? path).bind fun e ↦ e.service?.map (e, ·))) :=
    (Workspace.Answers.parse hc hsec).bind_pure _
  cases hfound : (sec.parse.element? path).bind fun e ↦ e.service?.map (e, ·) with
  | none =>
    rw [hfound] at hfind
    exact ⟨.plain .lookup ("Unable to find service " ++ path), rfl, hfind.bind (.ofExcept (.error _))⟩
  | some found =>
    rw [hfound] at hfind
    obtain ⟨e, he, hmap⟩ := Option.bind_eq_some_iff.1 hfound
    obtain ⟨service, hservice, rfl⟩ := Option.map_eq_some_iff.1 hmap
    cases server? with
    | none =>
      refine ⟨.unconfigured "execution server", rfl, hfind.bind (.bind_error ?_)⟩
      rw [Collaborators.requireExecutionServer, hserver]
      exact .ofExcept (.error _)
    | some server =>
      -- The service is there and so is the server, so it is a section that does not parse.
      have hparses : ¬∀ t ∈ w.allSections, ∃ es, t.parse = .elements es := fun hparses ↦
        h ⟨⟨e, he, by rw [Element.isService, hservice]; rfl⟩, rfl, hparses⟩
      obtain ⟨fault, hfault⟩ := DocumentProvider.recordsOf_of_not_parses hparses
      have hserialize := Workspace.Answers.serialize (w := w) hc
        (some (Registration.origin (.text path)))
      rw [hfault] at hserialize
      refine ⟨fault, DocumentProvider.hasText_of_recordsOf hfault, hfind.bind ?_⟩
      dsimp only
      rw [Collaborators.requireExecutionServer, hserver]
      exact .bind (.pure server.recorded) (.bind_error hserialize)

/-- **Where nothing keeps the path from being registered the server is called once, with the whole
project**, and there is one result. -/
theorem execute_of_registrable {server : ExecutionServer H} (hsome : server? = some server) {e : Element}
    (he : sec.parse.element? path = some e) (hservice : e.isService)
    (hparses : ∀ t ∈ w.allSections, ∃ es, t.parse = .elements es) {s : Session (Recorded H)}
    (hs : w.Learns s.workspace) :
    ∃ w', w.Learns w' ∧
      let answer := server.post Registration.path (project w.allSections path)
        ⟨w', s.requests, s.host.host⟩
      ∃ out, Told e path answer.1 out ∧
        extension.execute u ⟨sec, path, Command.registerId, args, ps⟩ s =
          (out.map ([·]), ⟨answer.2.workspace, answer.2.requests, ⟨answer.2.host,
            s.host.calls ++ [.post Registration.path (project w.allSections path)]⟩⟩) := by
  obtain ⟨service, hservice⟩ := Option.isSome_iff_exists.1 hservice
  have hfind : w.Answers (findService u.collaborators sec path) (.ok (some (e, service))) := by
    have hanswers : w.Answers (findService u.collaborators sec path)
        (.ok ((sec.parse.element? path).bind fun e ↦ e.service?.map (e, ·))) :=
      (Workspace.Answers.parse hc hsec).bind_pure _
    rwa [he, Option.bind_some, hservice] at hanswers
  have hserialize := Workspace.Answers.serialize (w := w) hc
    (some (Registration.origin (.text path)))
  rw [DocumentProvider.recordsOf_of_parses hparses] at hserialize
  obtain ⟨w₁, hw₁, hrun₁⟩ := hfind s hs
  obtain ⟨w₂, hw₂, hrun₂⟩ := hserialize { s with workspace := w₁ } hw₁
  refine ⟨w₂, hw₂, ?_⟩
  -- Only the answer of the server is left to be waited for.
  have hrequire : u.collaborators.requireExecutionServer { s with workspace := w₁ } =
      (.ok server.recorded, { s with workspace := w₁ }) := by
    rw [Collaborators.requireExecutionServer, hserver, hsome]
    rfl
  have hregister : extension.dispatch u ⟨sec, path, Command.registerId, args, ps⟩ s =
      (((server.post Registration.path (project w.allSections path)).noted
        (.post Registration.path (project w.allSections path))) >>= fun response ↦ do
          let shown ← Action.ofExcept (Registration.formatResponse response)
          return [.ofElement path .success shown e.source]) { s with workspace := w₂ } := by
    rw [dispatch_register, register, Action.bind_of_ok hrun₁]
    dsimp only
    rw [Action.bind_of_ok hrequire, Action.bind_of_ok hrun₂]
    rfl
  rw [extension.execute_apply, hregister, Action.bind_apply, Action.noted, Action.within]
  dsimp only
  rcases server.post Registration.path (project w.allSections path) ⟨w₂, s.requests, s.host.host⟩ with
    ⟨f | response, t⟩
  · rcases f.hasText_or_mute with htext | ⟨kind, inner, rfl⟩
    · refine ⟨_, .failed htext, ?_⟩
      rw [Extension.results_of_hasText htext]
      rfl
    · exact ⟨_, .mute, rfl⟩
  · by_cases hdeep : Registration.TooDeep response
    · obtain ⟨f, hf, hrecursion⟩ := Registration.formatResponse_of_tooDeep hdeep
      refine ⟨_, .tooDeep hdeep hrecursion, ?_⟩
      have htext : f.HasText := Registration.hasText_of_formatResponse hf
      dsimp only
      rw [hf]
      show (Extension.results path (.error f), _) = _
      rw [Extension.results_of_hasText htext]
      rfl
    · obtain ⟨text, htext⟩ := Registration.exists_formatResponse_eq_ok_iff.2 hdeep
      refine ⟨_, .shown htext, ?_⟩
      dsimp only
      rw [htext]
      rfl

/-- **Where something keeps the path from being registered there is one error**, and nothing comes of the
command but that more may be remembered. -/
theorem execute_of_not_registrable (h : ¬Registrable server? w.allSections sec path)
    {s : Session (Recorded H)} (hs : w.Learns s.workspace) :
    ∃ w' r, w.Learns w' ∧ r.outcome = .error ∧ r.ids = [path] ∧
      extension.execute u ⟨sec, path, Command.registerId, args, ps⟩ s =
        (.ok [r], { s with workspace := w' }) := by
  obtain ⟨f, htext, hanswers⟩ := answers_register_of_not_registrable hc hsec hserver args ps h
  obtain ⟨w', hw', hrun⟩ := hanswers s hs
  refine ⟨w', .worded path f none, hw', rfl, rfl, ?_⟩
  rw [extension.execute_apply, dispatch_register, hrun]
  dsimp only
  rw [Extension.results_of_hasText htext]

end Held

end ServiceGrammar

namespace History

open ServiceGrammar Texts

/-- The posted project does not see when its documents were set. -/
theorem Follows.project [Depths] {h : History H} {texts : Texts} (hf : Follows texts h)
    (path : String) :
    project h.session.workspace.allSections path = project texts.allSections path := by
  have hposted (sec : Section) : sec.unrevised.posted = sec.posted := rfl
  rw [ServiceGrammar.project, ServiceGrammar.project, ← hf.allSections, List.flatMap_map]
  simp only [hposted]

theorem Follows.registrable_iff [Depths] {G : Type} {h : History G} {texts : Texts}
    (hf : Follows texts h) {server? : Option (ExecutionServer H)} {sec : Section} {path : String} :
    Registrable server? h.session.workspace.allSections sec path ↔
      Registrable server? texts.allSections sec path := by
  have hparse (sec : Section) : sec.unrevised.parse = sec.parse := rfl
  have hparses : (∀ t ∈ texts.allSections, ∃ es, t.parse = .elements es) ↔
      ∀ t ∈ h.session.workspace.allSections, ∃ es, t.parse = .elements es := by
    rw [← hf.allSections, List.forall_mem_map]
    simp only [hparse]
  exact ⟨fun hr ↦ ⟨hr.service, hr.server, hparses.2 hr.parses⟩,
    fun hr ↦ ⟨hr.service, hr.server, hparses.1 hr.parses⟩⟩

/-- **The whole project is registered, or nothing is.** Whatever was done before, and for any section that
was ever handed out: the execution server is called at most once, and exactly if the first element of the
path in the section is a service, there is an execution server and every section of every open document
parses. It is posted what these sections declare, declaration by declaration in the order of documents,
sections and places, with the path as its origin, and its answer becomes one result: a success at the place
of the service, or an error if the server fails or its answer is nested too deep to be shown. In every
other case there is one error and nothing changes but what is remembered. -/
theorem register_whole_project_or_nothing [Depths] (v : Server (Recorded H))
    (hp : v.collaborators.provider = DocumentProvider.provider) (server? : Option (ExecutionServer H))
    (hserver : v.collaborators.executionServer = server?.map (·.recorded)) (host : Recorded H)
    (operations : List Operation) {s : Session (Recorded H)}
    (hs : s.workspace = (after v host operations).session.workspace) {sec : Section}
    (hsec : sec ∈ (after v host operations).handed) (path : String) (args : List (String × String))
    (ps : InputParameters) :
    let sections := (openAfter operations).allSections
    let payload := Registration.payload
      (sections.flatMap fun t ↦ t.declarations.map fun d ↦ d.toJson.dropNulls)
      (some (Registration.origin (.text path)))
    let run := extension.execute v.surroundings ⟨sec, path, Command.registerId, args, ps⟩ s
    (sections.Pairwise Section.Before ∧
      ∀ t, t ∈ sections ↔ ∃ text ∈ openAfter operations, t ∈ cut text.1 text.2) ∧
    (run.2.host.calls = s.host.calls ++ [.post Registration.path payload] ↔
      Registrable server? sections sec path) ∧
    (∀ server e, server? = some server → sec.parse.element? path = some e → e.isService →
      (∀ t ∈ sections, ∃ es, t.parse = .elements es) →
        ∃ w', s.workspace.Learns w' ∧
          let answer := server.post Registration.path payload ⟨w', s.requests, s.host.host⟩
          ∃ out, Told e path answer.1 out ∧ run = (out.map ([·]), ⟨answer.2.workspace, answer.2.requests,
            ⟨answer.2.host, s.host.calls ++ [.post Registration.path payload]⟩⟩)) ∧
    (¬Registrable server? sections sec path →
      ∃ w' r, s.workspace.Learns w' ∧ r.outcome = .error ∧ r.ids = [path] ∧
        run = (.ok [r], { s with workspace := w' })) := by
  intro sections payload run
  have hf := follows_after hp host operations
  have hlearns : s.workspace.Learns s.workspace := (sound_of_after hp hs).learns
  have hheld : s.workspace.Held sec := hs ▸ hf.held sec hsec
  have hpayload : ServiceGrammar.project s.workspace.allSections path = payload :=
    hs ▸ hf.project path
  have hregistrable : Registrable server? s.workspace.allSections sec path ↔
      Registrable server? sections sec path := hs ▸ hf.registrable_iff
  have hposted : ∀ server e, server? = some server → sec.parse.element? path = some e → e.isService →
      (∀ t ∈ sections, ∃ es, t.parse = .elements es) →
        ∃ w', s.workspace.Learns w' ∧
          let answer := server.post Registration.path payload ⟨w', s.requests, s.host.host⟩
          ∃ out, Told e path answer.1 out ∧ run = (out.map ([·]), ⟨answer.2.workspace, answer.2.requests,
            ⟨answer.2.host, s.host.calls ++ [.post Registration.path payload]⟩⟩) := by
    intro server e hsome he hservice hparses
    have hall := (hregistrable.2 ⟨⟨e, he, hservice⟩, by rw [hsome]; rfl, hparses⟩).parses
    have hrun := execute_of_registrable (u := v.surroundings) hp hheld
      hserver args ps hsome he hservice hall hlearns
    rwa [hpayload] at hrun
  have hnothing : ¬Registrable server? sections sec path →
      ∃ w' r, s.workspace.Learns w' ∧ r.outcome = .error ∧ r.ids = [path] ∧
        run = (.ok [r], { s with workspace := w' }) := fun h ↦
    execute_of_not_registrable (u := v.surroundings) hp hheld hserver args ps
      (fun hr ↦ h (hregistrable.1 hr)) hlearns
  refine ⟨⟨pairwise_allSections (nodup_openAfter operations), fun t ↦ mem_allSections⟩,
    ⟨fun hcalls ↦ ?_, fun h ↦ ?_⟩, hposted, hnothing⟩
  · -- Else no call would have come to those before.
    by_contra h
    obtain ⟨w', r, -, -, -, hrun⟩ := hnothing h
    rw [hrun] at hcalls
    simp at hcalls
  · obtain ⟨e, he, hservice⟩ := h.service
    obtain ⟨server, hsome⟩ := Option.isSome_iff_exists.1 h.server
    obtain ⟨w', -, out, -, hrun⟩ := hposted server e hsome he hservice h.parses
    rw [hrun]

/-- Workers of which only the execution server does anything: whatever it is posted, it gives that
answer. -/
def answering (response : String) : Workers Unit :=
  { Workers.idle with executionServer := some ⟨fun _ _ ↦ pure response⟩ }

/-- A document that declares one service. -/
def serviceText : String :=
  "\x7b\"sections\":[\x7b\"grammar\":\"Service\",\"elements\":[" ++
    "\x7b\"kind\":\"service\",\"path\":\"s\"\x7d]\x7d]\x7d"

/-- What has happened when that document was set for such workers. -/
def serviceHistory [Depths] (response : String) : History (Recorded Unit) :=
  after (answering response).server ⟨(), []⟩ [.set "a" serviceText 1]

open Depths in
/-- The service can be registered, in the section that was handed out. -/
theorem exists_registrable {response : String}
    (hhanded : ((serviceHistory response).handed.any fun sec ↦
      (sec.parse.element? "s").any (·.isService)) = true) :
    ∃ sec ∈ (serviceHistory response).handed,
      Registrable (answering response).executionServer
        (openAfter [.set "a" serviceText 1]).allSections sec "s" := by
  obtain ⟨sec, hsec, hany⟩ := List.any_eq_true.1 hhanded
  have hparses : ((openAfter [.set "a" serviceText 1]).allSections.all (·.parse.isClean)) = true := by
    decide +kernel
  exact ⟨sec, hsec, (Option.any_eq_true _ _).1 hany, rfl, fun t ht ↦
    Parsed.isClean_iff.1 (List.all_eq_true.1 hparses t ht)⟩

open Depths in
/-- The service is posted once, and a path that is not declared is not posted. -/
theorem register_serviceText :
    ∃ sec ∈ (serviceHistory "done").handed, ∃ payload,
      (extension.execute (answering "done").server.surroundings
        ⟨sec, "s", Command.registerId, [], []⟩ (serviceHistory "done").session).2.host.calls =
          (serviceHistory "done").session.host.calls ++ [.post Registration.path payload] ∧
      ∃ r, r.outcome = .error ∧
        (extension.execute (answering "done").server.surroundings
          ⟨sec, "t", Command.registerId, [], []⟩ (serviceHistory "done").session).1 = .ok [r] := by
  have hhanded : ((serviceHistory "done").handed.any fun sec ↦
      (sec.parse.element? "s").any (·.isService)) = true := by decide +kernel
  have hmissing : ((serviceHistory "done").handed.all fun sec ↦
      (sec.parse.element? "t").isNone) = true := by decide +kernel
  obtain ⟨sec, hsec, hregistrable⟩ := exists_registrable hhanded
  have hsec' : sec ∈ (after (answering "done").server ⟨(), []⟩ [.set "a" serviceText 1]).handed := by
    rwa [serviceHistory] at hsec
  have hposted := register_whole_project_or_nothing (answering "done").server rfl
    (answering "done").executionServer rfl ⟨(), []⟩ [.set "a" serviceText 1]
    (s := (serviceHistory "done").session) (by rw [serviceHistory]) hsec'
  refine ⟨sec, hsec, _, (hposted "s" [] []).2.1.2 hregistrable, ?_⟩
  have hnot : ¬Registrable (answering "done").executionServer
      (openAfter [.set "a" serviceText 1]).allSections sec "t" := by
    rintro ⟨⟨e, he, -⟩, -, -⟩
    have hnone := List.all_eq_true.1 hmissing sec hsec
    rw [he] at hnone
    cases hnone
  obtain ⟨w', r, -, herror, -, hrun⟩ := (hposted "t" [] []).2.2.2 hnot
  exact ⟨r, herror, congrArg Prod.fst hrun⟩

/-- An answer that opens list upon list and is no JSON. -/
def deepAnswer : String :=
  String.ofList (List.replicate 5000 '[' ++ [])

open Depths in
/-- **A server that answers may leave an error behind**: nothing keeps the service from being registered
and the server does not fail, but what it answers is nested too deep to be shown. -/
theorem deepAnswer_not_shown :
    ∃ sec ∈ (serviceHistory deepAnswer).handed, ∃ server,
      (answering deepAnswer).executionServer = some server ∧
      Registrable (some server) (openAfter [.set "a" serviceText 1]).allSections sec "s" ∧
      (∀ path payload t, (server.post path payload t).1 = .ok deepAnswer) ∧
      ∃ r, r.outcome = .error ∧
        (extension.execute (answering deepAnswer).server.surroundings
          ⟨sec, "s", Command.registerId, [], []⟩ (serviceHistory deepAnswer).session).1 = .ok [r] := by
  have hhanded : ((serviceHistory deepAnswer).handed.any fun sec ↦
      (sec.parse.element? "s").any (·.isService)) = true := by decide +kernel
  obtain ⟨sec, hsec, hregistrable⟩ := exists_registrable hhanded
  refine ⟨sec, hsec, ⟨fun _ _ ↦ pure deepAnswer⟩, rfl, hregistrable, fun _ _ _ ↦ rfl, ?_⟩
  have hf : Follows (openAfter [.set "a" serviceText 1]) (serviceHistory deepAnswer) := by
    rw [serviceHistory]
    exact follows_after (v := (answering deepAnswer).server) rfl ⟨(), []⟩ _
  have hall := hf.registrable_iff.2 hregistrable
  obtain ⟨e, he, hservice⟩ := hall.service
  have hserver : (answering deepAnswer).server.surroundings.collaborators.executionServer =
      (answering deepAnswer).executionServer.map (·.recorded) := rfl
  obtain ⟨w', -, out, htold, hrun⟩ := execute_of_registrable
    (u := (answering deepAnswer).server.surroundings) rfl (hf.held sec hsec) hserver [] [] rfl he
    hservice hall.parses
    (s := (serviceHistory deepAnswer).session) hf.sound.learns
  obtain ⟨r, rfl, herror⟩ := htold.outcome_of_tooDeep (Registration.tooDeep_of_opening (by decide) [])
  exact ⟨r, herror, congrArg Prod.fst hrun⟩

end History

end ModelServer
