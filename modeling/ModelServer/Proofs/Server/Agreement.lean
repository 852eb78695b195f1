import Mathlib.Data.List.Flatten
import ModelServer.Proofs.Grammar.Dispatch
import ModelServer.Proofs.Server.Boundary
import ModelServer.Proofs.Server.History

/-!
# Discovery and dispatch agree

What a document offers and what becomes of a command are decided in different places: offers are made
for each element by the extension of its section, while a command names a path, which has to be found
again. In a project that compiles no path is declared twice, so what is found is the section and the
element that the offer was made for (`Compiled.find?_of_nodup`), and from there on `Settled` says of each
extension that it serves just what it offers.

`offered_iff_reached` puts this together for every state that a server can be in: a command is offered
for an element exactly if running it gets past all static checks, to a call that is made for that element
or to the choice of a variant; and one that is not offered is answered by one error, and nobody is
called. The server has the grammars that every server has; what is installed beside it for those who plan
and test is part of the `Workers`, and may be anything.
-/

namespace ModelServer

variable {H : Type}

/-! ### Errors of refused commands -/

namespace Result

/-- Faults whose wordings start differently are told apart. -/
theorem worded_ne_worded {path : String} {f g : Fault} {c d : Char} {cs ds : List Char}
    (hf : f.message.toList = c :: cs) (hg : g.message.toList = d :: ds) (hne : c ≠ d) :
    worded path f none ≠ worded path g none := by
  intro h
  have hmessage : messageOf f.message = messageOf g.message := congrArg Result.message h
  rw [messageOf_of_cons hf, messageOf_of_cons hg] at hmessage
  rw [hmessage, hg] at hf
  exact hne (List.cons.inj hf).1.symm

theorem ofElement_ne_worded {path : String} {o : Outcome} {message : String}
    {location : Option Location} {f : Fault} :
    ofElement path o message location ≠ worded path f none := by
  intro h
  have hlog : (none : Option String) = some _ := congrArg Result.logMessage h
  cases hlog

end Result

/-- A fault by which a command stops that got past all static checks. -/
inductive Fault.Dynamic : Fault → Prop where
  | unmatchedKey (key : String) (value : Json) : Dynamic (.unmatchedKey key value)
  | cancelled (request : String) : Dynamic (.cancelled request)

/-- What a command comes to that ended so: a fault that has a text is one result. -/
def Extension.results (path : String) : Except Fault (List Result) → Except Fault (List Result)
  | .ok rs => .ok rs
  | .error f => (Result.ofFault path f none).map ([·])

theorem Extension.results_of_hasText {f : Fault} (h : f.HasText) (path : String) :
    results path (.error f) = .ok [.worded path f none] := by
  rw [results, Result.ofFault_of_hasText h]
  rfl

/-- A command that is refused has one result, an error, and it is not one of those by which a command
stops that was not refused. -/
theorem Refusal.result {path : String} {r : Except Fault (List Result)} (h : Refusal path r) :
    ∃ result, Extension.results path r = .ok [result] ∧ result.outcome = .error ∧
      ∀ f : Fault, f.Dynamic → result ≠ .worded path f none := by
  cases h with
  | told message location =>
    exact ⟨_, rfl, rfl, fun f _ ↦ Result.ofElement_ne_worded⟩
  | noService =>
    refine ⟨_, rfl, rfl, ?_⟩
    have hmessage : (Fault.plain .lookup ("Unable to find service " ++ path)).message.toList =
        'U' :: ("nable to find service ".toList ++ path.toList) := String.toList_append
    rintro _ (⟨key, value⟩ | ⟨request⟩)
    · exact Result.worded_ne_worded hmessage String.toList_append (by decide)
    · exact Result.worded_ne_worded hmessage String.toList_append (by decide)
  | noServer =>
    refine ⟨_, rfl, rfl, ?_⟩
    have hmessage : (Fault.unconfigured "execution server").message.toList =
        'N' :: "o execution server is configured".toList := rfl
    rintro _ (⟨key, value⟩ | ⟨request⟩)
    · exact Result.worded_ne_worded hmessage String.toList_append (by decide)
    · exact Result.worded_ne_worded hmessage String.toList_append (by decide)

/-! ### The extension of a section -/

namespace Server

theorem names_of_mem [Depths] {x : Extension H} (hx : x ∈ defaultExtensions) : x.Names := by
  simp only [defaultExtensions, List.mem_cons, List.not_mem_nil, or_false] at hx
  rcases hx with rfl | rfl | rfl
  · exact ServiceGrammar.names
  · exact RuntimeGrammar.names
  · exact FunctionGrammar.names

theorem settled_of_mem [Depths] {k : Workers H} {x : Extension (Recorded H)}
    (hx : x ∈ defaultExtensions)
    {w : Workspace} {m : CompiledModel} {sec : Section} {e : Element} (hf : Found w m sec e)
    (id : String) (ps : InputParameters) :
    Settled w (x.Offered k.server.surroundings e id) e id
      (x.dispatch k.server.surroundings ⟨sec, e.path, id, [], ps⟩) := by
  simp only [defaultExtensions, List.mem_cons, List.not_mem_nil, or_false] at hx
  rcases hx with rfl | rfl | rfl
  · exact ServiceGrammar.settled_dispatch hf
  · exact RuntimeGrammar.settled_dispatch hf
  · exact FunctionGrammar.settled_dispatch hf

end Server

/-- Running a command ends as its dispatch does, a fault being taken as a result. -/
theorem Extension.execute_apply (x : Extension H) (s : Surroundings H) (i : Invocation)
    (t : Session H) :
    x.execute s i t =
      (results i.path (x.dispatch s i t).1, (x.dispatch s i t).2) := by
  rw [execute, Action.bind_of_ok (Action.outcome_apply _ t)]
  cases (x.dispatch s i t).1 with
  | ok rs => rfl
  | error f =>
    dsimp only
    rw [results]
    cases Result.ofFault i.path f none <;> rfl

/-! ### Offers and runs -/

/-- The document offers the command for elements of that path. -/
def Server.Offers (v : Server H) (s : Session H) (document path id : String) : Prop :=
  ∃ cs, (v.documentCommands document s).1 = .ok cs ∧ ∃ c ∈ cs, c.entityPath = path ∧ c.id = id

/-- The run of a command, from `s`, got past all static checks: it made a call for the element, or
stopped where a variant is chosen. -/
def Reached (e : Element) (id : String) (s : Session (Recorded H))
    (run : Except Fault (List Result) × Session (Recorded H)) : Prop :=
  (∃ call more, call.Serves e id ∧ run.2.host.calls = s.host.calls ++ call :: more) ∨
    ∃ key value, run.1 = .ok [.worded e.path (.unmatchedKey key value) none]

/-- The run of a command, from `s`, got past all static checks too, but there it stopped, since the work
itself belongs to a request that was cancelled. -/
def Interrupted (e : Element) (s : Session (Recorded H))
    (run : Except Fault (List Result) × Session (Recorded H)) : Prop :=
  ∃ request, s.requests.Stopped request ∧ run.1 = .ok [.worded e.path (.cancelled request) none]

/-- The run of a command, from `s`, ended in one error, and nobody was called. -/
def Refused (s : Session (Recorded H))
    (run : Except Fault (List Result) × Session (Recorded H)) : Prop :=
  ∃ result, run.1 = .ok [result] ∧ result.outcome = .error ∧ run.2.host = s.host

theorem not_reached {e : Element} {id : String} {s : Session (Recorded H)} {result : Result}
    {run : Except Fault (List Result) × Session (Recorded H)} (hrun : run.1 = .ok [result])
    (hne : ∀ f : Fault, f.Dynamic → result ≠ .worded e.path f none) (hhost : run.2.host = s.host) :
    ¬(Reached e id s run ∨ Interrupted e s run) := by
  rintro ((⟨call, more, -, hcalls⟩ | ⟨key, value, hresult⟩) | ⟨request, -, hresult⟩)
  · -- A call would have been recorded.
    rw [hhost, List.self_eq_append_right] at hcalls
    cases hcalls
  · rw [hrun] at hresult
    exact hne _ (.unmatchedKey key value) (List.singleton_inj.1 (Except.ok.inj hresult))
  · rw [hrun] at hresult
    exact hne _ (.cancelled request) (List.singleton_inj.1 (Except.ok.inj hresult))

/-- What comes of a dispatch comes of the run. -/
theorem Settled.execute [Depths] {w : Workspace} {offered : Prop} {e : Element} {id : String}
    {x : Extension (Recorded H)} {u : Surroundings (Recorded H)} {i : Invocation}
    (h : Settled w offered e id (x.dispatch u i)) (hi : i.path = e.path) {s : Session (Recorded H)}
    (hs : w.Learns s.workspace) :
    (offered → Reached e id s (x.execute u i s) ∨ Interrupted e s (x.execute u i s)) ∧
      (¬offered → Refused s (x.execute u i s) ∧
        ¬(Reached e id s (x.execute u i s) ∨ Interrupted e s (x.execute u i s))) := by
  rw [x.execute_apply, hi]
  refine ⟨fun ho ↦ ?_, fun hn ↦ ?_⟩
  · rcases h.served ho with hreaches | ⟨key, value, hanswers⟩
    · rcases hreaches s hs with ⟨call, more, hserves, hcalls⟩ | ⟨request, hstopped, herror⟩
      · exact .inl (.inl ⟨call, more, hserves, hcalls⟩)
      · refine .inr ⟨request, hstopped, ?_⟩
        rw [herror]
        rfl
    · obtain ⟨w', -, hrun⟩ := hanswers s hs
      refine .inl (.inr ⟨key, value, ?_⟩)
      rw [hrun]
      rfl
  · obtain ⟨r, hrefusal, hanswers⟩ := h.refused hn
    obtain ⟨w', -, hrun⟩ := hanswers s hs
    obtain ⟨result, hresult, hoftype, hne⟩ := hrefusal.result
    have hok : Extension.results e.path (x.dispatch u i s).1 = .ok [result] := by
      rw [hrun]
      exact hresult
    have hhost : (x.dispatch u i s).2.host = s.host := by rw [hrun]
    exact ⟨⟨result, hok, hoftype, hhost⟩, not_reached hok hne hhost⟩

section Runs

variable {k : Workers H} {w : Workspace} {m : CompiledModel} {document : String} {sec : Section}
  {e : Element}

/-- What a section declares can be found in a project that compiles. -/
theorem found_of_mem [Depths] (hw : w.Sound) (hm : Compiled.ofSections w.allSections = .model m)
    (hsec : sec ∈ w.sectionsOf document) (he : e ∈ sec.parse.toList) :
    Found w m sec e ∧
      (w.sectionsOf document).find? (fun s ↦ (s.parse.element? e.path).isSome) = some sec ∧
      ∀ s ∈ w.sectionsOf document, ∀ d ∈ s.parse.toList, d.path = e.path → s = sec ∧ d = e := by
  have hn := (Compiled.nodup_of_ofSections hm).sublist
    (((w.sectionsOf_sublist document).flatMap _).map _)
  obtain ⟨hfind, helement, hunique⟩ := Compiled.find?_of_nodup hn hsec he
  exact ⟨⟨hw, hm, (hw.held hsec).2, helement⟩, hfind, hunique⟩

variable [Depths] (hw : w.Sound) (hm : Compiled.ofSections w.allSections = .model m)
  (hsec : sec ∈ w.sectionsOf document) (he : e ∈ sec.parse.toList) (id : String)

include hw hm hsec he

/-- A document offers a command for an element exactly if the extension of its section does. -/
theorem offers_iff {s : Session (Recorded H)} (hs : w.Learns s.workspace) :
    k.server.Offers s document e.path id ↔
      ∃ x, k.server.extensionFor sec = some x ∧ x.Offered k.server.surroundings e id := by
  obtain ⟨-, -, hunique⟩ := found_of_mem hw hm hsec he
  have hsections : w.Answers (Server.sections document : Action (Recorded H) _)
      (.ok (w.sectionsOf document)) :=
    .bind_workspace fun w' hw' ↦ hw'.sectionsOf document ▸ .pure _
  obtain ⟨w', -, hrun⟩ := (hsections.bind
    (.commandsIn (v := k.server) rfl fun s hs ↦ (hw.held hs).2)) s hs
  have hmem (t : Section) : (∃ c ∈ k.server.commandsOf t, c.entityPath = e.path ∧ c.id = id) ↔
      ∃ x, k.server.extensionFor t = some x ∧
        ∃ d ∈ t.parse.toList, d.path = e.path ∧ x.Offered k.server.surroundings d id := by
    rw [Server.commandsOf]
    cases hx : k.server.extensionFor t with
    | none => simp
    | some x =>
      have hnames := Server.names_of_mem (List.mem_of_find?_eq_some hx)
      rw [Extension.exists_mem_commandsOf hnames]
      simp
  constructor
  · -- The command may come of any section, but no other section declares the path.
    rintro ⟨cs, hcs, c, hc, hkey⟩
    obtain rfl : (w.sectionsOf document).flatMap k.server.commandsOf = cs :=
      Except.ok.inj ((congrArg Prod.fst hrun).symm.trans hcs)
    obtain ⟨t, ht, hct⟩ := List.mem_flatMap.1 hc
    obtain ⟨x, hx, d, hd, hpath, hoffered⟩ := (hmem t).1 ⟨c, hct, hkey⟩
    obtain ⟨rfl, rfl⟩ := hunique t ht d hd hpath
    exact ⟨x, hx, hoffered⟩
  · rintro ⟨x, hx, hoffered⟩
    obtain ⟨c, hc, hkey⟩ := (hmem sec).2 ⟨x, hx, e, he, rfl, hoffered⟩
    exact ⟨_, congrArg Prod.fst hrun, c, List.mem_flatMap.2 ⟨sec, hsec, hc⟩, hkey⟩

/-- A command that names the path of an element is run by the extension of its section, or nobody is
there to run it. -/
theorem runCommand_apply (ps : InputParameters) {s : Session (Recorded H)}
    (hs : w.Learns s.workspace) :
    ∃ w', w.Learns w' ∧
      k.server.runCommand ⟨document, none, e.path, id, [], ps⟩ s =
        match k.server.extensionFor sec with
        | some x => x.execute k.server.surroundings ⟨sec, e.path, id, [], ps⟩ { s with workspace := w' }
        | none =>
          let what := if sec.grammar.isEmpty then "this section" else sec.grammar
          (.ok [.ofElement e.path .error ("No grammar extension handles " ++ what) none],
            { s with workspace := w' }) := by
  obtain ⟨-, hfind, -⟩ := found_of_mem hw hm hsec he
  have hlocate : w.Answers (k.recorded.locateSection document e.path none) (.ok (some sec)) :=
    hfind ▸ .findSection rfl hw document e.path
  obtain ⟨w', hw', hrun⟩ := hlocate s hs
  refine ⟨w', hw', ?_⟩
  refine (Action.bind_of_ok hrun _).trans ?_
  dsimp only
  cases k.server.extensionFor sec <;> rfl

/-- **A command is served if it is offered, and refused if it is not.** -/
theorem reached_or_refused (ps : InputParameters) {s : Session (Recorded H)}
    (hs : w.Learns s.workspace) :
    let run := k.server.runCommand ⟨document, none, e.path, id, [], ps⟩ s
    (k.server.Offers s document e.path id → Reached e id s run ∨ Interrupted e s run) ∧
      (¬k.server.Offers s document e.path id →
        Refused s run ∧ ¬(Reached e id s run ∨ Interrupted e s run)) := by
  intro run
  obtain ⟨hf, -, -⟩ := found_of_mem hw hm hsec he
  obtain ⟨w', hw', hrun⟩ := runCommand_apply (k := k) hw hm hsec he id ps hs
  rw [offers_iff hw hm hsec he id hs, show run = _ from hrun]
  cases hx : k.server.extensionFor sec with
  | some x =>
    have hsettled := Server.settled_of_mem (k := k) (List.mem_of_find?_eq_some hx) hf id ps
    have hrun' := hsettled.execute rfl (s := { s with workspace := w' }) hw'
    refine ⟨?_, fun hn ↦ hrun'.2 fun ho ↦ hn ⟨x, rfl, ho⟩⟩
    rintro ⟨y, hy, ho⟩
    obtain rfl : x = y := Option.some.inj hy
    exact hrun'.1 ho
  | none =>
    -- Nobody handles the section, so nothing is offered for it and every command is refused.
    refine ⟨?_, fun _ ↦ ⟨⟨_, rfl, rfl, rfl⟩, ?_⟩⟩
    · rintro ⟨_, hnone, -⟩
      cases hnone
    · exact not_reached rfl (fun f _ ↦ Result.ofElement_ne_worded) rfl

end Runs

/-- **A document offers just what it can do.** Whatever was done to the workspace before, whatever
requests there are and whatever the workers do and answer: if the project compiles, a command is offered
for an element of an open document exactly if running it reaches the element; and one that is not
offered is answered by one error, and nobody is called. Only where the work itself belongs to a request
that was cancelled a command that is offered may be interrupted instead. -/
theorem offered_iff_reached [Depths] (k : Workers H) (host : Recorded H) (operations : List Operation)
    {s : Session (Recorded H)}
    (hs : s.workspace = (History.after k.server host operations).session.workspace)
    {m : CompiledModel} (hm : (k.recorded.compile s).1 = .ok (.model m)) {document : String}
    {sec : Section} (hsec : sec ∈ s.workspace.sectionsOf document) {e : Element}
    (he : e ∈ sec.parse.toList) (id : String) (ps : InputParameters) :
    let run := k.server.runCommand ⟨document, none, e.path, id, [], ps⟩ s
    ((∀ request, ¬s.requests.Stopped request) →
      (k.server.Offers s document e.path id ↔ Reached e id s run)) ∧
    (k.server.Offers s document e.path id ↔ Reached e id s run ∨ Interrupted e s run) ∧
    (¬k.server.Offers s document e.path id → Refused s run) := by
  intro run
  have hw : s.workspace.Sound := hs ▸ (History.follows_after rfl host operations).sound
  have hcompiled : Compiled.ofSections s.workspace.allSections = .model m := by
    obtain ⟨w', -, hrun⟩ := Workspace.Answers.compile (c := k.recorded) rfl hw s hw.learns
    rw [hrun] at hm
    exact Except.ok.inj hm
  obtain ⟨hserved, hrefused⟩ := reached_or_refused (k := k) hw hcompiled hsec he id ps hw.learns
  have hiff : k.server.Offers s document e.path id ↔ Reached e id s run ∨ Interrupted e s run := by
    refine ⟨hserved, fun hreached ↦ ?_⟩
    by_contra hn
    exact (hrefused hn).2 hreached
  refine ⟨fun hfree ↦ hiff.trans (or_iff_left ?_), hiff, fun hn ↦ (hrefused hn).1⟩
  rintro ⟨request, hstopped, -⟩
  exact hfree request hstopped

/-- Workers that do nothing but fail, without an execution server. -/
def Workers.idle : Workers Unit :=
  ⟨⟨fun _ _ _ _ ↦ .fail .tooDeep⟩, ⟨fun _ _ _ ↦ .fail .tooDeep⟩,
    ⟨fun _ _ _ _ ↦ .fail .tooDeep, fun _ _ _ _ ↦ .fail .tooDeep⟩, none, .empty⟩

/-- The session in which the document with a function was set. -/
def functionSession [Depths] : Session (Recorded Unit) :=
  ⟨(History.after Workers.idle.server ⟨(), []⟩ [.set "a" functionText 1]).session.workspace, .empty,
    ⟨(), []⟩⟩

open Depths in
/-- The function is offered to be executed, and to execute it reaches it. -/
theorem function_offered_and_reached :
    ∃ e : Element, e.path = "f" ∧
      Workers.idle.server.Offers functionSession "a" e.path Command.executeId ∧
      Reached e Command.executeId functionSession
        (Workers.idle.server.runCommand ⟨"a", none, e.path, Command.executeId, [], []⟩
          functionSession) := by
  have hcompiles : ∃ m, (Workers.idle.recorded.compile functionSession).1 = .ok (.model m) := by
    have h : ((Workers.idle.recorded.compile functionSession).1.toOption.bind
        Compiled.model?).isSome = true := by decide +kernel
    rcases hrun : (Workers.idle.recorded.compile functionSession).1 with f | r
    · rw [hrun] at h
      cases h
    · rw [hrun] at h
      cases r with
      | model m => exact ⟨m, rfl⟩
      | faulty _ | nothing => cases h
  have hdeclared : ∃ sec ∈ functionSession.workspace.sectionsOf "a", ∃ e ∈ sec.parse.toList,
      e.path = "f" := by
    have h : ((functionSession.workspace.sectionsOf "a").any fun sec ↦
        sec.parse.toList.any fun e ↦ e.path == "f") = true := by decide +kernel
    simpa using h
  have hoffered : Workers.idle.server.Offers functionSession "a" "f" Command.executeId := by
    have h : ((Workers.idle.server.documentCommands "a" functionSession).1.toOption.any
        fun cs ↦ cs.any fun c ↦ c.entityPath == "f" && c.id == Command.executeId) = true := by
      decide +kernel
    rcases hrun : (Workers.idle.server.documentCommands "a" functionSession).1 with f | cs
    · rw [hrun] at h
      cases h
    · rw [hrun] at h
      exact ⟨cs, hrun, by simpa [Except.toOption] using h⟩
  obtain ⟨m, hm⟩ := hcompiles
  obtain ⟨sec, hsec, e, he, hpath⟩ := hdeclared
  rw [← hpath] at hoffered
  have hs : functionSession.workspace =
      (History.after Workers.idle.server ⟨(), []⟩ [.set "a" functionText 1]).session.workspace := by
    rw [functionSession]
  have hiff := offered_iff_reached Workers.idle ⟨(), []⟩ _ hs hm hsec he Command.executeId []
  have hfree : ∀ request, ¬functionSession.requests.Stopped request := by
    rintro request ⟨t, hcarried, -⟩
    cases hcarried
  exact ⟨e, hpath, hoffered, (hiff.1 hfree).1 hoffered⟩

end ModelServer
