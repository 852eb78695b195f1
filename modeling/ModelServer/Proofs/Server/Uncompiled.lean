import ModelServer.Proofs.Grammar.Uncompiled
import ModelServer.Proofs.Server.Parsing
import ModelServer.Proofs.Server.References

/-!
# Nothing runs in a project that does not compile

`RunsNothing` puts together what `Grammar.Uncompiled` shows of the commands and of table queries. It
holds of any session in which a section parses and the project does not compile, whoever reads the
documents.

Where documents are read as JSON more can be said. To parse changes nothing that the project compiles
to, so it is enough that the project does not compile, and it does not count which document, which
section or which declaration is at fault (`Workspace.Sound.stuck`). That the error which is told is that of
the project rests on one more fact: every fault of a project says something
(`Compiled.message_ne_empty`), and so is told in its own words.
-/

namespace ModelServer

variable {H α : Type}

/-! ### Faults of a project say something -/

theorem ne_empty_append {s t : String} (h : s ≠ "") : s ++ t ≠ "" := by
  intro hempty
  have hboth := String.append_eq_empty_iff.1 hempty
  exact h hboth.1

/-- A section that was cut from a text and does not parse says why. -/
theorem Section.IsCut.message_ne_empty [Depths] {s : Section} (h : s.IsCut) {f : CompileFault}
    (hf : s.parse = .faulty f) : f.message ≠ "" := by
  rw [parse] at hf
  cases hbody : s.body with
  | value v =>
    rw [hbody] at hf
    dsimp only at hf
    split at hf
    · cases hf
    · cases hf
      rw [String.append_assoc]
      intro hempty
      have hcolon := (String.append_eq_empty_iff.1 (String.append_eq_empty_iff.1 hempty).2).1
      exact absurd hcolon (by decide)
  | unreadable message =>
    rw [hbody] at hf
    cases hf
    obtain ⟨ss, hcuts, hs⟩ := h
    generalize s.document = d at hcuts
    cases hcuts with
    | invalid read shallow =>
      obtain rfl := List.mem_singleton.1 hs
      cases hbody
      exact ne_empty_append (by decide)
    | unlisted read unlisted =>
      obtain rfl := List.mem_singleton.1 hs
      cases hbody
      decide
    | listed read listed item =>
      obtain ⟨n, hn⟩ := List.mem_iff_getElem?.1 hs
      rw [item, Option.map_eq_some_iff] at hn
      obtain ⟨_, -, rfl⟩ := hn
      cases hbody

/-- **Why a project does not compile is said in words.** -/
theorem Compiled.message_ne_empty [Depths] {sections : List Section} (hcut : ∀ s ∈ sections, s.IsCut)
    {f : CompileFault} (hf : ofSections sections = .faulty f) : f.message ≠ "" := by
  obtain ⟨before, sec, after, rfl, hat⟩ := eq_faulty_iff.1 hf
  cases hat with
  | unparsed clean parse =>
    exact (hcut sec (List.mem_append_right _ List.mem_cons_self)).message_ne_empty parse
  | duplicate clean parse nodup declared => exact ne_empty_append (by decide)

/-! ### Sessions in which documents are read as JSON -/

namespace Workspace

variable [Depths] {c : Collaborators H} {w : Workspace} (hp : c.provider = DocumentProvider.provider)
  (hw : w.Sound)

include hp hw

/-- **A project does not compile in whatever section it is seen**: to parse the section changes nothing
about the project. -/
theorem Sound.stuck {f : CompileFault} (hf : (Compiled.ofSections w.allSections).toExcept = .error f)
    {sec : Section} (hsec : w.Held sec) {s : Session H} (hs : w.Learns s.workspace) :
    c.Stuck sec sec.parse f s := by
  obtain ⟨w', hw', hparse⟩ := Answers.parse hp hsec s hs
  obtain ⟨w'', -, hcompile⟩ := Answers.compile hp hw { s with workspace := w' } hw'
  exact ⟨_, hparse, _, _, hcompile, hf⟩

end Workspace

/-- To find the section of a request calls nobody. -/
theorem Barred.of_locateSection [Depths] {c : Collaborators H} {w : Workspace}
    (hp : c.provider = DocumentProvider.provider) (hw : w.Sound) {path : String} {f : CompileFault}
    {able : Prop} {s : Session (Recorded H)} (hs : w.Learns s.workspace) {one : Result → α}
    {document entity : String} {index : Option Int}
    {next : Option Section → Action (Recorded H) α}
    (hnext : ∀ t : Session (Recorded H), w.Learns t.workspace → t.requests = s.requests →
      Barred path f able t one (next (w.located document entity index))) :
    Barred path f able s one (c.recorded.locateSection document entity index >>= next) := by
  obtain ⟨w', hw', hrun⟩ := Workspace.Answers.locateSection hp hw document entity index
    s.unrecorded hs
  obtain ⟨s₁, hs₁, hunrecorded, hcalls₁⟩ := Action.within_of_apply hrun
  have hworkspace : s₁.workspace = w' := congrArg Session.workspace hunrecorded
  have hrequests : s₁.unrecorded.requests = s.requests := congrArg Session.requests hunrecorded
  obtain ⟨r, s₂, hrun₂, htells, hcalls₂⟩ := hnext s₁ (hworkspace ▸ hw') hrequests
  refine ⟨r, s₂, ?_, htells, hcalls₂.trans hcalls₁⟩
  rw [c.recorded_locateSection, Action.bind_of_ok hs₁, hrun₂]

/-! ### Nothing runs -/

/-- In the session nothing of the section is run, which parses to `p`: each command that would run
something ends in one error of the element, and so does each table query whose token is not cancelled,
and nobody is called. Where there is something to run the error is that of the project. -/
structure RunsNothing [Depths] (c : Collaborators H) (sec : Section) (p : Parsed) (f : CompileFault)
    (s : Session (Recorded H)) : Prop where
  commands : ∀ x ∈ Server.defaultExtensions, ∀ families (i : Invocation), i.sec = sec →
    i.commandId ∈ Command.running →
      Barred i.path f (∃ e, p.element? i.path = some e ∧ (e.runnable x.name).Has i) s (fun r ↦ [r])
        (x.execute ⟨c.recorded, families⟩ i)
  queries : ∀ x ∈ Server.defaultExtensions, ∀ support, x.execution = some support →
    ∀ path q ps token, s.requests.isCancelled token = false →
      Barred path f (∃ e, p.element? path = some e ∧ (e.runnable x.name).lambda.isSome) s id
        (Executable.query support c.recorded sec path q ps token)

theorem Collaborators.Stuck.runsNothing [Depths] {c : Collaborators H} {sec : Section} {p : Parsed}
    {f : CompileFault} {s : Session (Recorded H)} (h : c.Stuck sec p f s.unrecorded)
    (hcarrying : ∀ token, c.Stuck sec p f (s.carrying token).unrecorded) :
    RunsNothing c sec p f s where
  commands x hx families i hi hid := by
    obtain rfl := hi
    exact x.barred_execute h families hx hid
  queries x hx support hsupport path q ps token htoken :=
    x.barred_query hx hsupport (hcarrying token) htoken path q ps

/-- The server of the collaborators, with the extensions that are always there. -/
def Collaborators.server [Depths] (c : Collaborators H) : Server H :=
  ⟨c, Server.defaultExtensions⟩

/-- The request is about that element, in the section, and the extension handles it. -/
def Server.Addresses (v : Server H) (w : Workspace) (document path : String) (index : Option Int)
    (sec : Section) (x : Extension H) (e : Element) : Prop :=
  w.located document path index = some sec ∧ v.extensionFor sec = some x ∧
    sec.parse.element? path = some e

/-- An extension without execution has no lambda to execute. -/
theorem lambda_eq_none_of_execution [Depths] {x : Extension H} (hx : x ∈ Server.defaultExtensions)
    (h : x.execution = none) (e : Element) : (e.runnable x.name).lambda = none := by
  simp only [Server.defaultExtensions, List.mem_cons, List.not_mem_nil, or_false] at hx
  rcases hx with rfl | rfl | rfl
  · cases h
  · rfl
  · cases h

section Requests

variable [Depths] {c : Collaborators H} {w : Workspace} (hp : c.provider = DocumentProvider.provider)
  (hw : w.Sound) {f : CompileFault}
  (hf : (Compiled.ofSections w.allSections).toExcept = .error f) {s : Session (Recorded H)}
  (hs : w.Learns s.workspace)

include hp hw hf hs

theorem Workspace.Sound.runsNothing {sec : Section} (hsec : w.Held sec) :
    RunsNothing c sec sec.parse f s :=
  Collaborators.Stuck.runsNothing (hw.stuck hp hf hsec hs) fun _ ↦ hw.stuck hp hf hsec hs

/-- A request to run a command is barred wherever it is sent to. -/
theorem barred_runCommand (r : Api.ExecuteRequest) (hr : r.commandId ∈ Command.running) :
    Barred r.entityPath f
      (∃ sec x e, c.recorded.server.Addresses w r.uri r.entityPath r.sectionIndex sec x e ∧
        (e.runnable x.name).Has
          ⟨sec, r.entityPath, r.commandId, r.executableArgs, r.inputParameters⟩)
      s (fun r ↦ [r]) (c.recorded.server.runCommand r) := by
  rw [Server.runCommand]
  refine .of_locateSection hp hw hs fun t ht _ ↦ ?_
  cases hlocated : w.located r.uri r.entityPath r.sectionIndex with
  | none =>
    refine .pure (Result.tells_ofElement ?_) rfl
    rintro ⟨sec, x, e, ⟨hsome, -, -⟩, -⟩
    cases hlocated.symm.trans hsome
  | some sec =>
    dsimp only
    cases hx : c.recorded.server.extensionFor sec with
    | none =>
      refine .pure (Result.tells_ofElement ?_) rfl
      rintro ⟨_, x, e, ⟨hsome, hextension, -⟩, -⟩
      rw [← Option.some.inj (hlocated.symm.trans hsome), hx] at hextension
      cases hextension
    | some x =>
      have hsec := (hw.held (Workspace.mem_of_located hlocated)).2
      refine ((hw.runsNothing hp hf ht hsec).commands x (List.mem_of_find?_eq_some hx) _ _ rfl
        hr).mono ?_
      rintro ⟨_, _, e, ⟨hsome, hextension, he⟩, hhas⟩
      obtain rfl := Option.some.inj (hlocated.symm.trans hsome)
      obtain rfl := Option.some.inj (hx.symm.trans hextension)
      exact ⟨e, he, hhas⟩

/-- A table query is barred wherever it is sent to. -/
theorem barred_runTableQuery (r : Api.TableRequest) {token : TokenId}
    (htoken : s.requests.isCancelled token = false) :
    Barred r.entityPath f
      (∃ sec x e, c.recorded.server.Addresses w r.uri r.entityPath r.sectionIndex sec x e ∧
        (e.runnable x.name).lambda.isSome)
      s id (c.recorded.server.runTableQuery r token) := by
  rw [Server.runTableQuery]
  refine .of_locateSection hp hw hs fun t ht hrequests ↦ ?_
  cases hlocated : w.located r.uri r.entityPath r.sectionIndex with
  | none =>
    refine .pure (Result.tells_ofElement ?_) rfl
    rintro ⟨sec, x, e, ⟨hsome, -, -⟩, -⟩
    cases hlocated.symm.trans hsome
  | some sec =>
    dsimp only
    cases hsupport : (c.recorded.server.extensionFor sec).bind (·.execution) with
    | none =>
      refine .pure (Result.tells_ofElement ?_) rfl
      rintro ⟨_, x, e, ⟨hsome, hextension, -⟩, hlambda⟩
      obtain rfl := Option.some.inj (hlocated.symm.trans hsome)
      rw [hextension] at hsupport
      rw [lambda_eq_none_of_execution (List.mem_of_find?_eq_some hextension) hsupport] at hlambda
      cases hlambda
    | some support =>
      obtain ⟨x, hx, hsupport⟩ := Option.bind_eq_some_iff.1 hsupport
      have hsec := (hw.held (Workspace.mem_of_located hlocated)).2
      refine ((hw.runsNothing hp hf ht hsec).queries x (List.mem_of_find?_eq_some hx) support
        hsupport _ _ _ token (hrequests ▸ htoken)).mono ?_
      rintro ⟨_, _, e, ⟨hsome, hextension, he⟩, hlambda⟩
      obtain rfl := Option.some.inj (hlocated.symm.trans hsome)
      obtain rfl := Option.some.inj (hx.symm.trans hextension)
      exact ⟨e, he, hlambda⟩

end Requests

/-- **In a project that does not compile nothing runs.** Whoever reads the documents, whatever the
others do: if a section parses in a session in which the project does not compile, then to execute an
element of the section, to run its tests or its older test, or to query its table ends in one error of
the element, and nobody is called.

Where documents are read as JSON, that is so after any history for every section that was ever handed
out, and for every request, wherever in the project the fault is; and where there is something to run the
error has the message of the fault, which is never empty, and its place. -/
theorem nothing_runs_uncompiled [Depths] (c : Collaborators H) :
    (∀ sec p f (s : Session (Recorded H)), c.Stuck sec p f s.unrecorded →
      (∀ token, c.Stuck sec p f (s.carrying token).unrecorded) → RunsNothing c sec p f s) ∧
    (c.provider = DocumentProvider.provider → ∀ (host : H) (operations : List Operation)
      (s : Session (Recorded H)),
      s.workspace = (History.after c.server host operations).session.workspace → ∀ r f,
      (c.compile s.unrecorded).1 = .ok r → r.toExcept = .error f →
        f.message ≠ "" ∧
        (∀ sec ∈ (History.after c.server host operations).handed,
          RunsNothing c sec sec.parse f s) ∧
        (∀ r : Api.ExecuteRequest, r.commandId ∈ Command.running →
          Barred r.entityPath f
            (∃ sec x e,
              c.recorded.server.Addresses s.workspace r.uri r.entityPath r.sectionIndex sec x e ∧
              (e.runnable x.name).Has
                ⟨sec, r.entityPath, r.commandId, r.executableArgs, r.inputParameters⟩)
            s (fun r ↦ [r]) (c.recorded.server.runCommand r)) ∧
        ∀ (r : Api.TableRequest) token, s.requests.isCancelled token = false →
          Barred r.entityPath f
            (∃ sec x e,
              c.recorded.server.Addresses s.workspace r.uri r.entityPath r.sectionIndex sec x e ∧
              (e.runnable x.name).lambda.isSome)
            s id (c.recorded.server.runTableQuery r token)) := by
  refine ⟨fun sec p f s h hcarrying ↦ h.runsNothing hcarrying, ?_⟩
  intro hp host operations s hs r f hcompile hr
  have hfollows := History.follows_after (v := c.server) hp host operations
  have hw : s.workspace.Sound := hs ▸ hfollows.sound
  have hf : (Compiled.ofSections s.workspace.allSections).toExcept = .error f := by
    obtain ⟨w', -, hrun⟩ := Workspace.Answers.compile hp hw s.unrecorded hw.learns
    rw [hrun] at hcompile
    rw [Except.ok.inj hcompile, hr]
  refine ⟨?_, fun sec hsec ↦ hw.runsNothing hp hf hw.learns (hs ▸ hfollows.held sec hsec),
    fun r hid ↦ barred_runCommand hp hw hf hw.learns r hid,
    fun r token htoken ↦ barred_runTableQuery hp hw hf hw.learns r htoken⟩
  have hcut : ∀ sec ∈ s.workspace.allSections, sec.IsCut := fun sec hsec ↦ by
    obtain ⟨id, hid⟩ := (Workspace.mem_allSections hw.nodup).1 hsec
    exact hw.isCut hid
  cases hofSections : Compiled.ofSections s.workspace.allSections with
  | model m =>
    rw [hofSections] at hf
    cases hf
  | faulty fault =>
    rw [hofSections] at hf
    obtain rfl : fault = f := Except.error.inj hf
    exact Compiled.message_ne_empty hcut hofSections
  | nothing => exact absurd hofSections Compiled.ofSections_ne_nothing

/-- The idle workers, as collaborators that read documents as JSON. -/
def idleCollaborators [Depths] : Collaborators Unit :=
  ⟨DocumentProvider.provider, some Workers.idle.generator, some Workers.idle.executor,
    some Workers.idle.runner, none, .empty⟩

/-- A function with a lambda is set, and then another document that lists no sections. -/
def brokenBeside : List Operation :=
  [.set "a" functionText 1, .set "b" "[]" 1]

/-- The session in which those documents are open. -/
def brokenSession [Depths] : Session (Recorded Unit) :=
  ⟨(History.after idleCollaborators.server () brokenBeside).session.workspace, .empty, ⟨(), []⟩⟩

/-- What is wrong with the other document. -/
def brokenFault : CompileFault :=
  ⟨"Expected an object with a 'sections' list", none, true⟩

open Depths in
/-- The documents are looked at in the order in which they were set. -/
theorem sort_brokenSession : Dictionary.sort brokenSession.workspace.sections =
    brokenSession.workspace.sections :=
  List.mergeSort_of_pairwise (by decide +kernel)

open Depths in
theorem compile_brokenSession : (idleCollaborators.compile brokenSession.unrecorded).1 =
    .ok (.faulty brokenFault) := by
  have hw : brokenSession.workspace.Sound :=
    (History.follows_after (v := idleCollaborators.server) rfl () brokenBeside).sound
  have hfaulty : (match Compiled.ofSections (brokenSession.workspace.sections.flatMap (·.2)) with
      | .faulty f => some f
      | _ => none) = some brokenFault := by decide +kernel
  obtain ⟨w', -, hrun⟩ := Workspace.Answers.compile (c := idleCollaborators) rfl hw
    brokenSession.unrecorded hw.learns
  rw [hrun, Workspace.allSections, sort_brokenSession]
  cases hr : Compiled.ofSections (brokenSession.workspace.sections.flatMap (·.2)) with
  | faulty f =>
    rw [hr] at hfaulty
    rw [Option.some.inj hfaulty]
  | model _ | nothing =>
    rw [hr] at hfaulty
    cases hfaulty

open Depths in
/-- To execute the function tells what is wrong with the other document, and calls nobody. -/
theorem function_beside_broken_document :
    (idleCollaborators.compile brokenSession.unrecorded).1 = .ok (.faulty brokenFault) ∧
    ∃ r s', idleCollaborators.recorded.server.runCommand
        ⟨"a", none, "f", Command.executeId, [], []⟩ brokenSession = (.ok [r], s') ∧
      r.ids = ["f"] ∧ r.outcome = .error ∧ r.message = brokenFault.message ∧
      s'.host.calls = [] := by
  obtain ⟨hmessage, -, hcommands, -⟩ := (nothing_runs_uncompiled idleCollaborators).2 rfl ()
    brokenBeside brokenSession rfl _ brokenFault compile_brokenSession rfl
  obtain ⟨r, s', hrun, htells, hcalls⟩ := hcommands ⟨"a", none, "f", Command.executeId, [], []⟩
    (by decide)
  refine ⟨compile_brokenSession, r, s', hrun, htells.ids, htells.outcome, htells.message ?_ hmessage,
    hcalls⟩
  -- The function is found in its section, and has a lambda.
  have hfound : (brokenSession.workspace.located "a" "f" none).any (fun sec ↦
      sec.grammar == "Function" && (sec.parse.element? "f").any fun e ↦
        (FunctionGrammar.lambda e).isSome) = true := by decide +kernel
  cases hlocated : brokenSession.workspace.located "a" "f" none with
  | none =>
    rw [hlocated] at hfound
    cases hfound
  | some sec =>
    rw [hlocated, Option.any_some, Bool.and_eq_true, beq_iff_eq] at hfound
    obtain ⟨hgrammar, hlambda⟩ := hfound
    cases he : sec.parse.element? "f" with
    | none =>
      rw [he] at hlambda
      cases hlambda
    | some e =>
      rw [he] at hlambda
      refine ⟨sec, FunctionGrammar.extension, e, ⟨hlocated, ?_, he⟩, .lambda rfl hlambda⟩
      rw [Server.extensionFor, hgrammar]
      rfl

end ModelServer
