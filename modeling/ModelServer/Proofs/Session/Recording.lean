import ModelServer.Proofs.Session.Action
import ModelServer.Server.Routing
import ModelServer.Workspace.Provider

/-!
# Calls of collaborators

To say that a command reaches a collaborator, or that it reaches none, calls have to be seen. A recorded
collaborator is any collaborator whatever that is called through `Action.noted`: the call is put down
first, and then what it does is done, to its own host, to the workspace and to the requests. Nothing is
known of what it does or answers.

The record only grows. `Action.Appends` says so of an action, and is closed under going on
(`Appends.bind`), so what was called first stays on record whatever is done next.

To be asked to read documents is no call. The provider of a recorded server does what it does within
the host that it knows (`Action.within`), so a recorded server reads as the server does
(`Collaborators.recorded_parse`, `Collaborators.recorded_compile`) and leaves the record as it is.
-/

namespace ModelServer

/-- A call of a collaborator, with what it is called for. -/
inductive Call where
  | generate (spec : ExecutionSpec)
  | execute
  | runLegacyTests (e : Element) (test : LegacyTest Location)
  | runTestSuites (e : Element) (suites : List (TestSuite Location))
  | post (path : String) (payload : Json)

/-- A host, and the calls of its collaborators so far. -/
structure Recorded (H : Type) where
  host : H
  calls : List Call

variable {H : Type} {α β : Type}

namespace Action

/-- Does what a collaborator does, which knows nothing of the record. -/
def within (act : Action H α) : Action (Recorded H) α := fun s ↦
  let (r, s') := act ⟨s.workspace, s.requests, s.host.host⟩
  (r, ⟨s'.workspace, s'.requests, ⟨s'.host, s.host.calls⟩⟩)

/-- Puts the call down, and does what is called for. -/
def noted (call : Call) (act : Action H α) : Action (Recorded H) α := fun s ↦
  act.within { s with host := { s.host with calls := s.host.calls ++ [call] } }

theorem calls_noted (call : Call) (act : Action H α) (s : Session (Recorded H)) :
    (act.noted call s).2.host.calls = s.host.calls ++ [call] :=
  rfl

/-- Whatever the action does, the record grows by it or stays. -/
def Appends (x : Action (Recorded H) α) : Prop :=
  ∀ s, ∃ more, (x s).2.host.calls = s.host.calls ++ more

namespace Appends

theorem pure (a : α) : (Pure.pure a : Action (Recorded H) α).Appends :=
  fun _ ↦ ⟨[], (List.append_nil _).symm⟩

theorem ofExcept (r : Except Fault α) : (Action.ofExcept r : Action (Recorded H) α).Appends := by
  cases r with
  | ok a => exact pure a
  | error f => exact fun _ ↦ ⟨[], (List.append_nil _).symm⟩

theorem noted (call : Call) (act : Action H α) : (act.noted call).Appends :=
  fun _ ↦ ⟨[call], rfl⟩

theorem bind {x : Action (Recorded H) α} {f : α → Action (Recorded H) β} (hx : x.Appends)
    (hf : ∀ a, (f a).Appends) : (x >>= f).Appends := by
  intro s
  obtain ⟨more, hmore⟩ := hx s
  rcases hrun : x s with ⟨r, s₁⟩
  rw [hrun] at hmore
  cases r with
  | ok a =>
    obtain ⟨more', hmore'⟩ := hf a s₁
    exact ⟨more ++ more', by rw [bind_of_ok hrun, hmore', hmore, List.append_assoc]⟩
  | error e => exact ⟨more, by rw [bind_of_error hrun, hmore]⟩

end Appends

end Action

/-! ### Servers whose calls are recorded -/

/-- The generator, recorded. -/
def PlanGenerator.recorded (g : PlanGenerator H) : PlanGenerator (Recorded H) :=
  ⟨fun spec m p ext ↦ (g.generate spec m p ext).noted (.generate spec)⟩

/-- The executor, recorded. -/
def PlanExecutor.recorded (x : PlanExecutor H) : PlanExecutor (Recorded H) :=
  ⟨fun plan ps query ↦ (x.execute plan ps query).noted .execute⟩

/-- The runner, recorded. -/
def TestRunner.recorded (t : TestRunner H) : TestRunner (Recorded H) :=
  ⟨fun e test m ext ↦ (t.runLegacyTests e test m ext).noted (.runLegacyTests e test),
    fun e suites m ext ↦ (t.runTestSuites e suites m ext).noted (.runTestSuites e suites)⟩

/-- The execution server, recorded. -/
def ExecutionServer.recorded (x : ExecutionServer H) : ExecutionServer (Recorded H) :=
  ⟨fun path payload ↦ (x.post path payload).noted (.post path payload)⟩

/-- The collaborators of a server that runs everything, but may have no execution server to register
services with. -/
structure Workers (H : Type) where
  generator : PlanGenerator H
  executor : PlanExecutor H
  runner : TestRunner H
  executionServer : Option (ExecutionServer H)
  extensions : PlatformExtensions

namespace Workers

/-- The workers as the collaborators of a server that reads documents, each call recorded. -/
def recorded [Depths] (k : Workers H) : Collaborators (Recorded H) :=
  ⟨DocumentProvider.provider, some k.generator.recorded, some k.executor.recorded,
    some k.runner.recorded, k.executionServer.map (·.recorded), k.extensions⟩

/-- The server with the extensions that are always there. -/
def server [Depths] (k : Workers H) : Server (Recorded H) :=
  ⟨k.recorded, Server.defaultExtensions⟩

end Workers

/-! ### Work that is not recorded -/

/-- The session as those know it who know nothing of the record. -/
def Session.unrecorded (s : Session (Recorded H)) : Session H :=
  ⟨s.workspace, s.requests, s.host.host⟩

/-- The session with those calls on record. -/
def Session.withCalls (t : Session H) (calls : List Call) : Session (Recorded H) :=
  ⟨t.workspace, t.requests, ⟨t.host, calls⟩⟩

/-- A call is put down, and for the rest what is called for is done. -/
theorem Action.noted_apply (call : Call) (act : Action H α) (s : Session (Recorded H)) :
    act.noted call s =
      ((act s.unrecorded).1, (act s.unrecorded).2.withCalls (s.host.calls ++ [call])) :=
  rfl

/-- What comes of a call may be refused, and the call stays put down. -/
theorem Action.noted_bind_ofExcept_apply (call : Call) (act : Action H α) (f : α → Except Fault β)
    (s : Session (Recorded H)) :
    (act.noted call >>= fun a ↦ Action.ofExcept (f a)) s =
      ((act s.unrecorded).1.bind f, (act s.unrecorded).2.withCalls (s.host.calls ++ [call])) := by
  rw [Action.bind_apply, noted_apply]
  rcases act s.unrecorded with ⟨e | a, t⟩
  · rfl
  · dsimp only [Except.bind]
    cases f a <;> rfl

namespace Action

/-- What an action on record comes to for those who know nothing of the record; `calls` are those that
were made before. -/
def without (calls : List Call) (act : Action (Recorded H) α) : Action H α := fun s ↦
  let (r, s') := act ⟨s.workspace, s.requests, ⟨s.host, calls⟩⟩
  (r, s'.unrecorded)

theorem within_of_apply {act : Action H α} {s : Session (Recorded H)} {r : Except Fault α}
    {t : Session H} (h : act s.unrecorded = (r, t)) :
    ∃ s', act.within s = (r, s') ∧ s'.unrecorded = t ∧ s'.host.calls = s.host.calls := by
  refine ⟨⟨t.workspace, t.requests, ⟨t.host, s.host.calls⟩⟩, ?_, rfl, rfl⟩
  rw [Session.unrecorded] at h
  rw [within, h]

theorem within_bind (x : Action H α) (f : α → Action H β) :
    (x >>= f).within = x.within >>= fun a ↦ (f a).within := by
  funext s
  rcases hx : x s.unrecorded with ⟨r, t⟩
  obtain ⟨s', hs', rfl, hcalls⟩ := within_of_apply hx
  rcases s' with ⟨w, requests, host, calls⟩
  cases hcalls
  rw [Session.unrecorded] at hx
  cases r with
  | ok a =>
    rw [bind_of_ok hs', within, bind_of_ok hx]
    rfl
  | error f =>
    rw [bind_of_error hs', within, bind_of_error hx]
    rfl

end Action

/-- The provider, at work for a server whose calls are recorded. -/
def ModelProvider.recorded (p : ModelProvider H) : ModelProvider (Recorded H) where
  split := p.split
  parse sec := (p.parse sec).within
  compile sections parse := fun s ↦
    (p.compile sections fun sec ↦ (parse sec).without s.host.calls).within s
  serialize sections origin := (p.serialize sections origin).within

namespace Collaborators

/-- The collaborators, each call of theirs recorded. -/
def recorded (c : Collaborators H) : Collaborators (Recorded H) :=
  ⟨c.provider.recorded, c.planGenerator.map (·.recorded), c.planExecutor.map (·.recorded),
    c.testRunner.map (·.recorded), c.executionServer.map (·.recorded), c.platformExtensions⟩

variable (c : Collaborators H)

theorem recorded_parse (sec : Section) : c.recorded.parse sec = (c.parse sec).within := by
  rw [parse, parse, Action.within_bind]
  congr 1
  funext w
  cases w.parsed? sec with
  | some p => rfl
  | none =>
    dsimp only
    rw [Action.within_bind]
    rfl

theorem recorded_compile : c.recorded.compile = c.compile.within := by
  have hparse : c.recorded.parse = fun sec ↦ (c.parse sec).within :=
    funext c.recorded_parse
  rw [compile, compile, Action.within_bind]
  congr 1
  funext w
  cases w.compiled with
  | some r => rfl
  | none =>
    -- The provider is handed the parser of the recorded server, which parses as the server's does.
    dsimp only
    rw [hparse, Action.within_bind]
    rfl

theorem recorded_findSectionIn (path : String) (ss : List Section) :
    c.recorded.findSectionIn path ss = (c.findSectionIn path ss).within := by
  induction ss with
  | nil => rfl
  | cons s rest ih =>
    rw [findSectionIn, findSectionIn, recorded_parse, ih, Action.within_bind]
    congr 1
    funext p
    cases p.element? path <;> rfl

theorem recorded_locateSection (document path : String) (index : Option Int) :
    c.recorded.locateSection document path index =
      (c.locateSection document path index).within := by
  cases index with
  | none =>
    rw [locateSection, locateSection, findSection, findSection, Action.within_bind]
    congr 1
    exact funext fun w ↦ c.recorded_findSectionIn path _
  | some n =>
    rw [locateSection, locateSection, Action.within_bind]
    rfl

end Collaborators

end ModelServer
