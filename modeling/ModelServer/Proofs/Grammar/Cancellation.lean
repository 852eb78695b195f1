import ModelServer.Proofs.Server.Boundary
import ModelServer.Proofs.Session.Recording
import ModelServer.Proofs.Session.Tokens

/-!
# Table queries that are cancelled

A table query holds a token, and whoever holds the token too may cancel it at any time: while documents
are read, while the plan is made, while it runs. The query looks at its token on entry, before it
executes and after it executed, and whoever makes a plan looks at the token that is carried.

What a query does is told here in two ways. `Executable.LeavesOff` says where it leaves off, which decides
what is called and what becomes of the token that is carried; it is the only place where the stages of a
query are followed with all their ways to fail. `Executable.Completes` says what it takes to get to the
end, and `query_success_iff` that a query that succeeds got there.

The one thing that is asked of generators and executors is that they do not take a cancellation back,
which no operation on tokens does (`Requests.Lasting`). For the rest they do what they like, to tokens and
requests, to the workspace and to the token that is carried.
-/

namespace ModelServer

variable {H : Type}

/-! ### Calls of the executor -/

/-- Calls were made between the two sessions, and the executor was not among those called. -/
def Unexecuted (s s' : Session (Recorded H)) : Prop :=
  ∃ more, s'.host.calls = s.host.calls ++ more ∧ Call.execute ∉ more

theorem frame_unexecuted : Frame (Unexecuted (H := H)) where
  refl s := ⟨[], (List.append_nil _).symm, List.not_mem_nil⟩
  trans := by
    rintro s s' s'' ⟨more, hmore, hnot⟩ ⟨more', hmore', hnot'⟩
    refine ⟨more ++ more', by rw [hmore', hmore, List.append_assoc], ?_⟩
    rw [List.mem_append]
    exact not_or.2 ⟨hnot, hnot'⟩
  workspace s w := ⟨[], (List.append_nil _).symm, List.not_mem_nil⟩
  carried s t := ⟨[], (List.append_nil _).symm, List.not_mem_nil⟩

/-- To call the generator is not to call the executor. -/
theorem PlanGenerator.unexecuted_recorded (g : PlanGenerator H) :
    g.recorded.Keeps Unexecuted := by
  refine fun spec m p ext s ↦ ⟨[.generate spec], rfl, fun h ↦ ?_⟩
  cases List.mem_singleton.1 h

/-- The collaborators of a query whose calls of the generator and the executor are recorded. To read
documents calls neither, and nobody takes a cancellation back. -/
structure Collaborators.Watched (c : Collaborators (Recorded H)) (g : Option (PlanGenerator H))
    (k : Option (PlanExecutor H)) : Prop where
  generator : c.planGenerator = g.map (·.recorded)
  executor : c.planExecutor = k.map (·.recorded)
  reads : c.provider.Keeps Unexecuted
  readerLasting : c.provider.Keeps Session.Lasting
  generatorLasting : ∀ g' ∈ g, g'.Keeps Session.Lasting
  executorLasting : ∀ k' ∈ k, k'.Keeps Session.Lasting

namespace Collaborators.Watched

variable {c : Collaborators (Recorded H)} {g : Option (PlanGenerator H)}
  {k : Option (PlanExecutor H)} (hc : c.Watched g k)

include hc

theorem plans_unexecuted : c.Plans Unexecuted := by
  refine ⟨hc.reads, fun g' hg' ↦ ?_⟩
  rw [hc.generator] at hg'
  obtain ⟨g'', -, rfl⟩ := Option.map_eq_some_iff.1 hg'
  exact g''.unexecuted_recorded

theorem plans_lasting : c.Plans Session.Lasting := by
  refine ⟨hc.readerLasting, fun g' hg' ↦ ?_⟩
  rw [hc.generator] at hg'
  obtain ⟨g'', hg'', rfl⟩ := Option.map_eq_some_iff.1 hg'
  exact fun spec m p ext s ↦ hc.generatorLasting g'' hg'' spec m p ext ⟨_, _, _⟩

/-- The executor is recorded, and takes no cancellation back. -/
theorem of_planExecutor {executor : PlanExecutor (Recorded H)} (h : c.planExecutor = some executor) :
    executor.Keeps Session.Lasting ∧ ∀ plan ps query s,
      (executor.execute plan ps query s).2.host.calls = s.host.calls ++ [.execute] := by
  rw [hc.executor] at h
  obtain ⟨k', hk', rfl⟩ := Option.map_eq_some_iff.1 h
  exact ⟨fun plan ps query s ↦ hc.executorLasting k' hk' plan ps query ⟨_, _, _⟩,
    fun plan ps query s ↦ Action.calls_noted _ _ s⟩

/-- To record calls puts nothing into other words. -/
theorem worded (hprovider : c.provider.Articulate) (hg : ∀ g' ∈ g, g'.Articulate)
    (hk : ∀ k' ∈ k, k'.Articulate) : c.Worded where
  provider := hprovider
  generator g' hg' := by
    rw [hc.generator] at hg'
    obtain ⟨g'', hg'', rfl⟩ := Option.map_eq_some_iff.1 hg'
    exact fun spec m p ext s f hf ↦ hg g'' hg'' spec m p ext hf
  executor k' hk' := by
    rw [hc.executor] at hk'
    obtain ⟨k'', hk'', rfl⟩ := Option.map_eq_some_iff.1 hk'
    exact ⟨fun plan ps q s f hf ↦ (hk k'' hk'').execute plan ps q hf,
      fun plan ps q s output houtput ↦ (hk k'' hk'').render plan ps q houtput⟩

end Collaborators.Watched

/-! ### The stages of a query -/

/-- The session in which work goes on that carries the token. -/
def Session.carrying (s : Session H) (token : TokenId) : Session H :=
  { s with requests := { s.requests with carried := some token } }

/-- Work goes on while its token is not cancelled. -/
theorem Action.check_of_uncancelled {token : TokenId} {s : Session H}
    (h : s.requests.isCancelled token = false) :
    Action.requests (Requests.check token) s = (.ok (), s) := by
  have hcheck : (s.requests.token token).check = .ok () := by
    rw [Token.check]
    exact if_neg (Bool.eq_false_iff.1 h)
  rw [Action.requests, Requests.check, hcheck]

/-- Work whose token is cancelled ends in a fault that names the request. -/
theorem Action.check_of_cancelled {token : TokenId} {s : Session H}
    (h : s.requests.isCancelled token = true) :
    Action.requests (Requests.check token) s =
      (.error (.cancelled (s.requests.token token).request), s) := by
  have hcheck : (s.requests.token token).check =
      .error (.cancelled (s.requests.token token).request) := by
    rw [Token.check]
    exact if_pos h
  rw [Action.requests, Requests.check, hcheck]

theorem Action.check_eq_ok {token : TokenId} {s s' : Session H} {u : Unit} :
    Action.requests (Requests.check token) s = (.ok u, s') ↔
      s.requests.isCancelled token = false ∧ s' = s := by
  constructor
  · intro h
    cases hs : s.requests.isCancelled token with
    | true =>
      rw [check_of_cancelled hs] at h
      cases h
    | false =>
      rw [check_of_uncancelled hs] at h
      exact ⟨rfl, (congrArg Prod.snd h).symm⟩
  · rintro ⟨hs, rfl⟩
    exact check_of_uncancelled hs

namespace Executable

section Stages

variable (x : ExecutionSupport H) (c : Collaborators H) (sec : Section) (path : String)
  (q : Api.TableQuery) (ps : InputParameters) (token : TokenId)

/-- Shows an output, unless the token is cancelled. -/
def showOutput (e : Element) (output : Output) : Action H Result := do
  Action.requests (Requests.check token)
  let shown ← Action.ofExcept output.render
  return succeeded path e shown

/-- Executes a plan and shows its output, unless the token is cancelled. -/
def executePlan (e : Element) (plan : Value) : Action H Result := do
  Action.requests (Requests.check token)
  let executor ← c.requirePlanExecutor
  let output ← executor.execute plan ps (some (q, token))
  showOutput path token e output

theorem queryStages_eq : queryStages x c sec path q ps token = (do
    Action.requests (Requests.check token)
    match ← planned x c sec path ps with
    | .error r => return r
    | .ok (e, plan) => executePlan c path q ps token e plan) :=
  rfl

/-- Where a query may leave the session: as it was, if its token is cancelled already, or as planning
leaves it, or, if its token is not cancelled then, as the executor leaves it. -/
inductive LeavesOff (s : Session H) : Session H → Prop
  | atOnce (h : s.requests.isCancelled token = true) : LeavesOff s s
  | planning {s₁ : Session H} (entered : s.requests.isCancelled token = false)
      (h₁ : (planned x c sec path ps s).2 = s₁) : LeavesOff s s₁
  | executing {s₁ : Session H} {plan : Value} {executor : PlanExecutor H}
      (entered : s.requests.isCancelled token = false)
      (h₁ : (planned x c sec path ps s).2 = s₁)
      (uncancelled : s₁.requests.isCancelled token = false)
      (configured : c.planExecutor = some executor) :
      LeavesOff s (executor.execute plan ps (some (q, token)) s₁).2

/-- What it takes to get to the end: there is a plan, it is run, the output can be shown, and until the
executor has returned the token is not cancelled. -/
inductive Completes (s : Session H) : Element → String → Session H → Prop
  | intro {s₁ s₂ : Session H} {e : Element} {plan : Value} {executor : PlanExecutor H}
      {output : Output} {shown : String}
      (entered : s.requests.isCancelled token = false)
      (plans : planned x c sec path ps s = (.ok (.ok (e, plan)), s₁))
      (uncancelled : s₁.requests.isCancelled token = false)
      (configured : c.planExecutor = some executor)
      (executes : executor.execute plan ps (some (q, token)) s₁ = (.ok output, s₂))
      (returned : s₂.requests.isCancelled token = false)
      (shows : output.render = .ok shown) : Completes s e shown s₂

end Stages

section Queries

variable {x : ExecutionSupport H} {c : Collaborators H} {sec : Section} {path : String}
  {q : Api.TableQuery} {ps : InputParameters} {token : TokenId}

/-- What is left to do when the executor has returned changes nothing. -/
theorem session_showOutput (e : Element) (output : Output) (s : Session H) :
    (showOutput path token e output s).2 = s := by
  rw [showOutput]
  cases h : s.requests.isCancelled token with
  | true => rw [Action.bind_of_error (Action.check_of_cancelled h)]
  | false =>
    rw [Action.bind_of_ok (Action.check_of_uncancelled h)]
    cases output.render <;> rfl

theorem leavesOff_executePlan {s s₁ : Session H} (hs : s.requests.isCancelled token = false)
    (h₁ : (planned x c sec path ps s).2 = s₁) (e : Element) (plan : Value) :
    LeavesOff x c sec path q ps token s (executePlan c path q ps token e plan s₁).2 := by
  rw [executePlan]
  cases h : s₁.requests.isCancelled token with
  | true =>
    rw [Action.bind_of_error (Action.check_of_cancelled h)]
    exact .planning hs h₁
  | false =>
    rw [Action.bind_of_ok (Action.check_of_uncancelled h), Collaborators.requirePlanExecutor]
    cases hk : c.planExecutor with
    | none => exact .planning hs h₁
    | some executor =>
      have hexecuting : LeavesOff x c sec path q ps token s
          (executor.execute plan ps (some (q, token)) s₁).2 := .executing hs h₁ h hk
      rw [Collaborators.require, pure_bind]
      rcases hrun : executor.execute plan ps (some (q, token)) s₁ with ⟨r, s₂⟩
      rw [hrun] at hexecuting
      cases r with
      | error f =>
        rw [Action.bind_of_error hrun]
        exact hexecuting
      | ok output =>
        rw [Action.bind_of_ok hrun, session_showOutput]
        exact hexecuting

theorem queryStages_of_cancelled {s : Session H} (hs : s.requests.isCancelled token = true) :
    queryStages x c sec path q ps token s =
      (.error (.cancelled (s.requests.token token).request), s) := by
  rw [queryStages_eq, Action.bind_of_error (Action.check_of_cancelled hs)]

theorem leavesOff_queryStages (s : Session H) :
    LeavesOff x c sec path q ps token s (queryStages x c sec path q ps token s).2 := by
  cases hs : s.requests.isCancelled token with
  | true =>
    rw [queryStages_of_cancelled hs]
    exact .atOnce hs
  | false =>
    rw [queryStages_eq, Action.bind_of_ok (Action.check_of_uncancelled hs)]
    rcases hplan : planned x c sec path ps s with ⟨r, s₁⟩
    have h₁ : (planned x c sec path ps s).2 = s₁ := congrArg Prod.snd hplan
    cases r with
    | error f =>
      rw [Action.bind_of_error hplan]
      exact .planning hs h₁
    | ok p =>
      rw [Action.bind_of_ok hplan]
      cases p with
      | error r => exact .planning hs h₁
      | ok p => exact leavesOff_executePlan hs h₁ p.1 p.2

/-- **Who gets to the end succeeds.** -/
theorem Completes.queryStages {s s' : Session H} {e : Element} {shown : String}
    (h : Completes x c sec path q ps token s e shown s') :
    Executable.queryStages x c sec path q ps token s = (.ok (succeeded path e shown), s') := by
  obtain ⟨entered, plans, uncancelled, configured, executes, returned, shows⟩ := h
  rw [queryStages_eq, Action.bind_of_ok (Action.check_of_uncancelled entered),
    Action.bind_of_ok plans]
  dsimp only
  rw [executePlan, Action.bind_of_ok (Action.check_of_uncancelled uncancelled),
    Collaborators.requirePlanExecutor, configured, Collaborators.require, pure_bind,
    Action.bind_of_ok executes, showOutput, Action.bind_of_ok (Action.check_of_uncancelled returned),
    shows]
  rfl

/-- **Who succeeds got to the end**: the results that come earlier are errors. -/
theorem completes_of_success {s s' : Session H} {r : Result}
    (h : queryStages x c sec path q ps token s = (.ok r, s')) (hr : r.outcome = .success) :
    ∃ e shown, Completes x c sec path q ps token s e shown s' ∧ r = succeeded path e shown := by
  rw [queryStages_eq] at h
  obtain ⟨_, _, hentry, hplanning⟩ := Action.bind_eq_ok.1 h
  obtain ⟨entered, rfl⟩ := Action.check_eq_ok.1 hentry
  obtain ⟨p, s₁, plans, hexecution⟩ := Action.bind_eq_ok.1 hplanning
  cases p with
  | error early =>
    have hearly : early.outcome = .error :=
      (returns_planned x c sec path ps (congrArg Prod.fst plans) early rfl).2
    obtain rfl : early = r := Except.ok.inj (congrArg Prod.fst hexecution)
    rw [hearly] at hr
    cases hr
  | ok p =>
    obtain ⟨e, plan⟩ := p
    obtain ⟨_, _, hplanned, hconfigured⟩ := Action.bind_eq_ok.1 hexecution
    obtain ⟨uncancelled, rfl⟩ := Action.check_eq_ok.1 hplanned
    rw [Collaborators.requirePlanExecutor] at hconfigured
    cases configured : c.planExecutor with
    | none =>
      rw [configured] at hconfigured
      cases hconfigured
    | some executor =>
      rw [configured, Collaborators.require, pure_bind] at hconfigured
      obtain ⟨output, s₂, executes, houtput⟩ := Action.bind_eq_ok.1 hconfigured
      obtain ⟨_, _, hreturned, hshown⟩ := Action.bind_eq_ok.1 houtput
      obtain ⟨returned, rfl⟩ := Action.check_eq_ok.1 hreturned
      cases shows : output.render with
      | error f =>
        rw [shows] at hshown
        cases hshown
      | ok shown =>
        rw [shows] at hshown
        cases hshown
        exact ⟨e, shown, .intro entered plans uncancelled configured executes returned shows, rfl⟩

/-- What a query comes to whose stages end like this. -/
def resultOf (path : String) : Except Fault Result → Except Fault Result
  | .ok r => .ok r
  | .error f => queryFailed path f

/-- What was carried before a query is carried again when it has ended. -/
theorem query_apply {s s' : Session H} {r : Except Fault Result}
    (h : queryStages x c sec path q ps token (s.carrying token) = (r, s')) :
    query x c sec path q ps token s =
      (resultOf path r, { s' with requests := s'.requests.restore s.requests.carried }) := by
  rw [Session.carrying] at h
  rw [query, Action.bind_of_ok (Action.outcome_apply _ s), Action.carrying_apply]
  dsimp only
  rw [h]
  cases r with
  | ok r => rfl
  | error f =>
    dsimp only
    rw [resultOf]
    cases queryFailed path f <;> rfl

/-- The result of a query that ended in a fault is an error. -/
theorem outcome_of_queryFailed {f : Fault} {r : Result} (h : queryFailed path f = .ok r) :
    r.outcome = .error := by
  rw [queryFailed] at h
  split at h
  · obtain ⟨text, -, rfl⟩ := map_eq_ok_iff.1 h
    rfl
  · obtain ⟨text, -, rfl⟩ := map_eq_ok_iff.1 h
    rfl

/-- A query that ends in a fault without a text ends in what asking for the text ends in. -/
theorem queryFailed_mute (path : String) (kind : Kind) (inner : Fault) :
    queryFailed path (.mute kind inner) = .error inner := by
  rw [queryFailed]
  split <;> rfl

/-- A query succeeds or ends in an error, if it has a result. -/
theorem outcome_of_resultOf {s s' : Session H} {stages : Except Fault Result} {r : Result}
    (h : queryStages x c sec path q ps token s = (stages, s')) (hr : resultOf path stages = .ok r) :
    r.outcome = .success ∨ r.outcome = .error := by
  cases stages with
  | ok r' =>
    obtain rfl := Except.ok.inj hr
    exact (returns_queryStages x c sec path q ps token (congrArg Prod.fst h)).2
  | error f => exact .inr (outcome_of_queryFailed hr)

theorem completes_of_resultOf {s s' : Session H} {stages : Except Fault Result} {r : Result}
    (h : queryStages x c sec path q ps token s = (stages, s')) (hr : resultOf path stages = .ok r)
    (hsuccess : r.outcome = .success) :
    ∃ e shown, Completes x c sec path q ps token s e shown s' := by
  cases stages with
  | ok r' =>
    obtain rfl := Except.ok.inj hr
    obtain ⟨e, shown, hcompletes, -⟩ := completes_of_success h hsuccess
    exact ⟨e, shown, hcompletes⟩
  | error f =>
    rw [outcome_of_queryFailed hr] at hsuccess
    cases hsuccess

/-- A query that gets to the end is cancelled at no moment. -/
theorem Completes.uncancelled {s s' : Session H} {e : Element} {shown : String}
    (h : Completes x c sec path q ps token s e shown s') :
    s.requests.isCancelled token = false ∧
      (planned x c sec path ps s).2.requests.isCancelled token = false ∧
      s'.requests.isCancelled token = false := by
  obtain ⟨entered, plans, uncancelled, -, -, returned, -⟩ := h
  rw [plans]
  exact ⟨entered, uncancelled, returned⟩

end Queries

/-- What a token means to a query that is asked in the session `s` and comes to `run`, where `more` are
the calls that it made. -/
structure Honours (x : ExecutionSupport (Recorded H)) (c : Collaborators (Recorded H)) (sec : Section)
    (path : String) (q : Api.TableQuery) (ps : InputParameters) (token : TokenId)
    (s : Session (Recorded H)) (run : Except Fault Result × Session (Recorded H))
    (more : List Call) : Prop where
  /-- There is one result, if whatever is raised has a text. -/
  single : c.Worded → ∃ r, run.1 = .ok r
  /-- There is one result even so, unless the stages of the query end in a fault that has no text, and then
  asking for it is what the query ends in. -/
  answers : (∃ r, run.1 = .ok r) ∨ ∃ kind inner, run.1 = .error inner ∧
    (queryStages x c sec path q ps token (s.carrying token)).1 = .error (.mute kind inner)
  ends : ∀ r, run.1 = .ok r → r.outcome = .success ∨ r.outcome = .error
  records : run.2.host.calls = s.host.calls ++ more
  carried : run.2.requests.carried = s.requests.carried
  /-- No cancellation is lost, be it before the query, while it is planned or while it is executed. -/
  lasting : s.requests.Lasting run.2.requests ∧
    s.requests.Lasting (planned x c sec path ps (s.carrying token)).2.requests ∧
    ((planned x c sec path ps (s.carrying token)).2.requests.isCancelled token = true →
      run.2.requests.isCancelled token = true)
  /-- A query that is cancelled at any moment does not succeed. -/
  fails : s.requests.isCancelled token = true ∨
    (planned x c sec path ps (s.carrying token)).2.requests.isCancelled token = true ∨
    run.2.requests.isCancelled token = true → ∀ r, run.1 = .ok r → r.outcome = .error
  /-- One that is cancelled already calls nobody. -/
  atOnce : s.requests.isCancelled token = true →
    run.1 = .ok (.ofElement path .error
      ("Request cancelled: " ++ (s.requests.token token).request) none) ∧ more = []
  /-- One that is cancelled before planning has ended does not execute. -/
  unexecuted :
    (planned x c sec path ps (s.carrying token)).2.requests.isCancelled token = true →
      Call.execute ∉ more
  /-- To succeed is to get to the end. -/
  succeeds : (∃ r, run.1 = .ok r ∧ r.outcome = .success) ↔
    ∃ e shown s', Completes x c sec path q ps token (s.carrying token) e shown s'
  /-- And then the output is shown. -/
  shows : ∀ {e shown s'}, Completes x c sec path q ps token (s.carrying token) e shown s' →
    run.1 = .ok (succeeded path e shown)

section Recorded

variable {x : ExecutionSupport (Recorded H)} {c : Collaborators (Recorded H)} {sec : Section}
  {path : String} {q : Api.TableQuery} {ps : InputParameters} {token : TokenId}
  {g : Option (PlanGenerator H)} {k : Option (PlanExecutor H)}
  {s s' : Session (Recorded H)}

/-- Where a query leaves off tells whether it called the executor. -/
theorem LeavesOff.calls (h : LeavesOff x c sec path q ps token s s') (hc : c.Watched g k)
    (hx : x.Keeps Unexecuted) :
    ∃ more, s'.host.calls = s.host.calls ++ more ∧
      (s.requests.isCancelled token = true → more = []) ∧
      ((planned x c sec path ps s).2.requests.isCancelled token = true → Call.execute ∉ more) := by
  obtain ⟨more, hmore, hnot⟩ :=
    moves_planned frame_unexecuted hx hc.plans_unexecuted sec path ps s
  cases h with
  | atOnce h => exact ⟨[], (List.append_nil _).symm, fun _ ↦ rfl, fun _ ↦ List.not_mem_nil⟩
  | planning entered h₁ =>
    rw [h₁] at hmore
    refine ⟨more, hmore, fun h ↦ ?_, fun _ ↦ hnot⟩
    rw [entered] at h
    cases h
  | executing entered h₁ uncancelled configured =>
    have hcalls := (hc.of_planExecutor configured).2
    rw [h₁] at hmore
    refine ⟨more ++ [.execute], ?_, fun h ↦ ?_, fun h ↦ ?_⟩
    · rw [hcalls, hmore, List.append_assoc]
    · rw [entered] at h
      cases h
    · rw [h₁, uncancelled] at h
      cases h

/-- A cancellation before planning has ended is one in which the query ends. -/
theorem LeavesOff.isCancelled (h : LeavesOff x c sec path q ps token s s')
    (hplanned : (planned x c sec path ps s).2.requests.isCancelled token = true) :
    s'.requests.isCancelled token = true := by
  cases h with
  | atOnce h => exact h
  | planning entered h₁ => rwa [h₁] at hplanned
  | executing entered h₁ uncancelled configured =>
    rw [h₁, uncancelled] at hplanned
    cases hplanned

/-- **A query honours its token**, whatever makes the plan as long as it is made by the collaborators. -/
theorem honours_of_keeps (hc : c.Watched g k)
    (hx : ∀ {R : Session (Recorded H) → Session (Recorded H) → Prop}, Frame R → x.Keeps R)
    (hwords : x.Articulate) (sec : Section) (path : String) (q : Api.TableQuery) (ps : InputParameters)
    (token : TokenId) (s : Session (Recorded H)) :
    ∃ more, Honours x c sec path q ps token s (query x c sec path q ps token s) more := by
  rcases hstages : queryStages x c sec path q ps token (s.carrying token) with ⟨stages, s'⟩
  have hoff : LeavesOff x c sec path q ps token (s.carrying token) s' := by
    have h : LeavesOff x c sec path q ps token (s.carrying token)
        (queryStages x c sec path q ps token (s.carrying token)).2 := leavesOff_queryStages _
    rwa [hstages] at h
  obtain ⟨more, hmore, hnone, hunexecuted⟩ := hoff.calls hc (hx frame_unexecuted)
  have hlasting := moves_query frame_lasting (hx frame_lasting) hc.plans_lasting
    (fun k hk ↦ (hc.of_planExecutor hk).1) sec path q ps token s
  have hshows {e : Element} {shown : String} {s₂ : Session (Recorded H)}
      (h : Completes x c sec path q ps token (s.carrying token) e shown s₂) :
      resultOf path stages = .ok (succeeded path e shown) := by
    obtain rfl := congrArg Prod.fst (hstages.symm.trans h.queryStages)
    rfl
  have hrun := query_apply hstages
  refine ⟨more, ?_⟩
  constructor
  case single =>
    intro hworded
    obtain ⟨r, s₂, hquery, -⟩ := always_query hwords hworded sec path q ps token s
    exact ⟨r, congrArg Prod.fst hquery⟩
  case answers =>
    rw [hrun, hstages]
    cases stages with
    | ok r => exact .inl ⟨r, rfl⟩
    | error f =>
      rcases f.hasText_or_mute with htext | ⟨kind, inner, rfl⟩
      · obtain ⟨r, hr, -⟩ := exists_queryFailed htext path
        exact .inl ⟨r, hr⟩
      · exact .inr ⟨kind, inner, queryFailed_mute path kind inner, rfl⟩
  case ends =>
    rw [hrun]
    exact fun r hr ↦ outcome_of_resultOf hstages hr
  case records =>
    rw [hrun]
    exact hmore
  case carried =>
    rw [hrun]
    rfl
  case lasting =>
    refine ⟨hlasting, ?_, ?_⟩
    · exact moves_planned frame_lasting (hx frame_lasting) hc.plans_lasting sec path ps
        (s.carrying token)
    · rw [hrun]
      exact hoff.isCancelled
  case fails =>
    rw [hrun]
    refine fun hcancelled r hr ↦ (outcome_of_resultOf hstages hr).resolve_left fun hsuccess ↦ ?_
    obtain ⟨e, shown, hcompletes⟩ := completes_of_resultOf hstages hr hsuccess
    obtain ⟨hentry, hplanned, hreturned⟩ := hcompletes.uncancelled
    rcases hcancelled with h | h | h
    · exact Bool.false_ne_true (hentry.symm.trans h)
    · exact Bool.false_ne_true (hplanned.symm.trans h)
    · exact Bool.false_ne_true (hreturned.symm.trans h)
  case atOnce =>
    refine fun hs ↦ ⟨?_, hnone hs⟩
    have hcancelled : queryStages x c sec path q ps token (s.carrying token) =
        (.error (.cancelled (s.requests.token token).request), s.carrying token) :=
      queryStages_of_cancelled hs
    obtain rfl := congrArg Prod.fst (hstages.symm.trans hcancelled)
    rw [hrun]
    rfl
  case unexecuted => exact hunexecuted
  case succeeds =>
    rw [hrun]
    constructor
    · rintro ⟨r, hr, hsuccess⟩
      obtain ⟨e, shown, hcompletes⟩ := completes_of_resultOf hstages hr hsuccess
      exact ⟨e, shown, s', hcompletes⟩
    · rintro ⟨e, shown, s₂, hcompletes⟩
      exact ⟨_, hshows hcompletes, rfl⟩
  case shows =>
    rw [hrun]
    exact hshows

end Recorded

/-- **A cancelled query never succeeds and does no further work.** Whatever generator and executor do and
answer, a query has one result, and what was carried before it is carried after it. The result is an
error if the token is cancelled at any moment until the executor has returned; nobody is called if it is
cancelled already, and the executor is not called if it is cancelled before planning has ended. The result
is a success exactly if the query gets to the end, uncancelled. All that is asked of what they raise is that
it has a text, and that for the one result only. -/
theorem query_honours_token {c : Collaborators (Recorded H)} {g : Option (PlanGenerator H)}
    {k : Option (PlanExecutor H)} (hc : c.Watched g k) {x : ExecutionSupport (Recorded H)}
    (hx : x = ServiceGrammar.execution ∨ x = FunctionGrammar.execution) (sec : Section)
    (path : String) (q : Api.TableQuery) (ps : InputParameters) (token : TokenId)
    (s : Session (Recorded H)) :
    ∃ more, Honours x c sec path q ps token s (query x c sec path q ps token s) more := by
  rcases hx with rfl | rfl
  · exact honours_of_keeps hc ServiceGrammar.keeps_execution ServiceGrammar.articulate_execution sec path
      q ps token s
  · exact honours_of_keeps hc FunctionGrammar.keeps_execution FunctionGrammar.articulate_execution sec
      path q ps token s

/-- A generator that has the request of the first token cancelled, and makes a plan nevertheless. -/
def hesitantGenerator : PlanGenerator Unit :=
  ⟨fun _ _ _ _ ↦ do
    let _ ← (Action.requests (Requests.cancelToken 0)).outcome
    return .text "plan"⟩

/-- An executor that always has an output. -/
def readyExecutor : PlanExecutor Unit :=
  ⟨fun _ _ _ ↦ pure (.value (.text "rows"))⟩

/-- The two of them, recorded, where documents are read as JSON. -/
def hesitant [Depths] : Collaborators (Recorded Unit) :=
  ⟨DocumentProvider.provider, some hesitantGenerator.recorded, some readyExecutor.recorded, none, none,
    ⟨[], []⟩⟩

open Depths in
theorem watched_hesitant : hesitant.Watched (some hesitantGenerator) (some readyExecutor) where
  generator := rfl
  executor := rfl
  reads := DocumentProvider.keeps frame_unexecuted
  readerLasting := DocumentProvider.keeps frame_lasting
  generatorLasting := by
    rintro g hg spec m p ext
    obtain rfl : hesitantGenerator = g := Option.some.inj hg
    exact frame_lasting.bind (Frame.outcome (Action.moves_requests (Requests.lasting_cancelToken 0)))
      fun _ ↦ frame_lasting.pure _
  executorLasting := by
    rintro k hk plan ps query
    obtain rfl : readyExecutor = k := Option.some.inj hk
    exact frame_lasting.pure _

/-- A section that declares one function with a lambda. -/
def oneFunction : Section :=
  ⟨⟨"a", "", 1, 0⟩, 0, "Function", .value (.record [("grammar", .text "Function"),
    ("elements", .list [.record [("kind", .text "function"), ("path", .text "f"),
      ("func", .record [])]])])⟩

/-- A session in which one request runs, whose token is not cancelled. -/
def oneRequest : Session (Recorded Unit) :=
  ⟨.empty, ⟨[.new "q"], [(.text "q", 0)], none, []⟩, ⟨(), []⟩⟩

open Depths in
/-- They raise nothing, and the output is a text. -/
theorem worded_hesitant : hesitant.Worded := by
  refine watched_hesitant.worded DocumentProvider.articulate ?_ ?_
  · rintro g hg spec m p ext
    obtain rfl : hesitantGenerator = g := Option.some.inj hg
    exact .outcome_bind (F := fun _ ↦ True) (fun _ _ _ ↦ trivial) (fun _ _ ↦ .pure _) fun _ ↦ .pure _
  · rintro k hk
    obtain rfl : readyExecutor = k := Option.some.inj hk
    exact ⟨fun _ _ _ ↦ .pure _, fun _ _ _ ↦ .pure fun f hf ↦ nomatch hf⟩

open Depths in
/-- The query whose token is cancelled while it is planned calls the generator, and does not execute. -/
theorem query_cancelled_while_planning :
    ∃ r more, Honours FunctionGrammar.execution hesitant oneFunction "f" .all [] 0 oneRequest
        (query FunctionGrammar.execution hesitant oneFunction "f" .all [] 0 oneRequest) more ∧
      (query FunctionGrammar.execution hesitant oneFunction "f" .all [] 0 oneRequest).1 = .ok r ∧
      r.outcome = .error ∧ more.length = 1 ∧ Call.execute ∉ more := by
  obtain ⟨more, h⟩ := query_honours_token watched_hesitant (.inr rfl) oneFunction "f" .all [] 0
    oneRequest
  have hplanned : (planned FunctionGrammar.execution hesitant oneFunction "f" []
      (oneRequest.carrying 0)).2.requests.isCancelled 0 = true := by decide +kernel
  have hcalled : (query FunctionGrammar.execution hesitant oneFunction "f" .all [] 0
      oneRequest).2.host.calls.length = 1 := by decide +kernel
  have hnone : oneRequest.host.calls = [] := rfl
  rw [h.records, hnone, List.nil_append] at hcalled
  obtain ⟨r, hr⟩ := h.single worded_hesitant
  exact ⟨r, more, h, hr, h.fails (.inr (.inl hplanned)) r hr, hcalled, h.unexecuted hplanned⟩

/-- The collaborators of a generator that raises what cannot be put into words. -/
def speechless [Depths] : Collaborators (Recorded Unit) :=
  { hesitant with
    planGenerator := some (PlanGenerator.recorded ⟨fun _ _ _ _ ↦ .fail Server.unspeakable⟩) }

open Depths in
/-- **A query may be left without a result**: its token is never cancelled, the generator is called and
raises, and what the query ends in is the fault of asking for the text of that. -/
theorem query_without_result :
    Server.failure (query FunctionGrammar.execution speechless oneFunction "f" .all [] 0 oneRequest).1 =
        "ValueError" ∧
      (query FunctionGrammar.execution speechless oneFunction "f" .all [] 0 oneRequest).2.host.calls.length
        = 1 ∧
      (query FunctionGrammar.execution speechless oneFunction "f" .all [] 0
        oneRequest).2.requests.isCancelled 0 = false :=
  ⟨by decide +kernel, by decide +kernel, by decide +kernel⟩

end Executable

end ModelServer
