import ModelServer.Proofs.Grammar.Cancellation
import ModelServer.Proofs.Grammar.SideBySide
import ModelServer.Proofs.Server.Agreement

/-!
# A table query and a plain execution

An element can be executed plainly or by a table query, and where nothing is ever cancelled both tell the
same. They take different ways: the query looks at its token three times and takes a fault as a result on
the spot, while the execution passes two dispatches on its way out and becomes a result where the command
is run.

The two are run side by side, the query carrying its token and the execution what was carried before.
Up to the plan nothing sees the difference (`Session.Undisturbed`), since work that carries a token sees
of it only whether it is cancelled. From there both are followed to their ends, which are the same value
or the same fault (`Executable.run_eq_queryStages`); and a fault makes the same result in both, but for
the log of a cancellation (`Executable.sameAs_queryFailed`).

It is not enough that the token of the query is never cancelled. The execution carries what was carried
before, and stops where that is cancelled; and a generator may look at what is carried
(`Executable.query_differs_from_execute`).
-/

namespace ModelServer

variable {H : Type}

/-! ### With and without the token -/

namespace Session

/-- The first session is the second, but carries the token; the second carries what was carried
before. -/
structure Carries (token : TokenId) (before : Option TokenId) (s t : Session H) : Prop where
  eq : s = t.carrying token
  carried : t.requests.carried = before

/-- Neither the token is cancelled nor that which was carried before. -/
structure Uncancelled (token : TokenId) (before : Option TokenId) (s : Session H) : Prop where
  token : s.requests.isCancelled token = false
  before : ∀ t ∈ before, s.requests.isCancelled t = false

/-- That one of the sessions carries the token makes no difference to them. -/
structure Undisturbed (token : TokenId) (before : Option TokenId) (s t : Session H) : Prop
    extends Carries token before s t where
  uncancelled : t.Uncancelled token before

variable {token : TokenId} {before : Option TokenId}

theorem undisturbed_le_carries : Undisturbed (H := H) token before ≤ Carries token before :=
  fun _ _ h ↦ h.toCarries

theorem sameWorkspace_undisturbed :
    Collaborators.SameWorkspace (Undisturbed (H := H) token before) where
  eq := by
    rintro s t ⟨⟨rfl, -⟩, -⟩
    rfl
  modify := by
    rintro s t ⟨⟨rfl, hcarried⟩, huncancelled⟩ w
    exact ⟨⟨rfl, hcarried⟩, huncancelled.token, huncancelled.before⟩

end Session

open Session

/-- Work goes on where nothing that is carried is cancelled. -/
theorem Action.checkCarried_of_uncancelled {s : Session H}
    (h : ∀ t ∈ s.requests.carried, s.requests.isCancelled t = false) :
    Action.requests Requests.checkCarried s = (.ok (), s) := by
  rcases Action.checkCarried_apply s with hcheck | ⟨request, ⟨t, hcarried, hcancelled, -⟩, -⟩
  · exact hcheck
  · have huncancelled : (s.requests.token t).cancelled = false := h t hcarried
    rw [huncancelled] at hcancelled
    cases hcancelled

theorem Action.agrees_checkCarried {token : TokenId} {before : Option TokenId} :
    Action.Agrees (H := H) (Undisturbed token before) (Action.requests Requests.checkCarried)
      (Action.requests Requests.checkCarried) (Undisturbed token before) := by
  rintro s t ⟨⟨rfl, hcarried⟩, huncancelled⟩
  have hwith : ∀ u ∈ (t.carrying token).requests.carried,
      (t.carrying token).requests.isCancelled u = false := by
    intro u hu
    obtain rfl : token = u := Option.some.inj hu
    exact huncancelled.token
  have hwithout : ∀ u ∈ t.requests.carried, t.requests.isCancelled u = false := by
    rw [hcarried]
    exact huncancelled.before
  rw [checkCarried_of_uncancelled hwith, checkCarried_of_uncancelled hwithout]
  exact ⟨rfl, ⟨⟨rfl, hcarried⟩, huncancelled⟩⟩

/-- The two results say the same; they may differ in what they log. -/
structure Result.SameAs (r r' : Result) : Prop where
  ids : r.ids = r'.ids
  outcome : r.outcome = r'.outcome
  message : r.message = r'.message
  location : r.location = r'.location

theorem Result.SameAs.refl (r : Result) : r.SameAs r :=
  ⟨rfl, rfl, rfl, rfl⟩

namespace Executable

/-- Nothing is cancelled while a table query is answered: not when it is asked, not when it has been
planned, and not when it has been executed. -/
structure NeverCancelled (x : ExecutionSupport H) (c : Collaborators H) (sec : Section)
    (path : String) (q : Api.TableQuery) (ps : InputParameters) (token : TokenId)
    (s : Session H) : Prop where
  asked : s.Uncancelled token s.requests.carried
  planned : (planned x c sec path ps (s.carrying token)).2.Uncancelled token s.requests.carried
  executed : ∀ k ∈ c.planExecutor, ∀ e plan s₁,
    Executable.planned x c sec path ps (s.carrying token) = (.ok (.ok (e, plan)), s₁) →
      (k.execute plan ps (some (q, token)) s₁).2.requests.isCancelled token = false

section SideBySide

variable {x : ExecutionSupport H} {c : Collaborators H} {sec : Section} {path : String}
  {q : Api.TableQuery} {ps : InputParameters} {token : TokenId} {s : Session H}

/-- **Where planning agrees, the plain execution and the stages of the query end in the same.** The
executor is called in sessions that differ in what is carried, once with the query and once without. -/
theorem run_eq_queryStages (hnever : NeverCancelled x c sec path q ps token s)
    (hplanned : Action.Agrees (Undisturbed token s.requests.carried) (planned x c sec path ps)
      (planned x c sec path ps) (Carries token s.requests.carried))
    (hk : ∀ k ∈ c.planExecutor, ∀ plan s₁ t₁, Undisturbed token s.requests.carried s₁ t₁ →
      (k.execute plan ps (some (q, token)) s₁).1 = (k.execute plan ps none t₁).1)
    (id : String) (args : List (String × String)) :
    (run x c ⟨sec, path, id, args, ps⟩ s).1 =
      (queryStages x c sec path q ps token (s.carrying token)).1.map fun r ↦ [r] := by
  have hentry : (s.carrying token).requests.isCancelled token = false := hnever.asked.token
  obtain ⟨hend, hcarries⟩ := hplanned (s := s.carrying token) ⟨⟨rfl, rfl⟩, hnever.asked⟩
  have huncancelled := hnever.planned
  have hexecuted := hnever.executed
  rw [queryStages_eq, Action.bind_of_ok (Action.check_of_uncancelled hentry), run]
  rcases hquery : planned x c sec path ps (s.carrying token) with ⟨r, s₁⟩
  rcases hplain : planned x c sec path ps s with ⟨r', t₁⟩
  rw [hquery, hplain] at hend hcarries
  rw [hquery] at huncancelled hexecuted
  obtain rfl : r = r' := hend
  cases r with
  | error f =>
    rw [Action.bind_of_error hquery, Action.bind_of_error hplain]
    rfl
  | ok p =>
    rw [Action.bind_of_ok hquery, Action.bind_of_ok hplain]
    cases p with
    | error r => rfl
    | ok p =>
      obtain ⟨e, plan⟩ := p
      dsimp only
      rw [executePlan, Action.bind_of_ok (Action.check_of_uncancelled huncancelled.token),
        Collaborators.requirePlanExecutor]
      cases hexecutor : c.planExecutor with
      | none => rfl
      | some k =>
        have huncancelled' : t₁.Uncancelled token s.requests.carried := by
          obtain ⟨rfl, -⟩ := hcarries
          exact ⟨huncancelled.token, huncancelled.before⟩
        have hanswer := hk k hexecutor plan s₁ t₁ ⟨hcarries, huncancelled'⟩
        have hreturned := hexecuted k hexecutor e plan s₁ rfl
        rw [Collaborators.require, pure_bind, pure_bind]
        rcases hwith : k.execute plan ps (some (q, token)) s₁ with ⟨output, s₂⟩
        rcases hwithout : k.execute plan ps none t₁ with ⟨output', t₂⟩
        rw [hwith, hwithout] at hanswer
        rw [hwith] at hreturned
        obtain rfl : output = output' := hanswer
        cases output with
        | error f =>
          rw [Action.bind_of_error hwith, Action.bind_of_error hwithout]
          rfl
        | ok output =>
          rw [Action.bind_of_ok hwith, Action.bind_of_ok hwithout, showOutput,
            Action.bind_of_ok (Action.check_of_uncancelled hreturned)]
          cases output.render <;> rfl

/-- A fault makes the same result of a query as of a command; of a cancellation a query logs nothing, and
says nothing but the text that it has. -/
theorem sameAs_queryFailed {f : Fault} (htext : f.HasText)
    (htold : f.isCancellation = true → f.message ≠ "") (path : String) :
    ∃ r, queryFailed path f = .ok r ∧ r.SameAs (Result.worded path f none) := by
  rw [queryFailed]
  split
  · next hcancelled =>
    have hmessage : Result.messageOf f.message = f.message :=
      if_neg fun hempty ↦ htold hcancelled (String.isEmpty_iff.1 hempty)
    rw [htext]
    exact ⟨_, rfl, rfl, rfl, hmessage.symm, rfl⟩
  · exact ⟨_, Result.ofFault_of_hasText htext path none, .refl _⟩

end SideBySide

/-- **A table query tells the same as a plain execution where nothing is cancelled.** Whoever makes plans
agrees with himself whether or not the token is carried, and whoever runs them answers the same with the
query and the token as without; for the rest they do what they like, and may be missing or fail, though no
cancellation that they raise has an empty text. Then the one result of the query and the one result of the
command to execute have the same ids, kind, message and place, whichever way planning and executing end.
Where there is no result, since what was raised has no text, both end in the same fault. -/
theorem query_sameAs_execute [Depths] {c : Collaborators H} {s : Session H} {token : TokenId}
    (hp : c.provider.Agrees (Undisturbed token s.requests.carried))
    (hg : ∀ g ∈ c.planGenerator, ∀ spec m p ext,
      Action.Agrees (Undisturbed token s.requests.carried) (g.generate spec m p ext)
        (g.generate spec m p ext) (Carries token s.requests.carried))
    (hk : ∀ k ∈ c.planExecutor, ∀ plan ps q s₁ t₁, Undisturbed token s.requests.carried s₁ t₁ →
      (k.execute plan ps (some (q, token)) s₁).1 = (k.execute plan ps none t₁).1)
    {x : Extension H} (hx : x ∈ Server.defaultExtensions) {support : ExecutionSupport H}
    (hsupport : x.execution = some support) (families : List Family) (sec : Section) (path : String)
    (q : Api.TableQuery) (args : List (String × String)) (ps : InputParameters)
    (hnever : NeverCancelled support c sec path q ps token s)
    (htold : ∀ f, (queryStages support c sec path q ps token (s.carrying token)).1 = .error f →
      f.isCancellation = true → f.message ≠ "") :
    let asked := query support c sec path q ps token s
    let run := x.execute ⟨c, families⟩ ⟨sec, path, Command.executeId, args, ps⟩ s
    ((∃ r r', asked.1 = .ok r ∧ run.1 = .ok [r'] ∧ r.SameAs r') ∨
      ∃ f, asked.1 = .error f ∧ run.1 = .error f) ∧
    (c.Worded → ∃ r, asked.1 = .ok r) := by
  intro asked run
  have hplanned : Action.Agrees (Undisturbed token s.requests.carried)
      (planned support c sec path ps) (planned support c sec path ps)
      (Carries token s.requests.carried) :=
    agrees_planned undisturbed_le_carries
      (Collaborators.agrees_parse sameWorkspace_undisturbed hp sec)
      (Collaborators.agrees_compile sameWorkspace_undisturbed hp)
      (Extension.agrees_plan hx hsupport undisturbed_le_carries Action.agrees_checkCarried hg ps) path
  have hstages := run_eq_queryStages hnever hplanned (fun k hmem plan ↦ hk k hmem plan ps q)
    Command.executeId args
  have hdispatch : x.dispatch ⟨c, families⟩ ⟨sec, path, Command.executeId, args, ps⟩ =
      Executable.run support c ⟨sec, path, Command.executeId, args, ps⟩ := by
    simp only [Server.defaultExtensions, List.mem_cons, List.not_mem_nil, or_false] at hx
    rcases hx with rfl | rfl | rfl
    · obtain rfl : ServiceGrammar.execution = support := Option.some.inj hsupport
      rfl
    · cases hsupport
    · obtain rfl : FunctionGrammar.execution = support := Option.some.inj hsupport
      rfl
  refine ⟨?_, fun hworded ↦ ?_⟩
  · rcases hquery : queryStages support c sec path q ps token (s.carrying token) with ⟨stages, s₁⟩
    rw [hquery] at hstages htold
    have hasked : asked.1 = resultOf path stages := congrArg Prod.fst (query_apply hquery)
    have hrun : run.1 = Extension.results path (stages.map fun r ↦ [r]) := by
      rw [← hstages, ← hdispatch]
      exact congrArg Prod.fst (Extension.execute_apply x _ _ s)
    rw [hasked, hrun]
    cases stages with
    | ok r => exact .inl ⟨r, r, rfl, rfl, .refl r⟩
    | error f =>
      rcases f.hasText_or_mute with htext | ⟨kind, inner, rfl⟩
      · obtain ⟨r, hr, hsame⟩ := sameAs_queryFailed htext (htold f rfl) path
        refine .inl ⟨r, _, hr, ?_, hsame⟩
        exact Extension.results_of_hasText htext path
      · exact .inr ⟨inner, queryFailed_mute path kind inner, rfl⟩
  · obtain ⟨r, s', hquery, -⟩ :=
      always_query (Server.articulate_execution hx hsupport) hworded sec path q ps token s
    exact ⟨r, congrArg Prod.fst hquery⟩

/-- Whoever always makes the same plan, and whoever always has an output, where documents are read as
JSON. -/
def ready [Depths] : Collaborators Unit :=
  ⟨DocumentProvider.provider, some ⟨fun _ _ _ _ ↦ pure (.text "plan")⟩, some readyExecutor, none, none,
    .empty⟩

/-- A session in which one request runs, whose token is not cancelled. -/
def oneQuery : Session Unit :=
  ⟨.empty, ⟨[.new "q"], [(.text "q", 0)], none, []⟩, ()⟩

open Depths in
theorem neverCancelled_ready :
    NeverCancelled FunctionGrammar.execution ready oneFunction "f" .all [] 0 oneQuery where
  asked := ⟨rfl, fun _ h ↦ nomatch h⟩
  planned := ⟨by decide +kernel, fun _ h ↦ nomatch h⟩
  executed := by
    intro k hk e plan s₁ hplanned
    obtain rfl : readyExecutor = k := Option.some.inj hk
    have hs₁ : (planned FunctionGrammar.execution ready oneFunction "f" []
        (oneQuery.carrying 0)).2.requests.isCancelled 0 = false := by decide +kernel
    rw [hplanned] at hs₁
    exact hs₁

open Depths in
/-- The function is executed in both ways, and both succeed. -/
theorem query_sameAs_execute_ready :
    ∃ r r',
      (query FunctionGrammar.execution ready oneFunction "f" .all [] 0 oneQuery).1 = .ok r ∧
      (FunctionGrammar.extension.execute ⟨ready, []⟩
        ⟨oneFunction, "f", Command.executeId, [], []⟩ oneQuery).1 = .ok [r'] ∧
      r.SameAs r' ∧ r.outcome = .success := by
  have hplans : ∀ g ∈ ready.planGenerator, ∀ spec m p ext,
      Action.Agrees (Undisturbed 0 oneQuery.requests.carried) (g.generate spec m p ext)
        (g.generate spec m p ext) (Carries 0 oneQuery.requests.carried) := by
    intro g hg spec m p ext
    obtain rfl : (⟨fun _ _ _ _ ↦ pure (.text "plan")⟩ : PlanGenerator Unit) = g :=
      Option.some.inj hg
    exact .pure undisturbed_le_carries _
  have hruns : ∀ k ∈ ready.planExecutor, ∀ plan ps q s₁ t₁,
      Undisturbed 0 oneQuery.requests.carried s₁ t₁ →
        (k.execute plan ps (some (q, 0)) s₁).1 = (k.execute plan ps none t₁).1 := by
    intro k hk plan ps q s₁ t₁ _
    obtain rfl : readyExecutor = k := Option.some.inj hk
    rfl
  have hfunction : FunctionGrammar.extension ∈ Server.defaultExtensions (H := Unit) := by
    simp [Server.defaultExtensions]
  have hsuccess : (query FunctionGrammar.execution ready oneFunction "f" .all [] 0
      oneQuery).1.toOption.map (·.outcome) = some .success := by decide +kernel
  have hstages : (queryStages FunctionGrammar.execution ready oneFunction "f" .all [] 0
      (oneQuery.carrying 0)).1.toOption.isSome = true := by decide +kernel
  obtain ⟨hsame, -⟩ := query_sameAs_execute DocumentProvider.agrees
    hplans hruns hfunction rfl [] oneFunction "f" .all [] [] neverCancelled_ready (fun f hf ↦ by
      rw [hf] at hstages
      cases hstages)
  rcases hsame with ⟨r, r', hquery, hexecute, hsame⟩ | ⟨f, hquery, -⟩
  · rw [hquery] at hsuccess
    exact ⟨r, r', hquery, hexecute, hsame, Option.some.inj hsuccess⟩
  · rw [hquery] at hsuccess
    cases hsuccess

/-- One request runs, whose token is not cancelled, and the token of another is carried and cancelled. -/
def interruptedQuery : Session Unit :=
  ⟨.empty, ⟨[.new "q", { Token.new "p" with cancelled := true }], [(.text "q", 0)], some 1, []⟩, ()⟩

/-- Whoever makes a plan only if a token is carried, and whoever always has an output. -/
def observant [Depths] : Collaborators Unit :=
  { ready with
    planGenerator := some ⟨fun _ _ _ _ s ↦
      (if s.requests.carried.isSome then .ok (.text "plan") else .error .tooDeep, s)⟩ }

open Depths in
/-- **A table query whose token is not cancelled may tell something else than a plain execution.** In a
session that carries a cancelled token the execution stops before the plan is made, and so it does where
plans are made only while a token is carried; the query succeeds in both. -/
theorem query_differs_from_execute :
    (interruptedQuery.requests.isCancelled 0 = false ∧
      (query FunctionGrammar.execution ready oneFunction "f" .all [] 0
        interruptedQuery).1.toOption.map (·.outcome) = some .success ∧
      (FunctionGrammar.extension.execute ⟨ready, []⟩ ⟨oneFunction, "f", Command.executeId, [], []⟩
        interruptedQuery).1.toOption.map (·.map fun r ↦ (r.outcome, r.message)) =
          some [(.error, "Request cancelled: p")]) ∧
    (query FunctionGrammar.execution observant oneFunction "f" .all [] 0
        oneQuery).1.toOption.map (·.outcome) = some .success ∧
      (FunctionGrammar.extension.execute ⟨observant, []⟩ ⟨oneFunction, "f", Command.executeId, [], []⟩
        oneQuery).1.toOption.map (·.map fun r ↦ (r.outcome, r.message)) =
          some [(.error, Fault.tooDeep.message)] :=
  ⟨⟨rfl, by decide +kernel, by decide +kernel⟩, by decide +kernel, by decide +kernel⟩

end Executable

end ModelServer
