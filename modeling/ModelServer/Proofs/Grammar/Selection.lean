import ModelServer.Proofs.Grammar.Capabilities
import ModelServer.Proofs.Grammar.TableQuery

/-!
# What is executed of an element

To execute an element is to select a binding, to have a plan made for it and to have the plan executed.
`Selects` says which binding the parameters select, and `Unselected` that they select none; between them
they settle every element that has a lambda (`selects_or_unselected`). What comes of a binding is `Runs`,
which lists every end there is with the calls that were made by then. It is told of the binding, not of the
execution it was selected from, and it has exactly one outcome (`Runs.unique`, `ExecutionSpec.runs`): so
whatever an execution declares besides has no part in it.

The functions of the program are brought to `Runs` in two steps. Up to the plan nobody is called and
nothing but the memory of the workspace changes (`Executable.run_apply`); from there the ends are those of
`Runs`, one by one (`ExecutionSpec.runs`).
-/

namespace ModelServer

/-! ### Which binding is selected -/

/-- What the parameters select to be executed of an element in a section of that grammar: of a service
with one binding this binding, of one with variants the first whose key is the text that is found under
the key of the execution, and of a function its lambda alone. -/
inductive Selects (ps : InputParameters) (grammar : String) (e : Element) : ExecutionSpec → Prop
  | single {service : Service Location} {func : Lambda Location} {b : Binding Location}
      (services : grammar = "Service") (declared : e.service? = some service)
      (binding : service.execution = some (.single (some func) b)) :
      Selects ps grammar e ⟨some func, b.mapping, b.runtime, b.options⟩
  | variant {service : Service Location} {func : Lambda Location} {key : String}
      {before after : List (Variant Location)} {v : Variant Location}
      (services : grammar = "Service") (declared : e.service? = some service)
      (variants : service.execution = some (.multi (some func) key (before ++ v :: after)))
      (value : ps.value key = .text v.key) (first : ∀ u ∈ before, u.key ≠ v.key) :
      Selects ps grammar e ⟨some func, v.binding.mapping, v.binding.runtime, v.binding.options⟩
  | function {f : Function Location} {func : Lambda Location} (functions : grammar = "Function")
      (declared : e.function? = some f) (lambda : f.func = some func) :
      Selects ps grammar e ⟨some func, none, none, []⟩

/-- The parameters select no variant: what is found under the key of the execution, or null, is the key of
none. -/
inductive Unselected (ps : InputParameters) (grammar : String) (e : Element) : Json → Prop
  | variants {service : Service Location} {func : Lambda Location} {key : String}
      {vs : List (Variant Location)} (services : grammar = "Service")
      (declared : e.service? = some service)
      (variants : service.execution = some (.multi (some func) key vs))
      (unmatched : ∀ v ∈ vs, ps.value key ≠ .text v.key) :
      Unselected ps grammar e (ps.value key)

namespace Execution

variable {σ : Type}

theorem variant?_eq_some_iff {variants : List (Variant σ)} {value : Json} {v : Variant σ} :
    variant? variants value = some v ↔ value = .text v.key ∧
      ∃ before after, variants = before ++ v :: after ∧ ∀ u ∈ before, u.key ≠ v.key := by
  cases value with
  | text s =>
    rw [variant?, List.find?_eq_some_iff_append, beq_iff_eq]
    constructor
    · rintro ⟨rfl, before, after, hsplit, hfirst⟩
      exact ⟨rfl, before, after, hsplit, fun u hu ↦ by simpa using hfirst u hu⟩
    · rintro ⟨hs, before, after, hsplit, hfirst⟩
      obtain rfl : s = v.key := Data.text.inj hs
      exact ⟨rfl, before, after, hsplit, fun u hu ↦ by simpa using hfirst u hu⟩
  | null | bool | int | float | list | record =>
    refine ⟨fun h ↦ ?_, fun h ↦ ?_⟩
    · cases h
    · cases h.1
  | foreign a => cases a

theorem variant?_eq_none_iff {variants : List (Variant σ)} {value : Json} :
    variant? variants value = none ↔ ∀ v ∈ variants, value ≠ .text v.key := by
  cases value with
  | text s =>
    rw [variant?, List.find?_eq_none]
    refine forall₂_congr fun v _ ↦ not_congr ?_
    rw [beq_iff_eq, Data.text.injEq, eq_comm]
  | null | bool | int | float | list | record =>
    refine ⟨fun _ v _ h ↦ ?_, fun _ ↦ rfl⟩
    cases h
  | foreign a => cases a

end Execution

section Selected

variable {ps : InputParameters} {grammar : String} {e : Element}

/-- **Of an element with a lambda something is selected, or no variant has the key.** -/
theorem selects_or_unselected (ps : InputParameters)
    (h : Capability.declared false grammar e .execute = true) :
    (∃ spec, Selects ps grammar e spec) ∨ ∃ value, Unselected ps grammar e value := by
  simp only [Capability.declared, Bool.or_eq_true, Bool.and_eq_true, beq_iff_eq, Option.any_eq_true] at h
  rcases h with ⟨hgrammar, service, hservice, hlambda⟩ | ⟨hgrammar, f, hf, hlambda⟩
  · obtain ⟨func, hfunc⟩ := Option.isSome_iff_exists.1 hlambda
    obtain ⟨x, hx, hfunc⟩ := Option.bind_eq_some_iff.1 hfunc
    cases x with
    | single l b =>
      obtain rfl : l = some func := hfunc
      exact .inl ⟨_, .single hgrammar hservice hx⟩
    | multi l key vs =>
      obtain rfl : l = some func := hfunc
      cases hv : Execution.variant? vs (ps.value key) with
      | some v =>
        obtain ⟨hvalue, before, after, rfl, hfirst⟩ := Execution.variant?_eq_some_iff.1 hv
        exact .inl ⟨_, .variant hgrammar hservice hx hvalue hfirst⟩
      | none => exact .inr ⟨_, .variants hgrammar hservice hx (Execution.variant?_eq_none_iff.1 hv)⟩
  · obtain ⟨func, hfunc⟩ := Option.isSome_iff_exists.1 hlambda
    exact .inl ⟨_, .function hgrammar hf hfunc⟩

end Selected

/-! ### What comes of a binding -/

variable {H : Type}

/-- Has a plan of the binding made. -/
def ExecutionSpec.planBy (spec : ExecutionSpec) (c : Collaborators H) (m : CompiledModel) :
    Action H Value := do
  let generator ← c.requirePlanGenerator
  spec.plan m generator c.platformExtensions

/-- What is left to do when there is a plan. -/
def Executable.finish (c : Collaborators H) (path : String) (ps : InputParameters) (e : Element)
    (plan : Value) : Action H (List Result) := do
  let executor ← c.requirePlanExecutor
  let output ← executor.execute plan ps none
  let shown ← Action.ofExcept output.render
  return [succeeded path e shown]

section Supports

variable {ps : InputParameters} {e : Element} {spec : ExecutionSpec}

/-- **The plan of a service is made for the binding that is selected.** -/
theorem ServiceGrammar.plan_of_selects (h : Selects ps "Service" e spec) :
    ∃ func, lambda e = some func ∧
      ∀ (c : Collaborators H) m, plan c e func m ps = spec.planBy c m := by
  cases h with
  | @single service func b _ declared binding =>
    refine ⟨func, ?_, fun c m ↦ ?_⟩
    · rw [lambda, declared, Option.bind_some, binding]
      rfl
    · rw [plan, declared]
      dsimp only
      rw [binding]
      rfl
  | @variant service func key before after v _ declared variants value first =>
    have hresolve : Execution.resolve service.execution (some func) ps =
        .ok (Execution.specOf (some func) v.binding) := by
      rw [variants, Execution.resolve, Execution.selectVariant,
        Execution.variant?_eq_some_iff.2 ⟨value, before, after, rfl, first⟩]
      rfl
    refine ⟨func, ?_, fun c m ↦ ?_⟩
    · rw [lambda, declared, Option.bind_some, variants]
      rfl
    · rw [plan, declared]
      dsimp only
      rw [hresolve]
      rfl
  | function hgrammar => exact absurd hgrammar (by decide)

/-- Where no variant has the key, no plan is asked for. -/
theorem ServiceGrammar.plan_of_unselected {value : Json} (h : Unselected ps "Service" e value) :
    ∃ func key, lambda e = some func ∧
      ∀ (c : Collaborators H) m, plan c e func m ps = .fail (.unmatchedKey key value) := by
  cases h with
  | @variants service func key vs _ declared variants unmatched =>
    have hresolve : Execution.resolve service.execution (some func) ps =
        .error (.unmatchedKey key (ps.value key)) := by
      rw [variants, Execution.resolve, Execution.selectVariant,
        Execution.variant?_eq_none_iff.2 unmatched]
      rfl
    refine ⟨func, key, ?_, fun c m ↦ ?_⟩
    · rw [lambda, declared, Option.bind_some, variants]
      rfl
    · rw [plan, declared]
      dsimp only
      rw [hresolve]
      rfl

/-- The plan of a function is made for its lambda. -/
theorem FunctionGrammar.plan_of_selects (h : Selects ps "Function" e spec) :
    ∃ func, lambda e = some func ∧
      ∀ (c : Collaborators H) m, execution.plan c e func m ps = spec.planBy c m := by
  cases h with
  | single hgrammar => exact absurd hgrammar (by decide)
  | variant hgrammar => exact absurd hgrammar (by decide)
  | @function f func _ declared hfunc =>
    refine ⟨func, ?_, fun c m ↦ rfl⟩
    rw [lambda, declared]
    exact hfunc

end Supports

section Stages

variable (g? : Option (PlanGenerator H)) (k? : Option (PlanExecutor H)) (ext : PlatformExtensions)
  (m : CompiledModel) (path : String) (source : Option Location) (ps : InputParameters)
  (spec : ExecutionSpec) (s : Session H)

/-- What comes of a binding that is to be executed: the calls that are made, the one result, and the
session at the end. The generator is called with the binding; if it gives a plan, the executor is called
with this plan and the parameters; and if that gives an output that can be shown, it is the message of a
success at the place of the element. Of the element nothing is asked but its path and its place. A fault is
told in the one result, or ends the command if it has no text (`Result.ofFault`). -/
inductive Runs : List Call → Except Fault Result → Session H → Prop
  | unplanned (nobody : g? = none) :
    Runs [] (Result.ofFault path (.unconfigured "plan generator") none) s
  | planFailed {g : PlanGenerator H} {f : Fault} {t : Session H} (generator : g? = some g)
      (fails : g.generate spec m .java ext s = (.error f, t)) :
    Runs [.generate spec] (Result.ofFault path f none) t
  | unexecuted {g : PlanGenerator H} {plan : Value} {t : Session H} (generator : g? = some g)
      (plans : g.generate spec m .java ext s = (.ok plan, t)) (nobody : k? = none) :
    Runs [.generate spec] (Result.ofFault path (.unconfigured "plan executor") none) t
  | failed {g : PlanGenerator H} {plan : Value} {t t' : Session H} {k : PlanExecutor H} {f : Fault}
      (generator : g? = some g) (plans : g.generate spec m .java ext s = (.ok plan, t))
      (executor : k? = some k) (fails : k.execute plan ps none t = (.error f, t')) :
    Runs [.generate spec, .execute] (Result.ofFault path f none) t'
  | unshown {g : PlanGenerator H} {plan : Value} {t t' : Session H} {k : PlanExecutor H}
      {output : Output} {f : Fault} (generator : g? = some g)
      (plans : g.generate spec m .java ext s = (.ok plan, t)) (executor : k? = some k)
      (executes : k.execute plan ps none t = (.ok output, t')) (unshown : output.render = .error f) :
    Runs [.generate spec, .execute] (Result.ofFault path f none) t'
  | succeeded {g : PlanGenerator H} {plan : Value} {t t' : Session H} {k : PlanExecutor H}
      {output : Output} {shown : String} (generator : g? = some g)
      (plans : g.generate spec m .java ext s = (.ok plan, t)) (executor : k? = some k)
      (executes : k.execute plan ps none t = (.ok output, t')) (shows : output.render = .ok shown) :
    Runs [.generate spec, .execute] (.ok (.ofElement path .success shown source)) t'

variable {g? k? ext m path source ps spec s}

/-- **A binding has one outcome.** -/
theorem Runs.unique {calls calls' : List Call} {out out' : Except Fault Result} {t t' : Session H}
    (h : Runs g? k? ext m path source ps spec s calls out t)
    (h' : Runs g? k? ext m path source ps spec s calls' out' t') :
    calls = calls' ∧ out = out' ∧ t = t' := by
  cases h <;> cases h' <;> grind

end Stages

/-! ### From the command to the binding -/

/-- A server with the extensions that are always there, which reads documents as JSON and has its calls of
this generator and this executor on record. Either may be missing, and of its other collaborators nothing
is known. -/
structure Server.Executes [Depths] (v : Server (Recorded H)) (g? : Option (PlanGenerator H))
    (k? : Option (PlanExecutor H)) : Prop where
  extensions : v.extensions = Server.defaultExtensions
  provider : v.collaborators.provider = DocumentProvider.provider
  generator : v.collaborators.planGenerator = g?.map (·.recorded)
  executor : v.collaborators.planExecutor = k?.map (·.recorded)

section Runs

variable [Depths] {g? : Option (PlanGenerator H)} {k? : Option (PlanExecutor H)}
  {v : Server (Recorded H)}
  (hv : v.Executes g? k?)

include hv

/-- What the recorded generator does is what the generator does, with its call on record. -/
theorem ExecutionSpec.planBy_apply {g : PlanGenerator H} (hg : g? = some g) (spec : ExecutionSpec)
    (m : CompiledModel) {s : Session (Recorded H)}
    (hfree : ∀ t ∈ s.requests.carried, s.requests.isCancelled t = false) {r : Except Fault Value}
    {t : Session H}
    (hplans : g.generate spec m .java v.collaborators.platformExtensions s.unrecorded = (r, t)) :
    spec.planBy v.collaborators m s = (r, t.withCalls (s.host.calls ++ [.generate spec])) := by
  have hrequire : v.collaborators.requirePlanGenerator = pure g.recorded := by
    rw [Collaborators.requirePlanGenerator, hv.generator, hg]
    rfl
  rw [planBy, hrequire]
  show spec.plan m g.recorded v.collaborators.platformExtensions s = _
  rw [plan, Action.bind_of_ok (Action.checkCarried_of_uncancelled hfree)]
  show (g.generate spec m .java v.collaborators.platformExtensions).noted (.generate spec) s = _
  rw [Action.noted_apply, hplans]

/-- So it is with the executor, and what can be shown is shown. -/
theorem Executable.finish_apply {k : PlanExecutor H} (hk : k? = some k) (path : String)
    {ps : InputParameters} (e : Element) {plan : Value} {s : Session (Recorded H)}
    {r : Except Fault Output} {t : Session H}
    (hexecutes : k.execute plan ps none s.unrecorded = (r, t)) :
    finish v.collaborators path ps e plan s =
      (r.bind fun output ↦ output.render.map fun shown ↦ [succeeded path e shown],
        t.withCalls (s.host.calls ++ [.execute])) := by
  have hrequire : v.collaborators.requirePlanExecutor = pure k.recorded := by
    rw [Collaborators.requirePlanExecutor, hv.executor, hk]
    rfl
  rw [finish, hrequire]
  show ((k.execute plan ps none).noted .execute >>= _) s = _
  rw [Action.bind_apply, Action.noted_apply, hexecutes]
  cases r with
  | error f => rfl
  | ok output =>
    show (Action.ofExcept output.render >>= _) _ = ((output.render.map _), _)
    cases output.render <;> rfl

/-- **From the plan on the ends are those of the binding**, where what is carried is not cancelled. -/
theorem ExecutionSpec.runs (spec : ExecutionSpec) (m : CompiledModel) (e : Element)
    (ps : InputParameters) {s : Session (Recorded H)}
    (hfree : ∀ t ∈ s.requests.carried, s.requests.isCancelled t = false) :
    let run := (spec.planBy v.collaborators m >>=
      Executable.finish v.collaborators e.path ps e) s
    ∃ calls out t,
      Runs g? k? v.collaborators.platformExtensions m e.path e.source ps spec s.unrecorded calls out t ∧
      Extension.results e.path run.1 = out.map ([·]) ∧ run.2 = t.withCalls (s.host.calls ++ calls) := by
  intro run
  cases hg : g? with
  | none =>
    have hrequire : v.collaborators.requirePlanGenerator = .fail (.unconfigured "plan generator") := by
      rw [Collaborators.requirePlanGenerator, hv.generator, hg]
      rfl
    have hrun : run = (.error (.unconfigured "plan generator"), s) := by
      show (spec.planBy v.collaborators m >>= _) s = _
      rw [planBy, hrequire]
      rfl
    rw [hrun]
    exact ⟨[], _, s.unrecorded, .unplanned rfl, rfl, by rw [List.append_nil]; rfl⟩
  | some g =>
    rcases hplans : g.generate spec m .java v.collaborators.platformExtensions s.unrecorded with
      ⟨f | plan, t⟩
    · have hplan := spec.planBy_apply hv hg m hfree hplans
      have hrun : run = (.error f, t.withCalls (s.host.calls ++ [.generate spec])) :=
        Action.bind_of_error hplan _
      rw [hrun]
      exact ⟨_, _, _, .planFailed rfl hplans, rfl, rfl⟩
    · have hplan := spec.planBy_apply hv hg m hfree hplans
      have hrun : run = Executable.finish v.collaborators e.path ps e plan
          (t.withCalls (s.host.calls ++ [.generate spec])) := Action.bind_of_ok hplan _
      rw [hrun]
      cases hk : k? with
      | none =>
        have hrequire : v.collaborators.requirePlanExecutor =
            .fail (.unconfigured "plan executor") := by
          rw [Collaborators.requirePlanExecutor, hv.executor, hk]
          rfl
        rw [Executable.finish, hrequire]
        exact ⟨_, _, _, .unexecuted rfl hplans rfl, rfl, rfl⟩
      | some k =>
        have hcalls : s.host.calls ++ [Call.generate spec, .execute] =
            s.host.calls ++ [.generate spec] ++ [.execute] := by
          rw [List.append_assoc, List.singleton_append]
        rcases hexecutes : k.execute plan ps none t with ⟨r, t'⟩
        rw [Executable.finish_apply hv hk e.path e
          (s := t.withCalls (s.host.calls ++ [Call.generate spec])) hexecutes]
        rcases r with f | output
        · exact ⟨_, _, _, .failed rfl hplans rfl hexecutes, rfl, by rw [hcalls]; rfl⟩
        · rcases hrender : output.render with f | shown
          · refine ⟨_, _, _, .unshown rfl hplans rfl hexecutes hrender, ?_, by rw [hcalls]; rfl⟩
            rw [Except.bind, hrender]
            rfl
          · refine ⟨_, _, _, .succeeded rfl hplans rfl hexecutes hrender, ?_, by rw [hcalls]; rfl⟩
            rw [Except.bind, hrender]
            rfl

end Runs

/-- Up to the plan nobody is called. -/
theorem Executable.run_apply [Depths] {x : ExecutionSupport H} {c : Collaborators H} {w : Workspace}
    {m : CompiledModel} {sec : Section} {e : Element} {func : Lambda Location}
    (hc : c.provider = DocumentProvider.provider) (hf : Found w m sec e)
    (hfunc : x.lambda e = .ok (some func)) (id : String) (args : List (String × String))
    (ps : InputParameters) {s : Session H} (hs : w.Learns s.workspace) :
    ∃ w', w.Learns w' ∧ run x c ⟨sec, e.path, id, args, ps⟩ s =
      (x.plan c e func m ps >>= finish c e.path ps e) { s with workspace := w' } := by
  obtain ⟨w₁, hw₁, hparse⟩ := Workspace.Answers.parse hc hf.held s hs
  obtain ⟨w₂, hw₂, hcompile⟩ := Workspace.Answers.compile hc hf.sound { s with workspace := w₁ } hw₁
  rw [hf.compiled] at hcompile
  have hplanned : planned x c sec e.path ps s =
      (x.plan c e func m ps >>= fun plan ↦ pure (.ok (e, plan))) { s with workspace := w₂ } := by
    rw [planned, Action.bind_of_ok hparse, hf.element]
    dsimp only
    rw [hfunc, Action.bind_ofExcept_apply]
    dsimp only
    rw [Action.bind_of_ok hcompile]
    rfl
  refine ⟨w₂, hw₂, ?_⟩
  rw [run, Action.bind_apply, hplanned, Action.bind_apply, Action.bind_apply]
  rcases x.plan c e func m ps { s with workspace := w₂ } with ⟨f | plan, t⟩ <;> rfl

end ModelServer
