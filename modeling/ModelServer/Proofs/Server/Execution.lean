import ModelServer.Proofs.Grammar.Selection
import ModelServer.Proofs.Model.Options
import ModelServer.Proofs.Server.Project
import ModelServer.Proofs.Server.References

/-!
# To execute an element of a project

In a project that compiles the command to execute an element finds the element it names, and what comes of
it is told by `Selects` and `Runs` alone: which binding the parameters select, and what the generator and
the executor make of that. The section may be given with the command or be found by the path.

What is selected comes with its options in the order of their names, whatever order the document has them
in, since that is how elements are placed (`Section.pairwise_options`).
-/

namespace ModelServer

/-- The options of whatever an execution may run against stand in the order of their names. -/
theorem Section.pairwise_options {sec : Section} {e : Element} (he : e ∈ sec.parse.toList)
    {service : Service Location} (hservice : e.service? = some service) {x : Execution Location}
    (hx : service.execution = some x) {b : Binding Location} (hb : b ∈ x.bindings) :
    b.options.Pairwise fun o o' ↦ Text.inOrder o.1 o'.1 = true := by
  cases hes : sec.parse with
  | faulty f =>
    rw [hes] at he
    exact absurd he List.not_mem_nil
  | elements es =>
    rw [hes] at he
    obtain ⟨c, -, rfl⟩ := parse_eq_elements_iff.1 hes
    obtain ⟨d, -, rfl⟩ := List.mem_map.1 he
    cases d with
    | service h s vs =>
      obtain rfl : s.map (Location.mk sec.document.id) = service := Option.some.inj hservice
      obtain ⟨x, -, rfl⟩ := Option.map_eq_some_iff.1 hx
      rw [Execution.bindings_map] at hb
      obtain ⟨b, -, rfl⟩ := List.mem_map.1 hb
      exact Dictionary.pairwise_sort b.options
    | mapping | runtime | profile | function => cases hservice

/-- What is selected has its options in the order of their names. -/
theorem Selects.pairwise_options {ps : InputParameters} {sec : Section} {e : Element}
    {spec : ExecutionSpec} (he : e ∈ sec.parse.toList) (h : Selects ps sec.grammar e spec) :
    spec.options.Pairwise fun o o' ↦ Text.inOrder o.1 o'.1 = true := by
  cases h with
  | single _ declared binding =>
    exact Section.pairwise_options he declared binding (List.mem_singleton_self _)
  | variant _ declared variants =>
    refine Section.pairwise_options he declared variants (List.mem_map_of_mem ?_)
    exact List.mem_append_right _ List.mem_cons_self
  | function => exact .nil

variable {H : Type}

/-- A section is found by its number, and by what it alone declares. -/
theorem Workspace.Sound.located [Depths] {w : Workspace} (hw : w.Sound) {m : CompiledModel}
    (hm : Compiled.ofSections w.allSections = .model m) {document : String} {sec : Section}
    (hsec : sec ∈ w.sectionsOf document) {e : Element} (he : e ∈ sec.parse.toList)
    {index : Option Int} (hindex : ∀ n ∈ index, n = sec.index) :
    w.located document e.path index = some sec := by
  cases index with
  | none => exact (found_of_mem hw hm hsec he).2.1
  | some n =>
    obtain rfl : n = sec.index := hindex n rfl
    obtain ⟨ss, hss, hmem⟩ := mem_sectionsOf.1 hsec
    obtain ⟨d, parts, -, -, -, rfl⟩ := hw.cut hss
    rw [Workspace.located, sectionsOf, hss, Option.getD_some, Document.find?_sections]
    exact Document.mem_sections_iff.1 hmem

namespace Server

variable {v : Server (Recorded H)} {g? : Option (PlanGenerator H)} {k? : Option (PlanExecutor H)}

/-- The command of a request is run by the extension of the section it is about. -/
theorem runCommand_of_located [Depths] {v : Server H}
    (hp : v.collaborators.provider = DocumentProvider.provider)
    {w : Workspace} (hw : w.Sound) {r : Api.ExecuteRequest} {sec : Section}
    (hsec : w.located r.uri r.entityPath r.sectionIndex = some sec) {x : Extension H}
    (hx : v.extensionFor sec = some x) {s : Session H} (hs : w.Learns s.workspace) :
    ∃ w', w.Learns w' ∧ v.runCommand r s = x.execute v.surroundings
      ⟨sec, r.entityPath, r.commandId, r.executableArgs, r.inputParameters⟩
      { s with workspace := w' } := by
  obtain ⟨w', hw', hlocate⟩ :=
    Workspace.Answers.locateSection hp hw r.uri r.entityPath r.sectionIndex s hs
  rw [hsec] at hlocate
  refine ⟨w', hw', ?_⟩
  rw [runCommand, Action.bind_of_ok hlocate]
  dsimp only
  rw [hx]

/-- An extension makes the plan of an element in the way that is given, for the section that it handles. -/
structure Plans (v : Server H) (sec : Section) (e : Element) (ps : InputParameters)
    (plan : CompiledModel → Action H Value) (x : Extension H) (support : ExecutionSupport H)
    (func : Lambda Location) : Prop where
  handles : v.extensionFor sec = some x
  dispatch : ∀ i : Invocation, i.commandId = Command.executeId →
    x.dispatch v.surroundings i = Executable.run support v.collaborators i
  lambda : support.lambda e = .ok (some func)
  plan : ∀ m, support.plan v.collaborators e func m ps = plan m

/-- **To execute an element of a project is to have its plan made and executed.** -/
theorem runCommand_execute [Depths] {v : Server H}
    (hp : v.collaborators.provider = DocumentProvider.provider)
    {w : Workspace} (hw : w.Sound) {m : CompiledModel} (hm : Compiled.ofSections w.allSections = .model m)
    {document : String} {sec : Section} (hsec : sec ∈ w.sectionsOf document) {e : Element}
    (he : e ∈ sec.parse.toList) {index : Option Int} (hindex : ∀ n ∈ index, n = sec.index)
    {ps : InputParameters} {plan : CompiledModel → Action H Value} {x : Extension H}
    {support : ExecutionSupport H} {func : Lambda Location}
    (hplan : v.Plans sec e ps plan x support func) (args : List (String × String)) {s : Session H}
    (hs : w.Learns s.workspace) :
    ∃ w', w.Learns w' ∧
      let run := (plan m >>= Executable.finish v.collaborators e.path ps e) { s with workspace := w' }
      v.runCommand ⟨document, index, e.path, Command.executeId, args, ps⟩ s =
        (Extension.results e.path run.1, run.2) := by
  obtain ⟨w₁, hw₁, hrun₁⟩ := v.runCommand_of_located hp hw
    (r := ⟨document, index, e.path, Command.executeId, args, ps⟩) (hw.located hm hsec he hindex)
    hplan.handles hs
  obtain ⟨w₂, hw₂, hrun₂⟩ := Executable.run_apply (x := support) (s := { s with workspace := w₁ }) hp
    (found_of_mem hw hm hsec he).1 hplan.lambda Command.executeId args ps hw₁
  refine ⟨w₂, hw₂, ?_⟩
  rw [hrun₁, x.execute_apply, hplan.dispatch _ rfl, ← hplan.plan m]
  dsimp only
  rw [hrun₂]

end Server

/-! ### Services and functions -/

namespace ServiceGrammar

/-- A command to execute is handled as such. -/
theorem dispatch_execute [Depths] (u : Surroundings H) {i : Invocation}
    (hi : i.commandId = Command.executeId) :
    extension.dispatch u i = Executable.run execution u.collaborators i := by
  have hlegacy : Command.executeId ≠ Command.runLegacyTestsId := by decide
  have hregister : Command.executeId ≠ Command.registerId := by decide
  show dispatch suites u i = _
  rw [dispatch, hi, if_neg hlegacy, if_neg hregister, Executable.dispatch, if_pos hi]

end ServiceGrammar

namespace FunctionGrammar

theorem dispatch_execute (u : Surroundings H) {i : Invocation} (hi : i.commandId = Command.executeId) :
    extension.dispatch u i = Executable.run execution u.collaborators i :=
  if_pos hi

end FunctionGrammar

section Plans

variable [Depths] {v : Server H} (hx : v.extensions = Server.defaultExtensions) {sec : Section}
  {e : Element}
  {ps : InputParameters}

include hx

/-- **What is selected is planned**, by the extension of services or that of functions. -/
theorem Selects.plans {spec : ExecutionSpec} (h : Selects ps sec.grammar e spec) :
    ∃ x support func, v.Plans sec e ps (spec.planBy v.collaborators) x support func := by
  have hgrammar : sec.grammar = "Service" ∨ sec.grammar = "Function" := by
    cases h with
    | single services | variant services => exact .inl services
    | function functions => exact .inr functions
  obtain ⟨hg, handles⟩ | ⟨hg, -⟩ | ⟨hg, handles⟩ | ⟨hg, -⟩ := Server.extensionFor_cases hx sec
  · obtain ⟨func, hfunc, hplan⟩ := ServiceGrammar.plan_of_selects (H := H) (hg ▸ h)
    exact ⟨_, _, func, handles, fun i hi ↦ ServiceGrammar.dispatch_execute _ hi,
      congrArg Except.ok hfunc, hplan v.collaborators⟩
  · rw [hg] at hgrammar
    exact absurd hgrammar (by decide)
  · obtain ⟨func, hfunc, hplan⟩ := FunctionGrammar.plan_of_selects (H := H) (hg ▸ h)
    exact ⟨_, _, func, handles, fun i hi ↦ FunctionGrammar.dispatch_execute _ hi,
      congrArg Except.ok hfunc, hplan v.collaborators⟩
  · rcases hgrammar with h' | h'
    · exact absurd (h' ▸ hg) (by decide)
    · exact absurd (h' ▸ hg) (by decide)

/-- Where no variant has the key, the extension of services makes no plan. -/
theorem Unselected.plans {value : Json} (h : Unselected ps sec.grammar e value) :
    ∃ x support func key, v.Plans sec e ps (fun _ ↦ .fail (.unmatchedKey key value)) x support func := by
  have hgrammar : sec.grammar = "Service" := by
    cases h with
    | variants services => exact services
  obtain ⟨-, handles⟩ | ⟨hg, -⟩ | ⟨hg, -⟩ | ⟨hg, -⟩ := Server.extensionFor_cases hx sec
  · obtain ⟨func, key, hfunc, hplan⟩ := ServiceGrammar.plan_of_unselected (H := H) (hgrammar ▸ h)
    exact ⟨_, _, func, key, handles, fun i hi ↦ ServiceGrammar.dispatch_execute _ hi,
      congrArg Except.ok hfunc, hplan v.collaborators⟩
  all_goals
    rw [hgrammar] at hg
    exact absurd hg (by decide)

end Plans

namespace History

/-- **The execute command runs exactly what is selected.** In a project that compiles, for every element
with a lambda in a section of services or functions, whatever the parameters are, where no work that was
cancelled is carried: the parameters select a binding, or no variant has the key. If a binding is selected,
what comes of the command is what comes of that binding and of nothing else (`Runs`), its options being in
the order of their names. If none is selected, nobody is called, and the one result is an error that tells
what was found under the key. -/
theorem execute_runs_selected [Depths] {v : Server (Recorded H)} {g? : Option (PlanGenerator H)}
    {k? : Option (PlanExecutor H)} (hv : v.Executes g? k?) (host : Recorded H)
    (operations : List Operation) {s : Session (Recorded H)}
    (hs : s.workspace = (after v host operations).session.workspace) {m : CompiledModel}
    (hm : (v.collaborators.compile s).1 = .ok (.model m)) {document : String} {sec : Section}
    (hsec : sec ∈ s.workspace.sectionsOf document) {e : Element} (he : e ∈ sec.parse.toList)
    (hlambda : Capability.declared false sec.grammar e .execute = true) {index : Option Int}
    (hindex : ∀ n ∈ index, n = sec.index)
    (hfree : ∀ t ∈ s.requests.carried, s.requests.isCancelled t = false)
    (args : List (String × String)) (ps : InputParameters) :
    let run := v.runCommand ⟨document, index, e.path, Command.executeId, args, ps⟩ s
    ((∃ spec, Selects ps sec.grammar e spec) ∨ ∃ value, Unselected ps sec.grammar e value) ∧
    (∀ spec, Selects ps sec.grammar e spec →
      (spec.options.Pairwise fun o o' ↦ Text.inOrder o.1 o'.1 = true) ∧
      ∃ w', s.workspace.Learns w' ∧
        let begun : Session H := ⟨w', s.requests, s.host.host⟩
        (∃ calls out t,
          Runs g? k? v.collaborators.platformExtensions m e.path e.source ps spec begun calls out t) ∧
        ∀ calls out t,
          Runs g? k? v.collaborators.platformExtensions m e.path e.source ps spec begun calls out t →
            run = (out.map ([·]), t.withCalls (s.host.calls ++ calls))) ∧
    ∀ value, Unselected ps sec.grammar e value →
      ∃ w' r, s.workspace.Learns w' ∧ r.ids = [e.path] ∧ r.outcome = .error ∧
        r.message = "Missing multi execution entry for value: " ++ Json.describe value ∧
        run = (.ok [r], { s with workspace := w' }) := by
  intro run
  have hw : s.workspace.Sound := sound_of_after hv.provider hs
  have hcompiled : Compiled.ofSections s.workspace.allSections = .model m :=
    Except.ok.inj ((compile_apply hv.provider hs).symm.trans hm)
  refine ⟨selects_or_unselected ps hlambda, fun spec hselects ↦ ⟨hselects.pairwise_options he, ?_⟩,
    fun value hunselected ↦ ?_⟩
  · obtain ⟨x, support, func, hplan⟩ := hselects.plans hv.extensions
    obtain ⟨w', hw', hrun⟩ :=
      Server.runCommand_execute hv.provider hw hcompiled hsec he hindex hplan args hw.learns
    obtain ⟨calls, out, t, hruns, hresults, hsession⟩ :=
      spec.runs hv m e ps (s := { s with workspace := w' }) hfree
    refine ⟨w', hw', ⟨calls, out, t, hruns⟩, fun calls' out' t' hruns' ↦ ?_⟩
    -- There is one way to run, so it is the one that was found.
    obtain ⟨rfl, rfl, rfl⟩ := hruns.unique hruns'
    rw [← hsession, ← hresults]
    exact hrun
  · obtain ⟨x, support, func, key, hplan⟩ := hunselected.plans hv.extensions
    obtain ⟨w', hw', hrun⟩ :=
      Server.runCommand_execute hv.provider hw hcompiled hsec he hindex hplan args hw.learns
    refine ⟨w', .worded e.path (.unmatchedKey key value) none, hw', rfl, rfl, ?_, hrun⟩
    have hmessage : (Fault.unmatchedKey key value).message =
        "Missing multi execution entry for value: " ++ Json.describe value := rfl
    have hne : ¬(Fault.unmatchedKey key value).message.isEmpty = true := by
      rw [hmessage, String.isEmpty_iff]
      exact fun h ↦ absurd (String.append_eq_empty_iff.1 h).1 (by decide)
    show Result.messageOf (Fault.unmatchedKey key value).message = _
    rw [Result.messageOf, if_neg hne, hmessage]

/-- A document that declares a service with two variants. -/
def variantsText : String :=
  "\x7b\"sections\":[\x7b\"grammar\":\"Service\",\"elements\":[" ++
    "\x7b\"kind\":\"service\",\"path\":\"s\",\"execution\":\x7b\"kind\":\"multi\"," ++
    "\"execution_key\":\"k\",\"func\":\x7b\x7d,\"execution_parameters\":" ++
    "[\x7b\"key\":\"a\"\x7d,\x7b\"key\":\"b\",\"mapping\":\"m\"\x7d]\x7d\x7d]\x7d]\x7d"

/-- Workers of which the generator always makes the same plan and the executor always has the same
output. -/
def working : Workers Unit :=
  { Workers.idle with
    generator := ⟨fun _ _ _ _ ↦ pure (.text "plan")⟩
    executor := ⟨fun _ _ _ ↦ pure (.value (.text "rows"))⟩ }

/-- The session in which that document was set. -/
def variantsSession [Depths] : Session (Recorded Unit) :=
  (after working.server ⟨(), []⟩ [.set "a" variantsText 1]).session

/-- The execution that the document declares. -/
def isSample : Execution Location → Bool
  | .multi (some _) "k" [v, w] => v.key == "a" && w.key == "b" && w.binding.mapping == some "m"
  | _ => false

open Depths in
/-- The project compiles, and the service is declared in it. No work is carried. -/
theorem variantsText_compiles :
    variantsSession.requests.carried.isNone ∧
    (∃ m, (working.server.collaborators.compile variantsSession).1 = .ok (.model m)) ∧
      ∃ sec ∈ variantsSession.workspace.sectionsOf "a", sec.grammar = "Service" ∧
        ∃ e ∈ sec.parse.toList, e.path = "s" ∧ ∃ service l v w, e.service? = some service ∧
          service.execution = some (.multi (some l) "k" [v, w]) ∧
          v.key = "a" ∧ w.key = "b" ∧ w.binding.mapping = some "m" := by
  have h : (variantsSession.requests.carried.isNone &&
      ((working.server.collaborators.compile variantsSession).1.toOption.bind
        Compiled.model?).isSome &&
      (variantsSession.workspace.sectionsOf "a").any fun sec ↦ sec.grammar == "Service" &&
        sec.parse.toList.any fun e ↦ e.path == "s" &&
          (e.service?.any fun service ↦ service.execution.any isSample)) = true := by decide +kernel
  obtain ⟨hleading, hdeclared⟩ := Bool.and_eq_true_iff.1 h
  obtain ⟨hcarried, hcompiles⟩ := Bool.and_eq_true_iff.1 hleading
  refine ⟨hcarried, ?_, ?_⟩
  · rcases hrun : (working.server.collaborators.compile variantsSession).1 with f | r
    · rw [hrun] at hcompiles
      cases hcompiles
    · rw [hrun] at hcompiles
      cases r with
      | model m => exact ⟨m, rfl⟩
      | faulty _ | nothing => cases hcompiles
  · obtain ⟨sec, hsec, hdeclared⟩ := List.any_eq_true.1 hdeclared
    obtain ⟨hgrammar, hdeclared⟩ := Bool.and_eq_true_iff.1 hdeclared
    obtain ⟨e, he, hdeclared⟩ := List.any_eq_true.1 hdeclared
    obtain ⟨hpath, hdeclared⟩ := Bool.and_eq_true_iff.1 hdeclared
    obtain ⟨service, hservice, hdeclared⟩ := (Option.any_eq_true _ _).1 hdeclared
    obtain ⟨x, hx, hdeclared⟩ := (Option.any_eq_true _ _).1 hdeclared
    refine ⟨sec, hsec, beq_iff_eq.1 hgrammar, e, he, beq_iff_eq.1 hpath, ?_⟩
    unfold isSample at hdeclared
    split at hdeclared
    · next l v w =>
      simp only [Bool.and_eq_true, beq_iff_eq] at hdeclared
      exact ⟨service, l, v, w, hservice, hx, hdeclared.1.1, hdeclared.1.2, hdeclared.2⟩
    · cases hdeclared

open Depths in
/-- The second variant is selected by its key: a plan is made with its mapping and executed, and the output is
shown. Without parameters no variant is selected, and null is told. -/
theorem execute_variantsText :
    ∃ e : Element, e.path = "s" ∧
      (∃ spec t r, spec.mapping = some "m" ∧ r.outcome = .success ∧ r.message = "rows" ∧
        working.server.runCommand ⟨"a", none, e.path, Command.executeId, [], [("k", .text "b")]⟩
          variantsSession = (.ok [r], t) ∧
        t.host.calls = variantsSession.host.calls ++ [.generate spec, .execute]) ∧
      ∃ r t, r.message = "Missing multi execution entry for value: " ++ Json.describe .null ∧
        working.server.runCommand ⟨"a", none, e.path, Command.executeId, [], []⟩
          variantsSession = (.ok [r], t) := by
  obtain ⟨hcarried, ⟨m, hm⟩, sec, hsec, hgrammar, e, he, hpath, service, l, v, w, hservice, hexecution, hv, hw,
    hmapping⟩ := variantsText_compiles
  have hs : variantsSession.workspace =
      (after working.server ⟨(), []⟩ [.set "a" variantsText 1]).session.workspace := by
    rw [variantsSession]
  have hexecutes : working.server.Executes (some working.generator)
      (some working.executor) := ⟨rfl, rfl, rfl, rfl⟩
  have hlambda : Capability.declared false sec.grammar e .execute = true := by
    rw [Capability.declared, hgrammar, hservice, Option.any_some, hexecution]
    rfl
  have hfree : ∀ t ∈ variantsSession.requests.carried,
      variantsSession.requests.isCancelled t = false := by
    rw [Option.isNone_iff_eq_none.1 hcarried]
    exact fun t ht ↦ absurd ht (Option.not_mem_none t)
  have hindex : ∀ n ∈ (none : Option Int), n = sec.index := fun n hn ↦ absurd hn (Option.not_mem_none n)
  have hrun := execute_runs_selected hexecutes ⟨(), []⟩ [.set "a" variantsText 1] hs hm hsec he hlambda
    hindex hfree []
  refine ⟨e, hpath, ?_, ?_⟩
  · have hselects : Selects [("k", .text "b")] sec.grammar e
        ⟨some l, w.binding.mapping, w.binding.runtime, w.binding.options⟩ := by
      have hsplit : service.execution = some (.multi (some l) "k" ([v] ++ w :: [])) := hexecution
      refine .variant hgrammar hservice hsplit ?_ ?_
      · rw [hw]
        rfl
      · rw [hw]
        exact fun u hu ↦ by rw [List.mem_singleton.1 hu, hv]; decide
    obtain ⟨-, w', -, -, hall⟩ := (hrun [("k", .text "b")]).2.1 _ hselects
    exact ⟨_, _, _, hmapping, rfl, rfl, hall _ _ _ (.succeeded rfl rfl rfl rfl rfl), rfl⟩
  · have hunselected : Unselected [] sec.grammar e .null := by
      refine .variants hgrammar hservice hexecution fun u _ h ↦ ?_
      cases h
    obtain ⟨w', r, -, -, -, hmessage, hrun⟩ := (hrun []).2.2 _ hunselected
    exact ⟨r, _, hmessage, hrun⟩

end History

end ModelServer
