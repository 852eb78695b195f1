import ModelServer.Grammar.Testable
import ModelServer.Grammar.Executable
import ModelServer.Registration

/-!
# The grammar of services

A service can be executed, tested, tested in the older way, and registered with an execution server.
Its references are those of its execution's bindings, of its header, and, once the project compiled,
those of its compiled form.
-/

namespace ModelServer.ServiceGrammar

variable [Depths]

variable {H : Type}

/-- The suites of a service. -/
def suites : Testable.Suites := fun e ↦
  .ok ((e.service?.map (·.suites)).getD [])

/-- The lambda of a service is that of its execution. -/
def lambda (e : Element) : Option (Lambda Location) :=
  (e.service?.bind (·.execution)).bind (·.func)

/-- The plan of a service is made for the one binding that the parameters choose. -/
def plan (c : Collaborators H) (e : Element) (func : Lambda Location) (m : CompiledModel)
    (ps : InputParameters) : Action H Value :=
  match e.service? with
  | none => .fail (.plain .type (e.path ++ " is not a service"))
  | some service => do
    let spec ← Action.ofExcept (Execution.resolve service.execution (some func) ps)
    let generator ← c.requirePlanGenerator
    spec.plan m generator c.platformExtensions

/-- How services are executed. -/
def execution : ExecutionSupport H where
  lambda e := .ok (lambda e)
  plan := plan

/-! ### Commands -/

/-- Services can be registered where there is an execution server. -/
def canRegister (s : Surroundings H) : Bool :=
  s.collaborators.executionServer.isSome

/-- A service offers to be registered, if it can be, and to run its older test, if it has one. -/
def ownOffers (s : Surroundings H) (e : Element) : Offers :=
  match e.service? with
  | none => .these []
  | some service =>
    .these
      ((if canRegister s then
          [.plain e.path Command.registerId Command.registerTitle e.source] else []) ++
        (if service.legacyTest.isSome then
          [.plain e.path Command.runLegacyTestsId Command.runLegacyTestsTitle e.source] else []))

/-- The commands of an element: to run tests if it has any, and, for a service, to execute it and what
it offers besides. -/
def offers (tests : Testable.Suites) (s : Surroundings H) (e : Element) : Offers :=
  (Testable.offers tests e).andThen
    (match e.service? with
    | none => .these []
    | some _ => (Executable.offers (H := H) execution e).andThen (ownOffers s e))

/-- The first element of that path in the section, if it is a service. -/
def findService (c : Collaborators H) (sec : Section) (path : String) :
    Action H (Option (Element × Service Location)) := do
  return ((← c.parse sec).element? path).bind fun e ↦ e.service?.map (e, ·)

/-- Runs the older test on the runner. -/
def runLegacyOn (c : Collaborators H) (e : Element) (test : LegacyTest Location)
    (m : CompiledModel) : Action H (List LegacyRun) := do
  let runner ← c.requireTestRunner
  runner.runLegacyTests e test m c.platformExtensions

/-- Runs the older test of a service; one result for each assertion. -/
def runLegacyTests (s : Surroundings H) (i : Invocation) : Action H (List Result) := do
  match ← findService s.collaborators i.sec i.path with
  | none => return [.ofElement i.path .error ("Unable to find service " ++ i.path) none]
  | some (e, service) =>
    match service.legacyTest with
    | none =>
      return [.ofElement i.path .error ("Unable to find legacy test for service " ++ i.path)
        e.source]
    | some test =>
      match (← s.collaborators.compile).toExcept with
      | .error f => return [f.result i.path]
      | .ok m =>
        match ← (runLegacyOn s.collaborators e test m).outcome with
        | .error f => return [← Action.ofExcept (Result.ofFault i.path f e.source)]
        | .ok runs => Action.ofExcept (LegacyRun.results (.text i.path) runs e.source)

/-- Registers a service: the whole project is posted, and the answer shown. -/
def register (s : Surroundings H) (i : Invocation) : Action H (List Result) := do
  match ← findService s.collaborators i.sec i.path with
  | none => .fail (.plain .lookup ("Unable to find service " ++ i.path))
  | some (e, _) =>
    let server ← s.collaborators.requireExecutionServer
    let payload ← s.collaborators.serialize (some (Registration.origin (.text i.path)))
    let response ← server.post Registration.path payload
    let shown ← Action.ofExcept (Registration.formatResponse response)
    return [.ofElement i.path .success shown e.source]

/-- Runs a command of a service. -/
def dispatch (tests : Testable.Suites) (s : Surroundings H) (i : Invocation) :
    Action H (List Result) :=
  if i.commandId = Command.runLegacyTestsId then runLegacyTests s i
  else if i.commandId = Command.registerId then register s i
  else Executable.dispatch execution (Testable.dispatch tests) s i

/-! ### References -/

/-- The references of a binding: its mapping, then, where runtimes have an extension, its runtime. -/
def bindingReferences (s : Surroundings H) (b : Binding Location) : List (Option Reference) :=
  Reference.toElement? b.mapping b.mappingSource ::
    (if s.has .runtime then Reference.ofRuntime b.runtime else [])

/-- The references of the bindings of an execution, in order. -/
def executionReferences (s : Surroundings H) :
    Option (Execution Location) → List (Option Reference)
  | some (.single _ b) => bindingReferences s b
  | some (.multi _ _ variants) => variants.flatMap fun v ↦ bindingReferences s v.binding
  | none => []

/-- The references of a service. -/
def references (s : Surroundings H) (e : Element) : List ReferenceSource :=
  match e.service? with
  | some service =>
    [.items (executionReferences s service.execution ++
        Reference.ofStereotypes e.header.stereotypes ++
        Reference.ofTaggedValues e.header.taggedValues),
      .compiled e.path]
  | none => []

/-- An extension that handles services, under a name of its own and with its own way to find tests. -/
def extensionWith (name kind : String) (families : List Family) (tests : Testable.Suites) :
    Extension H where
  name := name
  kind := kind
  families := families
  keywords := ["Service", "import"]
  execution := some execution
  offers := offers tests
  dispatch := dispatch tests
  references := references
  proposals := Completion.services

/-- The extension. -/
def extension : Extension H :=
  extensionWith "Service" "ServiceExtension" [.service] suites

end ModelServer.ServiceGrammar
