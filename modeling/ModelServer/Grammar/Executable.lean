import ModelServer.Grammar.Extension

/-!
# Elements that can be executed

The lambda of an element is executed in two ways: plainly, which gives its output, and as a table query,
which comes with a token and looks at it before planning, before executing and after. Both go through
`planned`, so that they agree on everything that can stop them before the executor runs.
-/

namespace ModelServer.Executable

variable {H : Type}

/-- An element with a lambda offers to execute it. -/
def offers (x : ExecutionSupport H) (e : Element) : Offers :=
  .ofExcept ((x.lambda e).map fun
    | some _ => [.plain e.path Command.executeId Command.executeTitle e.source]
    | none => [])

/-- The element of that path and a plan of its lambda, or the result that tells why there is no
plan. -/
def planned (x : ExecutionSupport H) (c : Collaborators H) (sec : Section) (path : String)
    (ps : InputParameters) : Action H (Except Result (Element × Value)) := do
  match (← c.parse sec).element? path with
  | none => return .error (.ofElement path .error ("Unable to find entity " ++ path) none)
  | some e =>
    match ← Action.ofExcept (x.lambda e) with
    | none =>
      return .error
        (.ofElement path .error ("Entity " ++ path ++ " has nothing to execute") e.source)
    | some func =>
      match (← c.compile).toExcept with
      | .error f => return .error (f.result path)
      | .ok m =>
        let plan ← x.plan c e func m ps
        return .ok (e, plan)

/-- The result of an execution whose output is shown as the text. -/
def succeeded (path : String) (e : Element) (shown : String) : Result :=
  .ofElement path .success shown e.source

/-- Executes the lambda of an element. -/
def run (x : ExecutionSupport H) (c : Collaborators H) (i : Invocation) :
    Action H (List Result) := do
  match ← planned x c i.sec i.path i.inputParameters with
  | .error r => return [r]
  | .ok (e, plan) =>
    let executor ← c.requirePlanExecutor
    let output ← executor.execute plan i.inputParameters none
    let shown ← Action.ofExcept output.render
    return [succeeded i.path e shown]

/-- A command to execute an element runs it; other commands are left to `otherwise`. -/
def dispatch (x : ExecutionSupport H)
    (otherwise : Surroundings H → Invocation → Action H (List Result)) (s : Surroundings H)
    (i : Invocation) : Action H (List Result) :=
  if i.commandId = Command.executeId then run x s.collaborators i else otherwise s i

/-- The stages of a table query, any of which may end in a fault. -/
def queryStages (x : ExecutionSupport H) (c : Collaborators H) (sec : Section) (path : String)
    (query : Api.TableQuery) (ps : InputParameters) (token : TokenId) : Action H Result := do
  Action.requests (Requests.check token)
  match ← planned x c sec path ps with
  | .error r => return r
  | .ok (e, plan) =>
    Action.requests (Requests.check token)
    let executor ← c.requirePlanExecutor
    let output ← executor.execute plan ps (some (query, token))
    Action.requests (Requests.check token)
    let shown ← Action.ofExcept output.render
    return succeeded path e shown

/-- The result of a query that ended in a fault. A cancelled request leaves no trace. -/
def queryFailed (path : String) (f : Fault) : Except Fault Result :=
  if f.isCancellation then f.wording.map fun text ↦ .ofElement path .error text none
  else Result.ofFault path f none

/-- Executes the lambda of an element as a table query. There is one result, unless the query ended in a
fault that cannot be put into words. -/
def query (x : ExecutionSupport H) (c : Collaborators H) (sec : Section) (path : String)
    (query : Api.TableQuery) (ps : InputParameters) (token : TokenId) : Action H Result := do
  match ← (Action.carrying token (queryStages x c sec path query ps token)).outcome with
  | .ok r => return r
  | .error f => Action.ofExcept (queryFailed path f)

/-- The fault of asking what is not there for a part of it. -/
def lacking (name : String) : Fault :=
  .plain .noAttribute (Fault.noAttribute (Value.typeName .null) name)

/-- A plan generator that asks the model for its elements, where there is no model. -/
def withoutModel (c : Collaborators H) : Collaborators H :=
  { c with
    planGenerator := c.planGenerator.map fun _ ↦ ⟨fun _ _ _ _ ↦ .fail (lacking "elements")⟩ }

/-- The plan of an empty lambda in the place of the element at that path. There need be neither
element nor model as long as nothing is asked of them: the path of an element is told only where its
kind cannot be executed, and its model is looked at only by the plan generator. -/
def planAt (x : Extension H) (c : Collaborators H) (sec : Section) (path : String)
    (ps : InputParameters) : Action H Value := do
  let some support := x.execution
    | .fail (.plain .noAttribute (Fault.noAttribute x.kind "get_execution_plan"))
  let e? := (← c.parse sec).element? path
  let model? := (← c.compile).model?
  let e := e?.getD ⟨⟨path, none, [], []⟩, .mapping⟩
  let m := model?.getD (.ofElements [] [])
  let c := if model?.isSome then c else withoutModel c
  match e?, ← (support.plan c e .empty m ps).outcome with
  | none, .error (.plain .type _) => .fail (lacking "path")
  | _, r => .ofExcept r

end ModelServer.Executable
