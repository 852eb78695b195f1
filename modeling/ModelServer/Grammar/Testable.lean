import ModelServer.Grammar.Extension

/-!
# Elements with tests

What every grammar extension shares: an element with test suites offers to run them, and any command
that nothing else handles is refused with one result.
-/

namespace ModelServer.Testable

variable {H : Type}

/-- How the test suites of an element are found. -/
abbrev Suites := Element → Except Fault (List (TestSuite Location))

/-- No element has tests. -/
def noSuites : Suites := fun _ ↦ .ok []

/-- The argument that names a suite. -/
def suiteArg : String := "testSuite"

/-- The argument that names a test. -/
def testArg : String := "test"

/-- An element with suites offers to run them. -/
def offers (suites : Suites) (e : Element) : Offers :=
  .ofExcept ((suites e).map fun ss ↦
    if ss.isEmpty then []
    else [.plain e.path Command.runTestsId Command.runTestsTitle e.source])

/-- Runs the suites on the runner; one result for each outcome it reports. -/
def runOn (c : Collaborators H) (e : Element) (path : String)
    (suites : List (TestSuite Location)) (m : CompiledModel) : Action H (List Result) := do
  let runner ← c.requireTestRunner
  let outcomes ← runner.runTestSuites e suites m c.platformExtensions
  Action.ofExcept (TestOutcome.results (.text path) suites outcomes e.source)

/-- The id that an argument of a command names, or null. -/
def idGiven (i : Invocation) (argument : String) : Json :=
  ((i.executableArgs.lookup argument).map .text).getD .null

/-- Runs the tests of an element that the arguments choose. -/
def run (suites : Suites) (s : Surroundings H) (i : Invocation) : Action H (List Result) := do
  match (← s.collaborators.parse i.sec).element? i.path with
  | none => return [.ofElement i.path .error ("Unable to find entity " ++ i.path) none]
  | some e =>
    let all ← Action.ofExcept (suites e)
    match TestSuite.select all (idGiven i suiteArg) (idGiven i testArg) with
    | [] => return [.ofElement i.path .error ("Unable to find tests for " ++ i.path) e.source]
    | chosen =>
      match (← s.collaborators.compile).toExcept with
      | .error f => return [f.result i.path]
      | .ok m => runOn s.collaborators e i.path chosen m

/-- Runs the tests, if that is the command, and refuses any other. -/
def dispatch (suites : Suites) (s : Surroundings H) (i : Invocation) : Action H (List Result) :=
  if i.commandId = Command.runTestsId then run suites s i
  else return [.ofElement i.path .error ("Unsupported command: " ++ i.commandId) none]

/-- An extension that knows nothing of its elements but the grammar they are in. -/
def bare (name kind : String) (families : List Family) (keywords : List String) : Extension H where
  name := name
  kind := kind
  families := families
  keywords := keywords
  execution := none
  offers _ := offers noSuites
  dispatch := dispatch noSuites
  references _ _ := []
  proposals _ := []

end ModelServer.Testable
