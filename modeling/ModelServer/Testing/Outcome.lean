import ModelServer.Result
import ModelServer.Dictionary
import ModelServer.Testing.Selection

/-!
# What became of tests

Test runners report outcomes one by one. Each becomes one result, in the order reported; an outcome
whose name is not known is a warning. The ids a runner reports should be texts; one that is not makes
the whole report a fault.
-/

namespace ModelServer

/-- The message, followed by the trace of the fault that was recorded with it. -/
def withTrace (message : String) : Option Incident → String
  | some i => message ++ "\n" ++ i.trace
  | none => message

/-- What a runner reports of one run of an older test: outcomes by assertion, in order, and the
faults of some of them. An assertion is told from others by its key. -/
structure LegacyRun where
  outcomes : List (Value × Value)
  faults : List (Value × Option Incident)

namespace LegacyRun

/-- One more entry; of two for one assertion the later counts, in the place of the earlier. -/
def put {α : Type} (entries : List (Value × α)) (entry : Value × α) : List (Value × α) :=
  if entries.any fun e ↦ Value.sameKey e.1 entry.1 then
    entries.map fun e ↦ if Value.sameKey e.1 entry.1 then (e.1, entry.2) else e
  else entries ++ [entry]

/-- The entries put one after the other, or the first assertion that can be none. -/
def collect {α : Type} (entries : List (Value × α)) : Except Fault (List (Value × α)) :=
  match entries.find? (·.1.key?.isNone) with
  | some e => .error (Fault.unhashable (Value.typeName e.1))
  | none => .ok (entries.foldl put [])

/-- The report of a run, given its entries one by one; an assertion may be noted to have no fault. -/
def ofEntries (outcomes : List (Value × Value)) (faults : List (Value × Option Incident)) :
    Except Fault LegacyRun := do
  return ⟨← collect outcomes, ← collect faults⟩

/-- The fault recorded for an assertion. -/
def fault? (run : LegacyRun) (assertion : Value) : Option Incident :=
  (run.faults.find? fun f ↦ Value.sameKey f.1 assertion).bind (·.2)

/-- The result of one assertion. -/
def result (path : Value) (location : Option Location) (run : LegacyRun) (entry : Value × Value) :
    Except Fault Result :=
  let name := Value.outcomeName entry.2
  let message := Value.describe path ++ "." ++ Value.describe entry.1 ++ ": " ++ name
  Result.ofIds [path, entry.1] (.ofName name) (withTrace message (run.fault? entry.1)) none location

/-- One result for each assertion of each run. -/
def results (path : Value) (runs : List LegacyRun) (location : Option Location) :
    Except Fault (List Result) :=
  (runs.flatMap fun run ↦ run.outcomes.map (run, ·)).mapM fun e ↦ e.1.result path location e.2

end LegacyRun

/-- What a runner reports of one test, or of one assertion of it. -/
structure TestOutcome where
  suite : Value
  test : Value
  assertion : Option Value
  code : Value
  /-- What there is to say beside, if it is not nothing. -/
  message : Value
  fault : Option Incident

namespace TestOutcome

/-- The texts with dots between them, or the first item that is no text. -/
def joinIds : Nat → List Value → Except Fault (List String)
  | _, [] => .ok []
  | index, .text s :: rest => (joinIds (index + 1) rest).map (s :: ·)
  | index, v :: _ =>
    .error (.plain .type ("sequence item " ++ toString index ++ ": expected str instance, " ++
      Value.typeName v ++ " found"))

/-- Where the test that the outcome is of stands; `fallback` if that is not known. -/
def location (suites : List (TestSuite Location)) (fallback : Option Location)
    (o : TestOutcome) : Option Location :=
  match o.suite, o.test with
  | .text suite, .text test => TestSuite.sourceOf suites suite test <|> fallback
  | _, _ => fallback

/-- The result of one outcome. -/
def result (path : Value) (suites : List (TestSuite Location)) (fallback : Option Location)
    (o : TestOutcome) : Except Fault Result := do
  let name := Value.outcomeName o.code
  let ids := [path, o.suite, o.test] ++ o.assertion.toList
  let joined ← joinIds 0 ids
  let heading := ".".intercalate joined ++ ": " ++ name
  let message := if o.message.isNothing then heading else heading ++ "\n" ++ o.message.describe
  Result.ofIds ids (.ofName name) (withTrace message o.fault) none (o.location suites fallback)

/-- One result for each outcome. -/
def results (path : Value) (suites : List (TestSuite Location)) (outcomes : List TestOutcome)
    (fallback : Option Location) : Except Fault (List Result) :=
  outcomes.mapM (·.result path suites fallback)

end TestOutcome

end ModelServer
