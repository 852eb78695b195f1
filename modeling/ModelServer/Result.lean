import ModelServer.Api.Record
import ModelServer.Fault
import ModelServer.Value

/-!
# Results

What running a command answers with. A result has a kind, a message, and ids that read from the
outside in: an element, then perhaps a suite, a test, an assertion. There is at least one id, which
is part of the type.
-/

namespace ModelServer

/-- How something ended. -/
inductive Outcome where
  | success
  | failure
  | warning
  | error
  deriving DecidableEq, Repr, Inhabited

namespace Outcome

/-- The word for an outcome. -/
def word : Outcome → String
  | success => "SUCCESS"
  | failure => "FAILURE"
  | warning => "WARNING"
  | error => "ERROR"

/-- The outcome that a word stands for. -/
def ofWord? (s : String) : Option Outcome :=
  [success, failure, warning, error].find? (·.word == s)

/-- The outcome that a name given by a test runner stands for. A name that is not known is kept as a
warning, and is never taken for a success or a failure. -/
def ofName (name : String) : Outcome :=
  if name = "SUCCESS" then success
  else if name = "FAILURE" then failure
  else if name = "ERROR" then error
  else warning

/-- The outcome of a command line that fails. -/
def isFailing : Outcome → Bool
  | failure | error => true
  | success | warning => false

end Outcome

/-- What became of one thing that was run. -/
structure Result where
  ids : List String
  outcome : Outcome
  message : String
  logMessage : Option String
  location : Option Location
  /-- A result belongs to something. -/
  ids_ne_nil : ids ≠ []
  deriving DecidableEq, Repr

namespace Result

/-- A result of one element. -/
def ofElement (path : String) (outcome : Outcome) (message : String)
    (location : Option Location) : Result :=
  ⟨[path], outcome, message, none, location, by simp⟩

/-- The text of each id, or the first that is none. -/
def checkIds : List Value → Except Fault (List String)
  | [] => .ok []
  | .text s :: rest => (checkIds rest).map (s :: ·)
  | v :: _ =>
    .error (.plain .type ("id may not be " ++ Value.typeName v ++ ": " ++ v.inspect))

/-- The texts of a result, or what is wrong with them. -/
def checkTexts (message logMessage : Json) : Schema.Checked (String × Option String) :=
  (((Schema.text message).under (.member "message")).map Prod.mk).seq
    ((Schema.nullable Schema.text logMessage).under (.member "log_message"))

/-- A result with those ids, if it can be one: the ids must be texts and at least one, neither the
outcome nor the message may be absent, and what there is of messages must be texts. -/
def ofParts (ids : List Value) (outcome : Option Outcome) (message logMessage : Json)
    (location : Option Location) : Except Fault Result := do
  let ids ← checkIds ids
  if h : ids = [] then throw (.plain .value "ids may not be empty")
  else
    match outcome, message with
    | none, _ => throw (.plain .type "type is required")
    | _, .null => throw (.plain .type "message is required")
    | some o, message =>
      match checkTexts message logMessage with
      | .ok texts => return ⟨ids, o, texts.1, texts.2, location, h⟩
      | .bad issues => throw (.invalid Api.ResultRecord.title issues)

/-- A result with those ids, if it can be one: the ids must be texts and at least one. -/
def ofIds (ids : List Value) (outcome : Outcome) (message : String) (logMessage : Option String)
    (location : Option Location) : Except Fault Result := do
  let ids ← checkIds ids
  if h : ids = [] then throw (.plain .value "ids may not be empty")
  else return ⟨ids, outcome, message, logMessage, location, h⟩

/-- What a value holds that is given for ids: a text is one id, and the names of a record are its
ids. -/
def idsOf : Value → Except Fault (List Value)
  | .text s => .ok [.text s]
  | .list items => .ok items
  | .record members => .ok (members.map fun m ↦ .text m.1)
  | v => .error (.plain .type ("'" ++ Value.typeName v ++ "' object is not iterable"))

/-- As `idsOf`, where one id alone must stand in a list too. -/
def listedIdsOf : Value → Except Fault (List Value)
  | .null => .error (.plain .type "ids may not be None")
  | .text s =>
    .error (.plain .type
      ("ids must be a sequence of strings, not a bare string: " ++ Text.quoted s))
  | v => idsOf v

/-- The message that tells of a fault with that text. -/
def messageOf (text : String) : String :=
  if text.isEmpty then "Error" else text

/-- The result that tells of a fault with that text. -/
def telling (path text trace : String) (location : Option Location) : Result :=
  ⟨[path], .error, messageOf text, some trace, location, by simp⟩

/-- The result that tells of a fault under the given ids; `message`, unless it is null, goes before the
fault's own, which is then not asked for. -/
def ofIncidentUnder (ids : List Value) (i : Incident) (message : Json)
    (location : Option Location) : Except Fault Result := do
  let message ←
    if message.isNull then i.fault.wording.map fun text ↦ .text (messageOf text) else pure message
  ofParts ids (some .error) message (.text i.trace) location

/-- The result that tells of a fault just raised. There is none for a fault without a text: the fault
that asking for it ends in comes instead. -/
def ofFault (path : String) (f : Fault) (location : Option Location) : Except Fault Result :=
  f.wording.map fun text ↦ telling path text (Incident.raised f).trace location

/-- The log message; where there is none, the message, if that is asked for. -/
def log (r : Result) (fallBack : Bool) : Option String :=
  match r.logMessage with
  | some m => some m
  | none => if fallBack then some r.message else none

/-- The text form of a result. -/
def describe (r : Result) : String :=
  let ids := ", ".intercalate (r.ids.map fun i ↦ "\"" ++ i ++ "\"")
  let location := match r.location with
    | some l => l.describe
    | none => "None"
  "ExecutionResult\x7bids=[" ++ ids ++ "] type=" ++ r.outcome.word ++ " location=" ++ location ++
    "\x7d"

/-- The record that clients get of a result. -/
def record (r : Result) : Api.ResultRecord :=
  ⟨r.ids, r.outcome.word, r.message, r.logMessage, r.location.map .ofLocation⟩

/-- The JSON that clients get of a result. -/
def toJson (r : Result) : Json :=
  r.record.toJson

end Result

end ModelServer
