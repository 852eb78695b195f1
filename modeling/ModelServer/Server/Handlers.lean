import ModelServer.Server.Routing

/-!
# Answering clients

The requests that clients send as commands: to run a command, to query a table, to cancel a query. The
payload of a request is any JSON value. One that is no record, or a list of one record, is a broken
invariant; one that does not fit the schema is answered with what is wrong with it.

The server itself may fail to start, so handlers take it as a value that may be a fault, and look at it
only when they need it.
-/

namespace ModelServer.Server

open Schema

variable {H : Type}

/-- The name of the type of a payload. -/
def payloadType (v : Json) : String :=
  v.typeName fun e ↦ nomatch e

/-- The payload, taken out of a list that holds nothing else. -/
def unwrap : Json → Json
  | .list [v] => v
  | v => v

/-- The members of the payload of a request. -/
def payloadMembers (request : String) (payload : Json) : Except Fault Members :=
  match unwrap payload with
  | .record ms => .ok ms
  | .null =>
    .error (.invariant "missing command payload" [("command", .data (.text request))])
  | v =>
    .error (.invariant "invalid command payload type"
      [("command", .data (.text request)), ("payload_type", .data (.text (payloadType v)))])

/-- The answer that holds results. -/
def resultsJson (results : List Result) : Json :=
  .record [("results", .list (results.map (·.toJson)))]

/-- What a payload that does not fit is about: the element it names, if it names one. -/
def subjectOf (payload : Members) : String :=
  match Data.lookup "entity_path" payload with
  | some (.text path) => if path.isEmpty then "request" else path
  | _ => "request"

/-- The answer to a payload that does not fit. -/
def refusal (title : String) (payload : Members) (issues : List Issue) : Json :=
  resultsJson [.ofElement (subjectOf payload) .error (describe title issues) none]

/-- Answers a request to run a command. -/
def executeCommand (server : Except Fault (Server H)) (payload : Json) : Action H Json := do
  let ms ← Action.ofExcept (payloadMembers Command.executeRequest payload)
  match Api.ExecuteRequest.reader (.record ms) with
  | .bad issues => return refusal Api.ExecuteRequest.title ms issues
  | .ok r =>
    let v ← Action.ofExcept server
    return resultsJson (← v.runCommand r)

/-- The one result of a table query, which is running under its id as long as it is answered. An id
that is in use already is an error of this query alone. -/
def tableResult (server : Except Fault (Server H)) (r : Api.TableRequest) : Action H Result := do
  let answered := Action.running (.text r.requestId) fun token ↦ do
    let v ← Action.ofExcept server
    v.runTableQuery r token
  match ← answered.outcome with
  | .ok result => return result
  | .error (.alreadyRunning id) =>
    return .ofElement r.entityPath .error (Fault.message (.alreadyRunning id)) none
  | .error f => .fail f

/-- Answers a table query. -/
def executeTableRequest (server : Except Fault (Server H)) (payload : Json) : Action H Json := do
  let ms ← Action.ofExcept (payloadMembers Command.tableRequest payload)
  match Api.TableRequest.reader (.record ms) with
  | .bad issues => return refusal Api.TableRequest.title ms issues
  | .ok r => return resultsJson [← tableResult server r]

/-- Answers a request to cancel another. -/
def cancelRequest (payload : Json) : Action H Json := do
  let ms ← Action.ofExcept (payloadMembers Command.cancelRequest payload)
  match Api.CancelRequest.reader (.record ms) with
  | .bad issues =>
    return .record [("errors", .list [.text (describe Api.CancelRequest.title issues)])]
  | .ok r =>
    let cancelled ← Action.requests (Requests.cancel (.text r.requestId))
    return (Api.CancelReply.mk r.requestId cancelled).toJson

end ModelServer.Server
