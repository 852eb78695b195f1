import ModelServer.Session.Requests
import ModelServer.Workspace.State
import ModelServer.Testing.Outcome
import ModelServer.Api.Request

/-!
# Actions

What the server does is a change of its session: the workspace, the requests that are running, and
the state `H` of whoever hosts it, in which collaborators keep what is theirs. An action may end in a
fault; what it changed before stays changed.

`carrying` and `running` are the two scopes of the server, and both are left behind in whatever way
the work inside them ends.
-/

namespace ModelServer

/-- All that the server and its collaborators remember. -/
structure Session (H : Type) where
  workspace : Workspace
  requests : Requests
  host : H

/-- A change of the session that gives a value or ends in a fault. -/
abbrev Action (H : Type) := ExceptT Fault (StateM (Session H))

namespace Action

variable {H : Type} {α : Type}

/-- Ends in a fault. -/
def fail (f : Fault) : Action H α := fun s ↦ (.error f, s)

/-- The value, or the fault. -/
def ofExcept : Except Fault α → Action H α
  | .ok a => pure a
  | .error f => fail f

/-- What the action ends in, as a value. -/
def outcome (act : Action H α) : Action H (Except Fault α) := fun s ↦
  let (r, s') := act s
  (.ok r, s')

/-- The workspace as it is. -/
def workspace : Action H Workspace := fun s ↦ (.ok s.workspace, s)

/-- Changes the workspace. -/
def modifyWorkspace (f : Workspace → Workspace) : Action H Unit := fun s ↦
  (.ok (), { s with workspace := f s.workspace })

/-- Changes the requests. -/
def requests (change : Requests.Change α) : Action H α := fun s ↦
  let (r, requests) := change s.requests
  (r, { s with requests })

/-- Changes the state of the host. -/
def modifyHost (f : H → H) : Action H Unit := fun s ↦ (.ok (), { s with host := f s.host })

/-- Does the work with the token carried, and carries what was carried before again. -/
def carrying (token : TokenId) (work : Action H α) : Action H α := fun s ↦
  let before := s.requests.carried
  let (r, s') := work { s with requests := { s.requests with carried := some token } }
  (r, { s' with requests := s'.requests.restore before })

/-- Does the work of a request, which is running as long as the work is done. -/
def running (id : RequestId) (work : TokenId → Action H α) : Action H α := fun s ↦
  match Requests.start id s.requests with
  | (.error f, requests) => (.error f, { s with requests })
  | (.ok token, requests) =>
    let (r, s') := work token { s with requests }
    (r, { s' with requests := s'.requests.finish id })

end Action

end ModelServer
