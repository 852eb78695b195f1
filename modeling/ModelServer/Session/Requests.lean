import ModelServer.Session.Token
import ModelServer.Dictionary

/-!
# Requests that are running

The registry of a server knows the token of each request that is running; a request has at most one.
Beside it stands the token that the work being done now carries, if it carries one.

Tokens are kept in the order of their making and are named by their number, so that one token can be
held in several places and a request whose id is used again gets another token.
-/

namespace ModelServer

/-- The number of a token. -/
abbrev TokenId := Nat

/-- The tokens that were made, the requests that are running, and the token that is carried. -/
structure Requests where
  tokens : List Token
  /-- The tokens of the requests that are running, by what tells the requests' ids apart. -/
  live : List (Key Empty × TokenId)
  carried : Option TokenId
  /-- The marks that callbacks left, in order. -/
  marks : List String
  deriving Repr, Inhabited

/-- A change of the requests that may fail; what was changed before a failure stays. -/
abbrev Requests.Change := ExceptT Fault (StateM Requests)

namespace Requests

/-- No request. -/
def empty : Requests :=
  ⟨[], [], none, []⟩

/-- The token of that number. -/
def token (r : Requests) (id : TokenId) : Token :=
  r.tokens[id]?.getD (.new "")

/-- The token is cancelled. -/
def isCancelled (r : Requests) (id : TokenId) : Bool :=
  (r.token id).cancelled

/-- The token of the request, if it is running. -/
def live? (r : Requests) (id : RequestId) : Option TokenId :=
  id.key?.bind fun key ↦ r.live.lookup key

/-- The request is running. -/
def isLive (r : Requests) (id : RequestId) : Bool :=
  (r.live? id).isSome

/-- Does something to a token. -/
def onToken (id : TokenId) (f : Token → Trail × Token) : Change Unit := fun r ↦
  let (trail, t) := f (r.token id)
  let r' := { r with tokens := r.tokens.set id t, marks := r.marks ++ trail.labels }
  match trail.fault with
  | some fault => (.error fault, r')
  | none => (.ok (), r')

/-- The fault of a token that would stand for no request. -/
def anonymous : Fault :=
  .invariant "cancellation token requires a request id" []

/-- The key of an id, or the fault of its having none. -/
def keyOf (id : RequestId) : Except Fault (Key Empty) :=
  match id.key? with
  | some key => .ok key
  | none => .error (Fault.unhashable (Data.typeName (fun e ↦ nomatch e) id))

/-- Makes a token for a request. -/
def newToken (id : RequestId) : Change TokenId := fun r ↦
  if id.isNothing then (.error anonymous, r)
  else (.ok r.tokens.length, { r with tokens := r.tokens ++ [.new id.render] })

/-- A request starts: it gets a token, unless one of the same id is running. -/
def start (id : RequestId) : Change TokenId := fun r ↦
  if id.isNothing then (.error anonymous, r)
  else
    match keyOf id with
    | .error f => (.error f, r)
    | .ok key =>
      if r.isLive id then (.error (.alreadyRunning id), r)
      else
        (.ok r.tokens.length,
          { r with
            tokens := r.tokens ++ [.new id.render]
            live := Dictionary.put key r.tokens.length r.live })

/-- A request ends, in whatever way. -/
def finish (id : RequestId) (r : Requests) : Requests :=
  match id.key? with
  | some key => { r with live := Dictionary.erase key r.live }
  | none => r

/-- Cancels the token. -/
def cancelToken (id : TokenId) : Change Unit :=
  onToken id Token.cancel

/-- Registers a callback on a token. -/
def onCancel (id : TokenId) (callback : Routine) : Change Unit :=
  onToken id (Token.onCancel callback)

/-- Stops work whose token is cancelled. -/
def check (id : TokenId) : Change Unit := fun r ↦ ((r.token id).check, r)

/-- Whether the request of that id is running. -/
def contains (id : RequestId) : Change Bool := fun r ↦
  ((keyOf id).map fun _ ↦ r.isLive id, r)

/-- Cancels the request of that id; `false` if none is running. -/
def cancel (id : RequestId) : Change Bool := fun r ↦
  match keyOf id, r.live? id with
  | .error f, _ => (.error f, r)
  | .ok _, none => (.ok false, r)
  | .ok _, some t =>
    match cancelToken t r with
    | (.ok _, r') => (.ok true, r')
    | (.error f, r') => (.error f, r')

/-- Makes the token the carried one; the answer is what was carried before. -/
def carry (id : Option TokenId) : Change (Option TokenId) := fun r ↦
  match id with
  | none => (.error (.invariant "cancellation carrier missing" []), r)
  | some t => (.ok r.carried, { r with carried := some t })

/-- Makes what was carried before the carried token again. -/
def restore (before : Option TokenId) (r : Requests) : Requests :=
  { r with carried := before }

/-- Stops work if the carried token is cancelled. -/
def checkCarried : Change Unit := fun r ↦
  match r.carried with
  | some t => check t r
  | none => (.ok (), r)

end Requests

end ModelServer
