import ModelServer.Registration
import ModelServer.Session.Collaborator
import ModelServer.Text.Authority
import ModelServer.Text.Url

/-!
# The client of an execution server

Posting a value is one exchange over the wire. The exchange itself is an action that the client is
given (`Wire`); what is sent, and what each kind of answer means, is decided here. Each call of `post`
makes at most one exchange, and makes none if the address is none.
-/

namespace ModelServer.Registration

/-- What is sent. -/
structure Post where
  url : String
  body : String
  /-- How long to wait for the answer, if there is a limit. -/
  timeout : Option Json
  deriving Repr

/-- The method by which values are sent. -/
def Post.method : String := "POST"

/-- What is told of the value beside it. -/
def Post.headers : List (String × String) :=
  [("Accept", "application/json"), ("Content-type", "application/json")]

/-- What comes back. -/
inductive Reply where
  | answer (octets : List UInt8)
  /-- The server answers with an error, and perhaps with octets that tell more. -/
  | refused (code : Int) (reason : String) (octets : Option (List UInt8))
  | unreachable (reason : String)
  deriving Repr

/-- The exchange of a post for a reply. -/
abbrev Wire (H : Type) := Post → Action H Reply

/-- A client: where its server is, and how long it waits. -/
structure Client where
  baseUrl : String
  timeout : Option Json
  deriving Repr

namespace Client

/-- The client of the server at that address; slashes at its end do not count. -/
def new (url : String) (timeout : Option Json) : Client :=
  ⟨Text.trimSlashes url, timeout⟩

/-- The text form of a client. -/
def describe (c : Client) : String :=
  "ExecutionServerClient(" ++ Text.quoted c.baseUrl ++ ")"

/-- Where values are posted under a path. -/
def url (c : Client) (path : String) : String :=
  c.baseUrl ++ "/" ++ Text.dropSlashes path

/-- The post of a value under a path. -/
def request (c : Client) (path : String) (payload : Json) : Except Fault Post :=
  match Url.read (c.url path) with
  | .ok address =>
    match Url.Authority.check address with
    | .ok _ => .ok ⟨address, Json.compact payload, c.timeout⟩
    | .error refusal => .error (.plain .value refusal.message)
  | .error text => .error (.plain .value ("unknown url type: " ++ Text.quoted text))

/-- What a reply to a post at `url` means: the text that was asked for, or why there is none. -/
def interpret (url : String) : Reply → Except Fault String
  | .answer octets => (Text.Utf8.decode octets).mapError .undecodable
  | .refused code reason none => .error (.silent (.status code reason))
  | .refused code reason (some octets) =>
    .error (.server ("Execution server returned " ++ toString code ++ " for " ++ url) (some code)
      (Text.Utf8.decodeLossy octets) (some (.status code reason)))
  | .unreachable reason =>
    .error (.server ("Unable to reach execution server at " ++ url ++ ": " ++ reason) none ""
      (some (.unreachable reason)))

variable {H : Type}

/-- Posts a value under a path. -/
def post (c : Client) (wire : Wire H) (path : String) (payload : Json) : Action H String := do
  let p ← Action.ofExcept (c.request path payload)
  let reply ← wire p
  Action.ofExcept (interpret (c.url path) reply)

/-- The execution server that the client stands for. -/
def server (c : Client) (wire : Wire H) : ExecutionServer H :=
  ⟨c.post wire⟩

end Client

end ModelServer.Registration
