import ModelServer.Json.Key
import ModelServer.Json.Reader
import ModelServer.Schema.Issue
import ModelServer.Source.Location
import ModelServer.Text.Utf8

/-!
# Faults

Everything that can go wrong while a request is handled, by its cause. `Fault.message` is the one
place where causes are put into words, and `Incident.trace` the one place where a fault is written
with what led to it.

What a collaborator raises may be of a kind that nobody else knows (`Kind.other`), and may have no text
at all: to ask for the text of a `mute` fault ends in another fault. So whoever tells of a fault in words
has to ask for its `wording`, and may fail in turn.

A fault that is only recorded, as the error of a section that does not parse, differs in its trace
from one that was raised; an `Incident` keeps the two apart.
-/

namespace ModelServer

/-- The id under which a client sent a request. It should be a text, and may be any value. -/
abbrev RequestId := Json

namespace RequestId

/-- The id as a text. -/
def render (id : RequestId) : String :=
  Json.describe id

/-- An id that identifies nothing. -/
def isNothing (id : RequestId) : Bool :=
  Data.isBlank (fun e ↦ nomatch e) id

end RequestId

/-- A value that is told along with a broken invariant. -/
inductive Detail where
  | data (v : Json)
  | position (p : Position)
  deriving Repr

/-- What went wrong between the server and the execution server. -/
inductive ServerCause where
  /-- It answered with an error. -/
  | status (code : Int) (reason : String)
  /-- It could not be reached. -/
  | unreachable (reason : String)
  deriving DecidableEq, Repr

/-- Kinds of faults that are told apart by name only. -/
inductive Kind where
  | runtime
  | value
  | type
  | lookup
  | assertion
  | noAttribute
  | notImplemented
  | overflow
  | recursion
  | system
  | permission
  /-- One that only a collaborator knows, by its full name; a request may be cancelled by it. -/
  | other (name : String) (cancels : Bool)
  deriving DecidableEq, Repr

/-- Something that went wrong. -/
inductive Fault where
  /-- An invariant that should always hold does not. -/
  | invariant (reason : String) (details : List (String × Detail))
  /-- No variant of an execution has the value found under its key. -/
  | unmatchedKey (key : String) (value : Json)
  | cancelled (request : String)
  | alreadyRunning (request : RequestId)
  /-- The execution server refused or failed a request. -/
  | server (message : String) (status : Option Int) (body : String) (cause : Option ServerCause)
  /-- The execution server failed a request and sent nothing to tell why. -/
  | silent (cause : ServerCause)
  /-- A section, or the project, has no compiled form. -/
  | uncompiled (message : String) (location : Option Location)
  /-- What should do the work is not configured. -/
  | unconfigured (collaborator : String)
  /-- A value does not fit the schema of the named kind of record. -/
  | invalid (title : String) (issues : List Schema.Issue)
  | undecodable (fault : Text.Utf8.Fault)
  | unencodable (gap : Text.Utf8.Gap)
  /-- A text is no JSON, or exceeds a limit of what is read. -/
  | unreadable (fault : Json.Fault)
  | plain (kind : Kind) (message : String)
  /-- It cannot be put into words: to ask for its text ends in that other fault. Its kind may be one that
  tells of a cancelled request. -/
  | mute (kind : Kind) (inner : Fault)
  deriving Repr

instance : Inhabited Fault := ⟨.plain .runtime ""⟩

namespace ServerCause

def name : ServerCause → String
  | status _ _ => "urllib.error.HTTPError"
  | unreachable _ => "urllib.error.URLError"

def message : ServerCause → String
  | status code reason => "HTTP Error " ++ toString code ++ ": " ++ reason
  | unreachable reason => "<urlopen error " ++ reason ++ ">"

end ServerCause

/-- The full name of a kind. -/
def Kind.name : Kind → String
  | runtime => "RuntimeError"
  | value => "ValueError"
  | type => "TypeError"
  | lookup => "LookupError"
  | assertion => "AssertionError"
  | noAttribute => "AttributeError"
  | notImplemented => "NotImplementedError"
  | overflow => "OverflowError"
  | recursion => "RecursionError"
  | system => "OSError"
  | permission => "PermissionError"
  | other name _ => name

/-- A fault of this kind tells that a request was cancelled. -/
def Kind.cancels : Kind → Bool
  | other _ cancels => cancels
  | _ => false

namespace Fault

/-- The full name under which a fault is told. -/
def name : Fault → String
  | invariant _ _ => "conduit.exceptions.NeverThrown"
  | unmatchedKey _ _ => "conduit.exceptions.UnmatchedExecutionKey"
  | cancelled _ => "conduit.exceptions.RequestCancelled"
  | alreadyRunning _ => "conduit.exceptions.RequestAlreadyRunning"
  | server _ _ _ _ => "conduit.exceptions.ExecutionServerError"
  | silent _ => Kind.noAttribute.name
  | uncompiled _ _ => "conduit.exceptions.CompileError"
  | unconfigured _ => "conduit.exceptions.CollaboratorMissing"
  | invalid _ _ => "pydantic_core._pydantic_core.ValidationError"
  | undecodable _ => "UnicodeDecodeError"
  | unencodable _ => "UnicodeEncodeError"
  | unreadable fault =>
    if fault.isDepth then Kind.recursion.name
    else if fault.kind.hasPlace then "json.decoder.JSONDecodeError"
    else Kind.value.name
  | plain kind _ | mute kind _ => kind.name

/-- The wording for something that is asked of a value of a type that does not have it. -/
def noAttribute (typeName name : String) : String :=
  "'" ++ typeName ++ "' object has no attribute '" ++ name ++ "'"

/-- The fault of a value that is nested too deep. -/
def tooDeep : Fault :=
  .plain .recursion "maximum recursion depth exceeded"

/-- The fault of a path that is too long to be looked up. -/
def pathTooLong (path : String) : Fault :=
  .plain .system ("[Errno 36] File name too long: " ++ Text.quoted path)

/-- The fault of a file that may not be read. -/
def denied (path : String) : Fault :=
  .plain .permission ("[Errno 13] Permission denied: " ++ Text.quoted path)

/-- What a trace shows in the place of a text that cannot be had. -/
def textless : String := "<exception str() failed>"

/-- The fault of a value that is looked up under and has no key. -/
def unhashable (typeName : String) : Fault :=
  .plain .type ("unhashable type: '" ++ typeName ++ "'")

/-- The text of a fault as a trace shows it. -/
def message : Fault → String
  | invariant reason _ => if reason.isEmpty then "never() marker reached" else reason
  | unmatchedKey _ value =>
    "Missing multi execution entry for value: " ++ Json.describe value
  | cancelled request => "Request cancelled: " ++ request
  | alreadyRunning request => "Request already running: " ++ request.render
  | server message _ _ _ => message
  | silent _ => noAttribute "str" "decode"
  | uncompiled message _ => message
  | unconfigured collaborator => "No " ++ collaborator ++ " is configured"
  | invalid title issues => Schema.describe title issues
  | undecodable fault => fault.message
  | unencodable gap => gap.message
  | unreadable fault => fault.message
  | plain _ message => message
  | mute _ _ => textless

/-- The text of a fault, or the fault that asking for it ends in. -/
def wording : Fault → Except Fault String
  | mute _ inner => .error inner
  | f => .ok f.message

/-- The fault that the marker of a place never reached raises. The reason is its one argument, or is
given by name; what else is given by name is told along. -/
def ofNever (args : List Json) (named : Members) : Fault :=
  match args, named.lookup "reason" with
  | _ :: _ :: _, _ =>
    .plain .type ("never() takes from 0 to 1 positional arguments but " ++
      toString args.length ++ " were given")
  | [_], some _ => .plain .type "never() got multiple values for argument 'reason'"
  | _, reason? =>
    let reason := args.head?.getD (reason?.getD .null)
    .invariant (if Data.isBlank (fun e ↦ nomatch e) reason then "" else Json.describe reason)
      ((Dictionary.erase "reason" named).map fun m ↦ (m.1, .data m.2))

/-- What the server failed by, if that is what led to the fault. -/
def cause? : Fault → Option ServerCause
  | server _ _ _ cause => cause
  | silent cause => some cause
  | _ => none

/-- A cancelled request. -/
def isCancellation : Fault → Bool
  | cancelled _ => true
  | plain kind _ | mute kind _ => kind.cancels
  | _ => false

end Fault

/-! ### Traces -/

/-- What a trace tells of one fault. -/
structure Account where
  name : String
  text : String
  /-- The lines for the calls that it came through; none if it was never raised. -/
  calls : Option (List String)
  /-- What was noted about it. -/
  notes : List String
  deriving Repr

namespace Account

/-- The name, and the text if there is one. -/
def headline (a : Account) : String :=
  if a.text.isEmpty then a.name else a.name ++ ": " ++ a.text

/-- The lines that tell of a fault; those of one that was raised start with a heading. -/
def lines (a : Account) : List String :=
  let told := a.headline :: a.notes
  match a.calls with
  | some calls => "Traceback (most recent call last):" :: (calls ++ told)
  | none => told

end Account

/-- How a fault came of the one before it. -/
inductive Link where
  /-- It tells of it. -/
  | cause
  /-- It arose while that was seen to. -/
  | context
  deriving DecidableEq, Repr

/-- The line between the two. -/
def Link.words : Link → String
  | cause => "The above exception was the direct cause of the following exception:"
  | context => "During handling of the above exception, another exception occurred:"

/-- A fault, with all that a trace tells besides. -/
structure Incident where
  fault : Fault
  /-- What led to it, from the first on, and how the next came of each. -/
  earlier : List (Account × Link)
  /-- The lines for the calls that it came through; none if it was never raised. -/
  calls : Option (List String)
  /-- What was noted about it. -/
  notes : List String
  deriving Repr

namespace Incident

/-- The calls of a fault that is met where it was raised are not told one by one. -/
def elided : List String := ["  ..."]

/-- What is known to have led to a fault. -/
def leadingTo (f : Fault) : List (Account × Link) :=
  f.cause?.toList.map fun c ↦
    (⟨c.name, c.message, some elided, []⟩, match f with | .silent _ => .context | _ => .cause)

/-- A fault that was just raised. -/
def raised (f : Fault) : Incident := ⟨f, leadingTo f, some elided, []⟩

/-- A fault that was made to be kept. -/
def kept (f : Fault) : Incident := ⟨f, leadingTo f, none, []⟩

/-- What is told of the fault itself. -/
def own (i : Incident) : Account := ⟨i.fault.name, i.fault.message, i.calls, i.notes⟩

/-- The lines of a trace: what led to the fault, in the order in which it came about, and the fault. -/
def lines (i : Incident) : List String :=
  (i.earlier.flatMap fun e ↦ e.1.lines ++ ["", e.2.words, ""]) ++ i.own.lines

/-- The full account of a fault, after that of what led to it. -/
def trace (i : Incident) : String :=
  String.join (i.lines.map (· ++ "\n"))

end Incident

end ModelServer
