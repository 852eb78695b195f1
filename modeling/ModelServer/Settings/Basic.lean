import ModelServer.Toml.Reader
import ModelServer.Number.Entered
import ModelServer.Text.Blank
import ModelServer.Text.Lines
import ModelServer.Fault

/-!
# Settings

What a server is told when it starts: where its execution server is, how long to wait for it, and what
is to be loaded for its collaborators. Settings are read from a file and the environment. A file that is
missing, that cannot be opened, or that is no well-formed document says nothing; and neither does an
entry of the wrong kind.

Three faults remain: octets that are no text, an integer of too many digits, and a limit on waiting that
is too large for a double.
-/

namespace ModelServer

/-- What a server asks of a collaborator that is loaded. -/
inductive Role where
  | planGenerator
  | planExecutor
  | testRunner
  deriving DecidableEq, Repr

namespace Role

/-- The name of a role in settings. -/
def key : Role → String
  | planGenerator => "plan_generator"
  | planExecutor => "plan_executor"
  | testRunner => "test_runner"

/-- All roles, in the order in which collaborators are loaded. -/
def all : List Role :=
  [planGenerator, planExecutor, testRunner]

end Role

/-- What is found where a file should be. -/
inductive FileContent where
  | missing
  /-- The path is too long to be looked up. -/
  | tooLong
  | directory
  /-- A file that may not be read. -/
  | closed
  | octets (bs : List UInt8)
  deriving DecidableEq, Repr

/-- The text of the octets of a file, each of its lines ended by a line feed. -/
def FileContent.decode (bs : List UInt8) : Except Fault String :=
  ((Text.Utf8.decode bs).mapError .undecodable).map fun s ↦
    String.ofList (Text.unifyNewlines s.toList)

/-- What a server is told when it starts. -/
structure Settings where
  engineUrl : Option String
  /-- How many seconds to wait for the execution server. -/
  timeout : Option Binary64
  /-- What is to be loaded for each role that is to be filled. -/
  collaborators : List (Role × String)
  deriving DecidableEq, Repr

namespace Settings

/-- The name of the file in which settings are kept. -/
def fileName : String := "conduit.toml"

/-- The variable of the environment that overrides the address of the execution server. -/
def urlVariable : String := "CONDUIT_ENGINE_URL"

/-- Nothing is told. -/
def empty : Settings :=
  ⟨none, none, []⟩

/-- There is an execution server. -/
def hasEngine (s : Settings) : Bool :=
  s.engineUrl.any (!·.isEmpty)

/-- What is to be loaded for the role of that name. -/
def spec? (s : Settings) (key : String) : Option String :=
  (s.collaborators.find? (·.1.key == key)).map (·.2)

/-- The members of a document. -/
abbrev Table := List (String × Toml.Value)

/-- The members that the content of a file has. -/
def tableOf [Depths] : FileContent → Except Fault Table
  | .missing | .tooLong | .directory | .closed => .ok []
  | .octets bs => do
    let text ← FileContent.decode bs
    match Toml.read text.toList with
    | .ok members => return members
    | .error .malformed => return []
    | .error (.tooLong digits) => throw (.plain .value (Text.tooLongMessage digits))
    | .error .tooDeep => throw Fault.tooDeep

/-- The members of the table of that name; none if there is no such table. -/
def subtable (name : String) (t : Table) : Table :=
  match t.lookup name with
  | some (.record members) => members
  | _ => []

/-- An address in its normal form, without blanks around it and slashes at its end; `none` if nothing
is left. -/
def url? (s : String) : Option String :=
  let normal := Text.trimSlashes (Text.trim s)
  if normal.isEmpty then none else some normal

/-- The address that a value gives. -/
def urlOf : Option Toml.Value → Option String
  | some (.text s) => url? s
  | _ => none

/-- A limit must be greater than zero. -/
def positive (x : Binary64) : Option Binary64 :=
  if x.isPositive then some x else none

/-- The limit that a value gives. -/
def timeoutOf : Option Toml.Value → Except Fault (Option Binary64)
  | some (.int n) =>
    if 0 < n then
      match Binary64.ofInt? n with
      | some x => .ok (some x)
      | none => .error (.plain .overflow "int too large to convert to float")
    else .ok none
  | some (.float x) => .ok (positive x)
  | some (.text s) => .ok ((Entered.double? s).bind positive)
  | _ => .ok none

/-- What a value says is to be loaded. -/
def specOf : Option Toml.Value → Option String
  | some (.text s) =>
    let spec := Text.trim s
    if spec.isEmpty then none else some spec
  | _ => none

/-- The settings that a file and the environment give. The address in the environment goes first. -/
def read [Depths] (file : FileContent) (environment : String → Option String) :
    Except Fault Settings := do
  let table ← tableOf file
  let engine := subtable "engine" table
  let collaborators := subtable "collaborators" table
  let timeout ← timeoutOf (engine.lookup "timeout_seconds")
  return {
    engineUrl := (environment urlVariable).bind url? <|> urlOf (engine.lookup "url")
    timeout
    collaborators := Role.all.filterMap fun r ↦
      (specOf (collaborators.lookup r.key)).map (r, ·) }

end Settings

end ModelServer
