import ModelServer.CommandLine.Invocation
import ModelServer.CommandLine.Pairs
import ModelServer.CommandLine.Path
import ModelServer.Server.Start

/-!
# Running a command line

An invocation starts a server, opens the documents it names, asks the server, and reports. What is
printed, and with which status the program ends, is a value (`Report`); nothing is printed here.

The server and its answers are the ones that clients get: what is printed for `execute` is the record of
each result of `Server.runCommand`.
-/

namespace ModelServer.CommandLine

variable [Depths]

/-- What an invocation runs in. -/
structure Shell (H : Type) where
  environment : Environment H
  /-- The directory that paths start at. -/
  directory : String
  /-- What is found under a path. -/
  file : String → FileContent

/-- What a command line comes to. -/
inductive Report where
  /-- The program ends with a status and has printed something. -/
  | finished (status : Nat) (output errors : String)
  /-- The program goes on to serve an editor. -/
  | serving (endpoint : Endpoint)
  | refused (usage : Usage)
  | failed (fault : Fault)
  deriving Repr

/-- Work that may end early. -/
abbrev Run (H α : Type) := ExceptT Stop (StateM (Session H)) α

namespace Run

variable {H α : Type}

/-- Work that a server does. -/
def ofAction (act : Action H α) : Run H α := fun s ↦
  let (r, s') := act s
  (r.mapError .fault, s')

/-- What can be a fault. -/
def ofExcept : Except Fault α → Run H α
  | .ok a => pure a
  | .error f => throw (.fault f)

/-- What can end early. -/
def ofStop : Except Stop α → Run H α
  | .ok a => pure a
  | .error stop => throw stop

/-- What can be of no use. -/
def ofUsage : Except Usage α → Run H α
  | .ok a => pure a
  | .error u => throw (.usage u)

end Run

/-- A value on its own lines. -/
def printed (v : Json) : String :=
  Json.pretty v ++ "\n"

variable {H : Type}

namespace Shell

/-- Where the settings are. -/
def settingsPath (s : Sources) : String :=
  match s.config with
  | some path => Path.plain path
  | none => Path.join s.root Settings.fileName

/-- All files that are looked at: that of the settings, and those of the documents. -/
def pathsOf (s : Sources) : List String :=
  settingsPath s :: s.paths.map Path.plain

/-- The id of the document in a file. -/
def documentId (sh : Shell H) (path : String) : String :=
  Url.ofFile (Url.absolute sh.directory path)

/-- There is a file under the path. -/
def isFile (sh : Shell H) (path : String) : Except Fault Bool :=
  match sh.file path with
  | .octets _ | .closed => .ok true
  | .missing | .directory => .ok false
  | .tooLong => .error (Fault.pathTooLong path)

/-- The paths under which there is no file. -/
def notFiles (sh : Shell H) (paths : List String) : Except Fault (List String) :=
  paths.filterM fun path ↦ (sh.isFile path).map (!·)

/-- The text of a file. -/
def readText (sh : Shell H) (path : String) : Except Fault String :=
  match sh.file path with
  | .octets bs => FileContent.decode bs
  | .closed => .error (Fault.denied path)
  | _ => .error (.plain .lookup path)

/-- Opens the document in a file; the answer is its id. -/
def openDocument (sh : Shell H) (v : Server H) (path : String) : Run H String := do
  let text ← Run.ofExcept (sh.readText path)
  let id := sh.documentId path
  let _ ← Run.ofAction (v.collaborators.setDocument id text 0)
  return id

/-- Starts a server and opens the documents; the answer is the server and the ids of the documents. -/
def start (sh : Shell H) (s : Sources) : Run H (Server H × List String) := do
  let v ← Run.ofExcept (Server.start sh.environment (sh.file (settingsPath s)))
  let paths := s.paths.map Path.plain
  match ← Run.ofExcept (sh.notFiles paths) with
  | [] => return (v, ← paths.mapM (sh.openDocument v))
  | missing => throw (.usage (.invalid ("not a file: " ++ ", ".intercalate missing)))

end Shell

/-- The first of the documents that declares the element. -/
def documentOf (v : Server H) (entity : String) : List String → Run H String
  | [] => throw (.usage (.invalid ("no loaded document declares " ++ entity)))
  | id :: rest => do
    match ← Run.ofAction (v.collaborators.findSection id entity) with
    | some _ => return id
    | none => documentOf v entity rest

/-- The report of results: the program fails if one of them does. -/
def reportResults (results : List Result) : Report :=
  let status := if results.any (·.outcome.isFailing) then 1 else 0
  .finished status (printed (.list (results.map (·.toJson)))) ""

/-- Lists the commands that the documents offer. -/
def listCommands (sh : Shell H) (s : Sources) : Run H Report := do
  let (v, ids) ← sh.start s
  let commands ← ids.mapM fun id ↦ Run.ofAction (v.documentCommands id)
  return .finished 0 (printed (.list (commands.flatten.map (·.record.toJson)))) ""

/-- Runs a command on an element. -/
def runExecute (sh : Shell H) (s : Sources) (entity command : String)
    (args params : List String) : Run H Report := do
  let (v, ids) ← sh.start s
  let uri ← documentOf v entity ids
  let executableArgs ← Run.ofUsage (Pairs.texts "--arg" args)
  let inputParameters ← Run.ofStop (Pairs.values "--param" params)
  let results ← Run.ofAction
    (v.runCommand ⟨uri, none, entity, command, executableArgs, inputParameters⟩)
  return reportResults results

/-- Runs the tests of an element. -/
def runTest (sh : Shell H) (s : Sources) (entity : String) (suite test : Option String)
    (legacy : Bool) : Run H Report := do
  if test.isSome && suite.isNone then throw (.usage (.invalid "--test requires --suite"))
  let (v, ids) ← sh.start s
  let uri ← documentOf v entity ids
  let command := if legacy then Command.runLegacyTestsId else Command.runTestsId
  let executableArgs :=
    (suite.map fun id ↦ ("testSuite", id)).toList ++ (test.map fun id ↦ ("test", id)).toList
  let results ← Run.ofAction (v.runCommand ⟨uri, none, entity, command, executableArgs, []⟩)
  return reportResults results

/-- Where a reference stands and where it leads to, as it is listed. -/
def referenceJson (location : Location) (target : Option Location) : Json :=
  .record [("location", (Api.LocationRecord.ofLocation location).toJson),
    ("target", Api.LocationRecord.optionJson (target.map .ofLocation))]

/-- The references of a section, as they are listed. -/
def sectionReferences (v : Server H) (m : CompiledModel) (sec : Section) : Run H (List Json) := do
  match v.extensionFor sec with
  | none => return []
  | some x =>
    let references ← Run.ofAction (x.allReferences v.surroundings sec)
    return references.filterMap fun r ↦ r.map fun r ↦ referenceJson r.location (r.resolve m)

/-- Lists the references in the documents. -/
def listReferences (sh : Shell H) (s : Sources) : Run H Report := do
  let (v, ids) ← sh.start s
  match ← Run.ofAction v.collaborators.compile with
  | .model m =>
    let sections ← ids.mapM fun id ↦ Run.ofAction (Server.sections id)
    let entries ← sections.flatten.mapM (sectionReferences v m)
    return .finished 0 (printed (.list entries.flatten)) ""
  | .faulty f => return .finished 1 "" ("compile failed: " ++ Text.shown f.message ++ "\n")
  | .nothing => return .finished 1 "" "compile failed: None\n"

/-- Where an editor is to be served. -/
def endpoint : Option String → Run H Endpoint
  | none => return .standard
  | some address =>
    match Endpoint.ofAddress address with
    | .ok e => return e
    | .error (.form address) =>
      throw (.usage (.invalid ("--tcp expects host:port, got " ++ Text.quoted address)))
    | .error (.port shown) =>
      throw (.fault (.plain .value ("invalid literal for int() with base 10: " ++ shown)))
    | .error (.long digits) => throw (.fault (.plain .value (Text.tooLongMessage digits)))

/-- What the program can do. -/
def description : String :=
  "Commands: " ++ ", ".intercalate (Profile.all.map (·.name)) ++ "\n"

/-- Does what an invocation asks for. -/
def perform (sh : Shell H) : Invocation → Run H Report
  | .serve address => do return .serving (← endpoint address)
  | .commands s => listCommands sh s
  | .execute s entity command args params => runExecute sh s entity command args params
  | .test s entity suite test legacy => runTest sh s entity suite test legacy
  | .references s => listReferences sh s
  | .help => return .finished 0 description ""

/-- Runs a command line in a session. -/
def run (sh : Shell H) (words : List String) (session : Session H) : Report × Session H :=
  match Invocation.ofWords words with
  | .error u => (.refused u, session)
  | .ok invocation =>
    match perform sh invocation session with
    | (.ok report, session') => (report, session')
    | (.error (.usage u), session') => (.refused u, session')
    | (.error (.fault f), session') => (.failed f, session')

end ModelServer.CommandLine
