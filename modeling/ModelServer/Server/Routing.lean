import ModelServer.Grammar.Service
import ModelServer.Grammar.Function
import ModelServer.Grammar.Runtime

/-!
# From requests to extensions

A server is its collaborators and its extensions. A request names a document and an element; the section
it is about, and the extension that handles that section, are found here, and what no extension handles
is answered here.
-/

namespace ModelServer

/-- A server: what works for it, and what handles its grammars. -/
structure Server (H : Type) where
  collaborators : Collaborators H
  extensions : List (Extension H)

namespace Server

variable {H : Type}

/-- The extensions that are always there. -/
def defaultExtensions [Depths] : List (Extension H) :=
  [ServiceGrammar.extension, RuntimeGrammar.extension, FunctionGrammar.extension]

/-- The first extension of the grammar that a section is in. -/
def extensionFor (v : Server H) (sec : Section) : Option (Extension H) :=
  v.extensions.find? (·.name == sec.grammar)

/-- The first extension of a family. -/
def findExtension (v : Server H) (family : Family) : Option (Extension H) :=
  v.extensions.find? (·.families.contains family)

/-- The surroundings in which extensions work. -/
def surroundings (v : Server H) : Surroundings H :=
  ⟨v.collaborators, v.extensions.flatMap (·.families)⟩

/-- The sections of a document. -/
def sections (document : String) : Action H (List Section) := do
  return (← Action.workspace).sectionsOf document

/-! ### Commands and queries -/

/-- Runs the command of a request. -/
def runCommand (v : Server H) (r : Api.ExecuteRequest) : Action H (List Result) := do
  match ← v.collaborators.locateSection r.uri r.entityPath r.sectionIndex with
  | none =>
    return [.ofElement r.entityPath .error ("Unable to find entity " ++ r.entityPath) none]
  | some sec =>
    match v.extensionFor sec with
    | none =>
      let what := if sec.grammar.isEmpty then "this section" else sec.grammar
      return [.ofElement r.entityPath .error ("No grammar extension handles " ++ what) none]
    | some x =>
      x.execute v.surroundings
        ⟨sec, r.entityPath, r.commandId, r.executableArgs, r.inputParameters⟩

/-- The result of a query for an element that cannot be executed. -/
def notExecutable (path : String) : Result :=
  .ofElement path .error ("Unable to find executable entity " ++ path) none

/-- Answers a table query, for which there is a token. -/
def runTableQuery (v : Server H) (r : Api.TableRequest) (token : TokenId) : Action H Result := do
  match ← v.collaborators.locateSection r.uri r.entityPath r.sectionIndex with
  | none => return notExecutable r.entityPath
  | some sec =>
    match (v.extensionFor sec).bind (·.execution) with
    | none => return notExecutable r.entityPath
    | some x =>
      Executable.query x v.collaborators sec r.entityPath r.request r.inputParameters token

/-! ### What an editor asks for -/

/-- The commands that the sections offer, in order. -/
def commandsIn (v : Server H) : List Section → Action H (List Command)
  | [] => return []
  | sec :: rest => do
    let here ← match v.extensionFor sec with
      | some x => x.commands v.surroundings sec
      | none => pure []
    return here ++ (← v.commandsIn rest)

/-- The commands that a document offers. -/
def documentCommands (v : Server H) (document : String) : Action H (List Command) := do
  v.commandsIn (← sections document)

/-- Where the first of the sections in which a reference at the position leads somewhere leads to. -/
def findDefinitionIn (v : Server H) (p : Position) : List Section → Action H (Option Location)
  | [] => return none
  | sec :: rest => do
    match v.extensionFor sec with
    | none => v.findDefinitionIn p rest
    | some x =>
      match ← x.findDefinition v.surroundings sec p with
      | some l => return some l
      | none => v.findDefinitionIn p rest

/-- Where the reference at a position of a document leads to. -/
def findDefinition (v : Server H) (document : String) (p : Position) :
    Action H (Option Location) := do
  v.findDefinitionIn p (← sections document)

/-- What is proposed at a position, by the extension of each section in turn; `asked` are the grammars
whose extensions were asked before. -/
def completionsIn (v : Server H) (p : Position) (asked : List String)
    (found : List Completion) : List Section → List Completion
  | [] => found
  | sec :: rest =>
    match v.extensionFor sec with
    | none => v.completionsIn p asked found rest
    | some x =>
      if asked.contains x.name then v.completionsIn p asked found rest
      else
        v.completionsIn p (x.name :: asked) (Completion.union found (x.completions sec p)) rest

/-- What is proposed at a position of a document. Each extension is asked once, for its first section,
and of equal proposals the first is kept. -/
def documentCompletions (v : Server H) (document : String) (p : Position) :
    Action H (List Completion) := do
  return v.completionsIn p [] [] (← sections document)

end Server

end ModelServer
