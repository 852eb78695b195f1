import ModelServer.Session.Action

/-!
# Collaborators

What the server does not do itself: reading documents, planning and running executions, running tests,
registering services. Each is a record of actions that whoever hosts the server provides. A collaborator
that is not configured is a fault only where it is asked for.
-/

namespace ModelServer

/-- The platform that plans are made for. -/
inductive Platform where
  | java
  deriving DecidableEq, Repr

/-- The word for a platform. -/
def Platform.word : Platform → String
  | java => "JAVA"

/-- What is installed beside the server and handed on to those who plan and test. It is taken as loaded:
nothing here looks for what is installed, and so nothing here can fail at it. -/
structure PlatformExtensions where
  routerExtensions : List Json
  planTransformers : List Json
  deriving Repr

/-- One concrete binding of a lambda. -/
structure ExecutionSpec where
  func : Option (Lambda Location)
  mapping : Option String
  runtime : Option (RuntimeValue Location)
  options : List (String × String)
  deriving Repr

/-- The values that a client gives for the parameters of a lambda. -/
abbrev InputParameters := Members

/-- Reads documents: takes them apart, parses sections, compiles the project, writes it out. -/
structure ModelProvider (H : Type) where
  split : Document → Except Fault (List (String × SectionBody))
  parse : Section → Action H Parsed
  compile : List Section → (Section → Action H Parsed) → Action H Compiled
  serialize : List Section → Option Json → Action H Json

/-- Makes plans of executions. -/
structure PlanGenerator (H : Type) where
  generate : ExecutionSpec → CompiledModel → Platform → PlatformExtensions → Action H Value

/-- Runs plans. A table query comes with the query and the token of its request. -/
structure PlanExecutor (H : Type) where
  execute : Value → InputParameters → Option (Api.TableQuery × TokenId) → Action H Output

/-- Runs tests. -/
structure TestRunner (H : Type) where
  runLegacyTests : Element → LegacyTest Location → CompiledModel → PlatformExtensions →
    Action H (List LegacyRun)
  runTestSuites : Element → List (TestSuite Location) → CompiledModel → PlatformExtensions →
    Action H (List TestOutcome)

/-- Takes what is posted under a path, and answers. -/
structure ExecutionServer (H : Type) where
  post : String → Json → Action H String

/-- The collaborators of a server. -/
structure Collaborators (H : Type) where
  provider : ModelProvider H
  planGenerator : Option (PlanGenerator H)
  planExecutor : Option (PlanExecutor H)
  testRunner : Option (TestRunner H)
  executionServer : Option (ExecutionServer H)
  /-- What loading them came to; whoever hosts the server has loaded them before anything is asked. -/
  platformExtensions : PlatformExtensions

namespace Collaborators

variable {H : Type}

/-- The collaborator, or the fault of its not being configured. -/
def require {α : Type} (name : String) : Option α → Action H α
  | some a => pure a
  | none => .fail (.unconfigured name)

def requirePlanGenerator (c : Collaborators H) : Action H (PlanGenerator H) :=
  require "plan generator" c.planGenerator

def requirePlanExecutor (c : Collaborators H) : Action H (PlanExecutor H) :=
  require "plan executor" c.planExecutor

def requireTestRunner (c : Collaborators H) : Action H (TestRunner H) :=
  require "test runner" c.testRunner

def requireExecutionServer (c : Collaborators H) : Action H (ExecutionServer H) :=
  require "execution server" c.executionServer

/-! ### The workspace through its provider -/

/-- Opens a document, or puts another text in its place; the answer is its sections. -/
def setDocument (c : Collaborators H) (id text : String) (version : Int) :
    Action H (List Section) := do
  let w ← Action.workspace
  let d := w.newDocument id text version
  let sections := d.sections (← Action.ofExcept (c.provider.split d))
  Action.modifyWorkspace (·.set d sections)
  return sections

/-- Closes a document. -/
def removeDocument (id : String) : Action H Unit :=
  Action.modifyWorkspace (·.remove id)

/-- What a section parses to. -/
def parse (c : Collaborators H) (s : Section) : Action H Parsed := do
  match (← Action.workspace).parsed? s with
  | some p => return p
  | none =>
    let p ← c.provider.parse s
    Action.modifyWorkspace (·.remember s p)
    return p

/-- What the project compiles to. If documents change meanwhile the answer is not remembered. -/
def compile (c : Collaborators H) : Action H Compiled := do
  let w ← Action.workspace
  match w.compiled with
  | some r => return r
  | none =>
    let r ← c.provider.compile w.allSections c.parse
    Action.modifyWorkspace fun w' ↦
      if w'.generation = w.generation then { w' with compiled := some r } else w'
    return r

/-- The whole project as it is posted to an execution server. -/
def serialize (c : Collaborators H) (origin : Option Json) : Action H Json := do
  c.provider.serialize (← Action.workspace).allSections origin

/-- The first section that declares an element of that path, among the given ones. -/
def findSectionIn (c : Collaborators H) (path : String) : List Section → Action H (Option Section)
  | [] => return none
  | s :: rest => do
    match (← c.parse s).element? path with
    | some _ => return some s
    | none => c.findSectionIn path rest

/-- The first section of a document that declares an element of that path. -/
def findSection (c : Collaborators H) (document path : String) : Action H (Option Section) := do
  c.findSectionIn path ((← Action.workspace).sectionsOf document)

/-- The section of that number, or, if no number is given, the first that declares the element. -/
def locateSection (c : Collaborators H) (document path : String) (index : Option Int) :
    Action H (Option Section) := do
  match index with
  | none => c.findSection document path
  | some n => return ((← Action.workspace).sectionsOf document).find? fun s ↦ (s.index : Int) = n

end Collaborators

end ModelServer
