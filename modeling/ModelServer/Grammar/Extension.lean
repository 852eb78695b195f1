import ModelServer.Execution.Variant
import ModelServer.Reference
import ModelServer.Command.Basic
import ModelServer.Completion

/-!
# Grammar extensions

The elements of a section are handled by the extension of its grammar. An extension says which commands
an element offers, runs commands, finds references and proposes completions; `Extension` is a record of
these, and the modules beside this one define the three that are always there.

The entry points of an extension are here. Whatever goes wrong while a command runs becomes one result
in `Extension.execute`; what becomes of a fault that has no text is all that gets out of it.
-/

namespace ModelServer

/-- The families that extensions belong to. -/
inductive Family where
  | service
  | runtime
  | function
  /-- A family that is only known by its name. -/
  | other (name : String)
  deriving DecidableEq, Repr

/-- The commands that an element offered, and the fault that ended the offering, if one did. -/
structure Offers where
  commands : List Command
  fault : Option Fault
  deriving Repr

namespace Offers

/-- These commands. -/
def these (commands : List Command) : Offers := ⟨commands, none⟩

/-- The commands, or the fault of finding out. -/
def ofExcept : Except Fault (List Command) → Offers
  | .ok commands => ⟨commands, none⟩
  | .error f => ⟨[], some f⟩

/-- Goes on offering, unless a fault ended it. -/
def andThen (o : Offers) (more : Offers) : Offers :=
  match o.fault with
  | some _ => o
  | none => ⟨o.commands ++ more.commands, more.fault⟩

end Offers

/-- What it takes to execute elements: the lambda that an element exposes, and a plan for it. -/
structure ExecutionSupport (H : Type) where
  lambda : Element → Except Fault (Option (Lambda Location))
  plan : Collaborators H → Element → Lambda Location → CompiledModel → InputParameters →
    Action H Value

/-- The surroundings of an extension: the collaborators, and the families of the extensions that are
installed. -/
structure Surroundings (H : Type) where
  collaborators : Collaborators H
  families : List Family

namespace Surroundings

variable {H : Type}

/-- An extension of that family is installed. -/
def has (s : Surroundings H) (family : Family) : Bool :=
  s.families.contains family

end Surroundings

/-- A command that was sent to an element of a section. -/
structure Invocation where
  sec : Section
  path : String
  commandId : String
  executableArgs : List (String × String)
  inputParameters : InputParameters

/-- What handles the elements of sections in a grammar. -/
structure Extension (H : Type) where
  /-- The name of the grammar. -/
  name : String
  /-- The name of the extension's own kind. -/
  kind : String
  /-- The families it belongs to. -/
  families : List Family
  keywords : List String
  /-- How elements are executed, if they can be. -/
  execution : Option (ExecutionSupport H)
  /-- The commands that an element offers. -/
  offers : Surroundings H → Element → Offers
  /-- Runs a command. -/
  dispatch : Surroundings H → Invocation → Action H (List Result)
  /-- Where the references of an element come from. -/
  references : Surroundings H → Element → List ReferenceSource
  /-- What is proposed behind the given text of a line, besides keywords. -/
  proposals : String → List Completion

namespace Extension

variable {H : Type}

/-- The text form of an extension. -/
def describe (x : Extension H) : String :=
  x.kind ++ "(" ++ Text.quoted x.name ++ ")"

/-! ### Commands -/

/-- The commands that the elements offer, each the first with its key. An element whose offering ends
in a fault offers what it offered before. -/
def commandsOf (x : Extension H) (s : Surroundings H) (elements : List Element) : List Command :=
  Command.collect (elements.flatMap fun e ↦ (x.offers s e).commands)

/-- The commands that a section offers. -/
def commands (x : Extension H) (s : Surroundings H) (sec : Section) : Action H (List Command) := do
  return x.commandsOf s (← s.collaborators.parse sec).toList

/-- Runs a command. A fault becomes the one result, if it can be put into words. -/
def execute (x : Extension H) (s : Surroundings H) (i : Invocation) : Action H (List Result) := do
  match ← (x.dispatch s i).outcome with
  | .ok results => return results
  | .error f => return [← Action.ofExcept (Result.ofFault i.path f none)]

/-! ### References -/

/-- The references that come from a source. -/
def expand (s : Surroundings H) : ReferenceSource → Action H (List (Option Reference))
  | .items rs => return rs
  | .compiled path => do
    match (← s.collaborators.compile).toExcept with
    | .error _ => return []
    | .ok m =>
      match m.form? path with
      | some c => return Reference.ofCompiled c
      | none => return []

/-- Where the references of a section come from. -/
def sources (x : Extension H) (s : Surroundings H) (sec : Section) :
    Action H (List ReferenceSource) := do
  return (← s.collaborators.parse sec).toList.flatMap (x.references s)

/-- All references that come from the sources. -/
def expandAll (s : Surroundings H) : List ReferenceSource → Action H (List (Option Reference))
  | [] => return []
  | r :: rest => do
    let here ← expand s r
    return here ++ (← expandAll s rest)

/-- The references of a section. -/
def allReferences (x : Extension H) (s : Surroundings H) (sec : Section) :
    Action H (List (Option Reference)) := do
  expandAll s (← x.sources s sec)

/-- The first reference from the sources that stands at the position. Sources behind it are not asked
for. -/
def findIn (s : Surroundings H) (document : String) (p : Position) :
    List ReferenceSource → Action H (Option Reference)
  | [] => return none
  | r :: rest => do
    match Reference.find? document p (← expand s r) with
    | some found => return some found
    | none => findIn s document p rest

/-- Where the first reference at a position of the section leads to. -/
def findDefinition (x : Extension H) (s : Surroundings H) (sec : Section) (p : Position) :
    Action H (Option Location) := do
  match ← findIn s sec.document.id p (← x.sources s sec) with
  | none => return none
  | some r =>
    match (← s.collaborators.compile).toExcept with
    | .error _ => return none
    | .ok m => return r.resolve m

/-! ### Completions -/

/-- What is proposed at a position of the section. -/
def completions (x : Extension H) (sec : Section) (p : Position) : List Completion :=
  let line := sec.lineUpTo p
  x.proposals line ++ Completion.keywords x.keywords (Completion.lastWord line)

end Extension

end ModelServer
