import ModelServer.Settings.Basic
import ModelServer.Registration.Client
import ModelServer.Workspace.Provider

/-!
# Collaborators from settings

The settings name what is to be loaded for each role; loading itself is given. Collaborators are loaded
in the order of `Role.all`, and the first that fails ends it. The execution server is the client of the
address in the settings.
-/

namespace ModelServer

/-- How what is named in settings is loaded, for each role. -/
structure Loader (m : Type → Type) (γ ε τ : Type) where
  planGenerator : String → m γ
  planExecutor : String → m ε
  testRunner : String → m τ

/-- What was loaded. -/
structure Loaded (γ ε τ : Type) where
  planGenerator : Option γ
  planExecutor : Option ε
  testRunner : Option τ

namespace Settings

/-- The name of a thing to load: a module and what to take from it. -/
structure Target where
  moduleName : String
  member : String
  deriving DecidableEq, Repr

/-- The target that a text names: what stands before the first colon, and what stands behind it. -/
def target (spec : String) : Except Fault Target :=
  match spec.toList.span (· != ':') with
  | (c :: cs, _ :: d :: ds) => .ok ⟨String.ofList (c :: cs), String.ofList (d :: ds)⟩
  | _ =>
    .error (.plain .value ("expected package.module:attribute, got " ++ Text.quoted spec))

/-- The texts that can be loaded by name. -/
def textOf? (t : Target) : Option String :=
  if t.moduleName = "string" then
    if t.member = "digits" then some "0123456789"
    else if t.member = "ascii_lowercase" then some "abcdefghijklmnopqrstuvwxyz"
    else none
  else none

/-- Loads what the settings name. -/
def load {m : Type → Type} [Monad m] {γ ε τ : Type} (s : Settings) (l : Loader m γ ε τ) :
    m (Loaded γ ε τ) := do
  let planGenerator ← (s.spec? Role.planGenerator.key).mapM l.planGenerator
  let planExecutor ← (s.spec? Role.planExecutor.key).mapM l.planExecutor
  let testRunner ← (s.spec? Role.testRunner.key).mapM l.testRunner
  return ⟨planGenerator, planExecutor, testRunner⟩

/-- The client of the execution server. -/
def client? (s : Settings) : Option Registration.Client :=
  if s.hasEngine then
    s.engineUrl.map fun url ↦ .new url (s.timeout.map .float)
  else none

variable {H : Type}

/-- The collaborators: the provider of documents, what was loaded, and the execution server over the
wire. -/
def assemble [Depths] (s : Settings) (wire : Registration.Wire H) (extensions : PlatformExtensions)
    (loaded : Loaded (PlanGenerator H) (PlanExecutor H) (TestRunner H)) : Collaborators H where
  provider := DocumentProvider.provider
  planGenerator := loaded.planGenerator
  planExecutor := loaded.planExecutor
  testRunner := loaded.testRunner
  executionServer := s.client?.map (·.server wire)
  platformExtensions := extensions

end Settings

end ModelServer
