import ModelServer.Session.Collaborator

/-!
# From an execution to a plan

An execution with variants runs against the first variant whose key is the text found under the
execution's key among the parameters; a parameter that is no text chooses none. The plan is then made
for that one binding, unless the request was cancelled before.
-/

namespace ModelServer

/-- What is found under the name among the parameters; null if nothing is. -/
def InputParameters.value (ps : InputParameters) (name : String) : Json :=
  (Data.lookup name ps).getD .null

namespace Execution

variable {σ : Type}

/-- The first variant with the key. -/
def variant? (variants : List (Variant σ)) (value : Json) : Option (Variant σ) :=
  match value with
  | .text s => variants.find? (·.key == s)
  | _ => none

/-- The variant that the parameters choose. -/
def selectVariant (key : String) (variants : List (Variant σ)) (ps : InputParameters) :
    Except Fault (Variant σ) :=
  match variant? variants (ps.value key) with
  | some v => .ok v
  | none => .error (.unmatchedKey key (ps.value key))

/-- A binding of a lambda. -/
def specOf (func : Option (Lambda Location)) (b : Binding Location) : ExecutionSpec :=
  ⟨func, b.mapping, b.runtime, b.options⟩

/-- The one binding that an execution of the lambda runs against. -/
def resolve (execution : Option (Execution Location)) (func : Option (Lambda Location))
    (ps : InputParameters) : Except Fault ExecutionSpec :=
  match execution with
  | some (.single _ b) => .ok (specOf func b)
  | some (.multi _ key variants) =>
    (selectVariant key variants ps).map fun v ↦ specOf func v.binding
  | none => .error (.plain .value "No execution is declared")

/-- The fault of something that is given as an execution and is none. -/
def unsupported (what : String) : Fault :=
  .plain .value ("Unsupported execution: " ++ what)

end Execution

/-- Makes a plan, unless the work that asks for it is cancelled. -/
def ExecutionSpec.plan {H : Type} (spec : ExecutionSpec) (model : CompiledModel)
    (generator : PlanGenerator H) (extensions : PlatformExtensions) : Action H Value := do
  Action.requests Requests.checkCarried
  generator.generate spec model .java extensions

end ModelServer
