import ModelServer.Grammar.Testable
import ModelServer.Grammar.Executable

/-!
# The grammar of functions

A function has no mapping and no runtime of its own; its plan is made for its lambda alone.
-/

namespace ModelServer.FunctionGrammar

variable {H : Type}

/-- The suites of a function. -/
def suites : Testable.Suites := fun e ↦
  .ok ((e.function?.map (·.suites)).getD [])

/-- The lambda of a function. -/
def lambda (e : Element) : Option (Lambda Location) :=
  e.function?.bind (·.func)

/-- A binding to nothing. -/
def spec (func : Lambda Location) : ExecutionSpec :=
  ⟨some func, none, none, []⟩

/-- How functions are executed. -/
def execution : ExecutionSupport H where
  lambda e := .ok (lambda e)
  plan c _ func m _ := do
    let generator ← c.requirePlanGenerator
    (spec func).plan m generator c.platformExtensions

/-- The references of a function: those of its header, then those of its lambda. -/
def references (e : Element) : List ReferenceSource :=
  match e.function? with
  | some f =>
    [.items (Reference.ofStereotypes e.header.stereotypes ++
      Reference.ofTaggedValues e.header.taggedValues ++ Reference.ofLambda f.func)]
  | none => []

/-- The extension. -/
def extension : Extension H where
  name := "Function"
  kind := "FunctionExtension"
  families := [.function]
  keywords := ["function", "import"]
  execution := some execution
  offers _ e := (Testable.offers suites e).andThen (Executable.offers (H := H) execution e)
  dispatch := Executable.dispatch execution (Testable.dispatch suites)
  references _ := references
  proposals _ := []

end ModelServer.FunctionGrammar
