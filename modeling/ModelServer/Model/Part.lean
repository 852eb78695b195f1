import ModelServer.Source.Location
import ModelServer.Dictionary

/-!
# The parts of model elements

What elements are made of: pointers to other elements, expressions, executions, test suites. Each
part may carry the place where it stands, and `σ` is the type of such places: intervals of one text
while an element is only written down (`Declaration`), locations that name their document once it is
part of a model (`Element`). `map` takes one to the other, and changes nothing else but the order of
options: written down they may stand in any order, in a model they stand in that of their names
(`Binding.map`).
-/

namespace ModelServer

variable {σ τ : Type}

/-- A stereotype that an element carries: a value of a profile. -/
structure StereotypePointer (σ : Type) where
  profile : String
  value : String
  source : Option σ
  deriving DecidableEq, Repr

def StereotypePointer.map (f : σ → τ) (s : StereotypePointer σ) : StereotypePointer τ :=
  ⟨s.profile, s.value, s.source.map f⟩

/-- A tag of a profile with a value, which an element carries. -/
structure TaggedValue (σ : Type) where
  profile : String
  tag : String
  value : String
  source : Option σ
  deriving DecidableEq, Repr

def TaggedValue.map (f : σ → τ) (t : TaggedValue σ) : TaggedValue τ :=
  ⟨t.profile, t.tag, t.value, t.source.map f⟩

/-- A pointer to an element by its path. -/
structure ElementPointer (σ : Type) where
  path : String
  source : Option σ
  deriving DecidableEq, Repr

def ElementPointer.map (f : σ → τ) (p : ElementPointer σ) : ElementPointer τ :=
  ⟨p.path, p.source.map f⟩

/-- A node of an expression tree. A node that points at an element names it as its reference. -/
inductive Expression (σ : Type) where
  | node (kind : String) (source : Option σ) (reference : Option String)
      (children : List (Expression σ))
  deriving Repr

namespace Expression

def kind : Expression σ → String
  | node k _ _ _ => k

def source : Expression σ → Option σ
  | node _ s _ _ => s

def reference : Expression σ → Option String
  | node _ _ r _ => r

def children : Expression σ → List (Expression σ)
  | node _ _ _ cs => cs

mutual

def map (f : σ → τ) : Expression σ → Expression τ
  | node k s r cs => node k (s.map f) r (mapList f cs)

def mapList (f : σ → τ) : List (Expression σ) → List (Expression τ)
  | [] => []
  | e :: rest => map f e :: mapList f rest

end

end Expression

/-- The function that an element exposes: what it takes, and the expressions it runs. -/
structure Lambda (σ : Type) where
  parameters : List String
  body : List (Expression σ)
  source : Option σ
  deriving Repr

namespace Lambda

/-- No parameters, no body. -/
def empty : Lambda σ := ⟨[], [], none⟩

def map (f : σ → τ) (l : Lambda σ) : Lambda τ :=
  ⟨l.parameters, Expression.mapList f l.body, l.source.map f⟩

end Lambda

/-- A runtime declared in place: the mappings and connections it is made of. -/
structure EngineRuntime (σ : Type) where
  mappings : List (ElementPointer σ)
  connections : List (ElementPointer σ)
  deriving DecidableEq, Repr

def EngineRuntime.map (f : σ → τ) (r : EngineRuntime σ) : EngineRuntime τ :=
  ⟨r.mappings.map (·.map f), r.connections.map (·.map f)⟩

/-- The runtime of an execution: a runtime element, or a runtime declared in place. -/
inductive RuntimeValue (σ : Type) where
  | pointer (p : ElementPointer σ)
  | engine (r : EngineRuntime σ)
  deriving DecidableEq, Repr

def RuntimeValue.map (f : σ → τ) : RuntimeValue σ → RuntimeValue τ
  | pointer p => pointer (p.map f)
  | engine r => engine (r.map f)

/-- What a lambda runs against. -/
structure Binding (σ : Type) where
  mapping : Option String
  mappingSource : Option σ
  runtime : Option (RuntimeValue σ)
  options : List (String × String)
  deriving DecidableEq, Repr

def Binding.map (f : σ → τ) (b : Binding σ) : Binding τ :=
  ⟨b.mapping, b.mappingSource.map f, b.runtime.map (·.map f), Dictionary.sort b.options⟩

/-- A binding that is chosen by the value of a parameter. -/
structure Variant (σ : Type) where
  key : String
  binding : Binding σ
  source : Option σ
  deriving DecidableEq, Repr

def Variant.map (f : σ → τ) (v : Variant σ) : Variant τ :=
  ⟨v.key, v.binding.map f, v.source.map f⟩

/-- How a service runs: against one binding, or against the variant whose key is the value of a
parameter. -/
inductive Execution (σ : Type) where
  | single (func : Option (Lambda σ)) (binding : Binding σ)
  | multi (func : Option (Lambda σ)) (key : String) (variants : List (Variant σ))
  deriving Repr

namespace Execution

/-- The lambda that is run, whatever it runs against. -/
def func : Execution σ → Option (Lambda σ)
  | single f _ => f
  | multi f _ _ => f

def map (f : σ → τ) : Execution σ → Execution τ
  | single l b => single (l.map (·.map f)) (b.map f)
  | multi l k vs => multi (l.map (·.map f)) k (vs.map (·.map f))

end Execution

structure TestCase (σ : Type) where
  id : String
  source : Option σ
  deriving DecidableEq, Repr

def TestCase.map (f : σ → τ) (t : TestCase σ) : TestCase τ :=
  ⟨t.id, t.source.map f⟩

structure TestSuite (σ : Type) where
  id : String
  tests : List (TestCase σ)
  source : Option σ
  deriving DecidableEq, Repr

def TestSuite.map (f : σ → τ) (s : TestSuite σ) : TestSuite τ :=
  ⟨s.id, s.tests.map (·.map f), s.source.map f⟩

/-- A test of the older kind, which a service may hold one of. Its text is for the test runner
alone. -/
structure LegacyTest (σ : Type) where
  data : String
  source : Option σ
  deriving DecidableEq, Repr

def LegacyTest.map (f : σ → τ) (t : LegacyTest σ) : LegacyTest τ :=
  ⟨t.data, t.source.map f⟩

/-- A name that a profile declares. -/
structure ProfileEntry (σ : Type) where
  name : String
  source : Option σ
  deriving DecidableEq, Repr

def ProfileEntry.map (f : σ → τ) (e : ProfileEntry σ) : ProfileEntry τ :=
  ⟨e.name, e.source.map f⟩

/-- A condition on what a service returns. -/
structure Assertion (σ : Type) where
  id : String
  assertion : Option (Expression σ)
  deriving Repr

def Assertion.map (f : σ → τ) (a : Assertion σ) : Assertion τ :=
  ⟨a.id, a.assertion.map (·.map f)⟩

/-- Conditions that are checked together, and what they are given. -/
structure PostValidation (σ : Type) where
  description : String
  parameters : List (Expression σ)
  assertions : List (Assertion σ)
  deriving Repr

def PostValidation.map (f : σ → τ) (v : PostValidation σ) : PostValidation τ :=
  ⟨v.description, Expression.mapList f v.parameters, v.assertions.map (·.map f)⟩

/-- What every element has. -/
structure Header (σ : Type) where
  path : String
  source : Option σ
  stereotypes : List (StereotypePointer σ)
  taggedValues : List (TaggedValue σ)
  deriving DecidableEq, Repr

def Header.map (f : σ → τ) (h : Header σ) : Header τ :=
  ⟨h.path, h.source.map f, h.stereotypes.map (·.map f), h.taggedValues.map (·.map f)⟩

end ModelServer
