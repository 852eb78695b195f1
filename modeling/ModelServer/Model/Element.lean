import ModelServer.Model.Part

/-!
# Elements of a model

An element is a header and what its kind adds to it. A service also has a compiled form, which
exists only in a model that compiled and holds what is checked after the service ran.
-/

namespace ModelServer

variable {σ τ : Type}

/-- What a service is besides its header. -/
structure Service (σ : Type) where
  pattern : String
  documentation : String
  execution : Option (Execution σ)
  suites : List (TestSuite σ)
  legacyTest : Option (LegacyTest σ)
  deriving Repr

def Service.map (f : σ → τ) (s : Service σ) : Service τ :=
  ⟨s.pattern, s.documentation, s.execution.map (·.map f), s.suites.map (·.map f),
    s.legacyTest.map (·.map f)⟩

/-- What a profile is besides its header: the stereotypes and tags it declares. -/
structure Profile (σ : Type) where
  stereotypes : List (ProfileEntry σ)
  tags : List (ProfileEntry σ)
  deriving Repr

namespace Profile

def map (f : σ → τ) (p : Profile σ) : Profile τ :=
  ⟨p.stereotypes.map (·.map f), p.tags.map (·.map f)⟩

/-- Where the first entry of that name stands. -/
def sourceOf (entries : List (ProfileEntry σ)) (name : String) : Option σ :=
  (entries.find? (·.name = name)).bind (·.source)

end Profile

/-- What a function is besides its header. -/
structure Function (σ : Type) where
  func : Option (Lambda σ)
  suites : List (TestSuite σ)
  deriving Repr

def Function.map (f : σ → τ) (g : Function σ) : Function τ :=
  ⟨g.func.map (·.map f), g.suites.map (·.map f)⟩

/-- What the kind of an element adds to its header. -/
inductive Content where
  | service (s : Service Location)
  | mapping
  | runtime (r : EngineRuntime Location)
  | profile (p : Profile Location)
  | function (f : Function Location)
  deriving Repr

/-- An element of a model. -/
structure Element where
  header : Header Location
  content : Content
  deriving Repr

/-- The part of a path behind its last `::`, the path being given from its end. -/
def lastSegment : List Char → List Char
  | [] => []
  | ':' :: ':' :: _ => []
  | c :: rest => c :: lastSegment rest

namespace Element

def path (e : Element) : String :=
  e.header.path

def source (e : Element) : Option Location :=
  e.header.source

/-- The part of the path behind the last `::`. -/
def name (e : Element) : String :=
  String.ofList (lastSegment e.path.toList.reverse).reverse

/-- The service that the element is. -/
def service? (e : Element) : Option (Service Location) :=
  match e.content with
  | .service s => some s
  | _ => none

/-- The function that the element is. -/
def function? (e : Element) : Option (Function Location) :=
  match e.content with
  | .function f => some f
  | _ => none

/-- The runtime that the element is. -/
def runtime? (e : Element) : Option (EngineRuntime Location) :=
  match e.content with
  | .runtime r => some r
  | _ => none

/-- The profile that the element is. -/
def profile? (e : Element) : Option (Profile Location) :=
  match e.content with
  | .profile p => some p
  | _ => none

end Element

/-- What compiling adds to a service: its resolved lambda, and the conditions on what it returns. -/
structure CompiledService where
  path : String
  func : Option (Lambda Location)
  postValidations : List (PostValidation Location)
  deriving Repr

end ModelServer
