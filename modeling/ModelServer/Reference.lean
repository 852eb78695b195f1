import ModelServer.Workspace.Model

/-!
# References

A reference is a place of a document that points at something declared elsewhere: an element, a
stereotype, a tag. It is found without knowing whether its target exists, and resolved against a model
later.

References come in a stream in which `none` stands for one without a place. Part of a stream may be
known only once the project compiled, which `ReferenceSource` keeps apart.
-/

namespace ModelServer

/-- What a reference points at. -/
inductive Target where
  | element (path : String)
  | stereotype (profile value : String)
  | tag (profile tag : String)
  deriving DecidableEq, Repr

/-- A place that points at something. -/
structure Reference where
  location : Location
  target : Target
  deriving DecidableEq, Repr

namespace Reference

/-- A reference from a place, if there is one. -/
def at? (location : Option Location) (target : Target) : Option Reference :=
  location.map fun l ↦ ⟨l, target⟩

/-- A reference to an element, if a path is given and it has a place. -/
def toElement? (path : Option String) (location : Option Location) : Option Reference :=
  path.bind fun p ↦ at? location (.element p)

/-- Where the target stands in a model, if the model has it. -/
def resolve (r : Reference) (m : CompiledModel) : Option Location :=
  match r.target with
  | .element path => m.resolveElement path
  | .stereotype profile value => m.resolveStereotype profile value
  | .tag profile tag => m.resolveTag profile tag

/-- The reference stands at that position of that document. -/
def covers (document : String) (p : Position) (r : Reference) : Bool :=
  r.location.covers document p

/-- The first reference that stands at the position. -/
def find? (document : String) (p : Position) (rs : List (Option Reference)) : Option Reference :=
  rs.findSome? fun r ↦ r.filter (covers document p)

/-! ### The references of the parts of an element -/

def ofPointers (ps : List (ElementPointer Location)) : List (Option Reference) :=
  ps.map fun p ↦ toElement? (some p.path) p.source

def ofStereotypes (ss : List (StereotypePointer Location)) : List (Option Reference) :=
  ss.map fun s ↦ at? s.source (.stereotype s.profile s.value)

def ofTaggedValues (ts : List (TaggedValue Location)) : List (Option Reference) :=
  ts.map fun t ↦ at? t.source (.tag t.profile t.tag)

mutual

/-- One for each node that points at an element, a node before its children. -/
def ofExpression : Expression Location → List (Option Reference)
  | .node _ source reference children =>
    match reference with
    | some path => toElement? (some path) source :: ofExpressions children
    | none => ofExpressions children

/-- Those of each expression in turn. -/
def ofExpressions : List (Expression Location) → List (Option Reference)
  | [] => []
  | e :: rest => ofExpression e ++ ofExpressions rest

end

def ofExpression? : Option (Expression Location) → List (Option Reference)
  | some e => ofExpression e
  | none => []

def ofLambda : Option (Lambda Location) → List (Option Reference)
  | some l => ofExpressions l.body
  | none => []

def ofAssertion : Option (Assertion Location) → List (Option Reference)
  | some a => ofExpression? a.assertion
  | none => []

def ofPostValidation : Option (PostValidation Location) → List (Option Reference)
  | some v => ofExpressions v.parameters ++ v.assertions.flatMap fun a ↦ ofAssertion (some a)
  | none => []

/-- A pointer is one reference; a runtime declared in place has those of its mappings, then those of
its connections. -/
def ofRuntime : Option (RuntimeValue Location) → List (Option Reference)
  | some (.pointer p) => [toElement? (some p.path) p.source]
  | some (.engine r) => ofPointers r.mappings ++ ofPointers r.connections
  | none => []

/-- The references of a compiled service: those of its lambda, then those of its conditions. -/
def ofCompiled (c : CompiledService) : List (Option Reference) :=
  ofLambda c.func ++ c.postValidations.flatMap fun v ↦ ofPostValidation (some v)

end Reference

/-- Where references come from. -/
inductive ReferenceSource where
  /-- They are known from what was parsed. -/
  | items (rs : List (Option Reference))
  /-- They are those of the compiled form of a service, known once the project compiled. -/
  | compiled (path : String)
  deriving Repr

end ModelServer
