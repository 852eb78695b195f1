import ModelServer.Model.Element
import ModelServer.Result
import ModelServer.Dictionary

/-!
# Parsed sections and the compiled model

Parsing a section gives its elements or an error; compiling the project gives a model or an error. Both
are values that are kept and handed round. In a model every path names one element.
-/

namespace ModelServer

/-- Why a section or the project has no compiled form. -/
structure CompileFault where
  message : String
  location : Option Location
  /-- Whether it was raised, or only recorded. -/
  raised : Bool
  deriving DecidableEq, Repr

namespace CompileFault

def fault (f : CompileFault) : Fault :=
  .uncompiled f.message f.location

def incident (f : CompileFault) : Incident :=
  if f.raised then .raised f.fault else .kept f.fault

/-- The fault of a project of which nothing is known. -/
def absent : CompileFault :=
  ⟨"Project has no compiled model", none, false⟩

/-- The result that tells of the fault. -/
def result (f : CompileFault) (path : String) : Result :=
  Result.telling path f.message f.incident.trace f.location

end CompileFault

/-- What parsing a section gave. -/
inductive Parsed where
  | elements (es : List Element)
  | faulty (fault : CompileFault)
  deriving Repr

namespace Parsed

/-- The elements; none if the section does not parse. -/
def toList : Parsed → List Element
  | elements es => es
  | faulty _ => []

/-- The first element of that path. -/
def element? (p : Parsed) (path : String) : Option Element :=
  p.toList.find? (·.path == path)

end Parsed

/-- The elements of the project by path, and the compiled forms of its services. -/
structure CompiledModel where
  elements : List (String × Element)
  forms : List (String × CompiledService)
  deriving Repr

namespace CompiledModel

/-- The model of those elements. -/
def ofElements (elements : List Element) (forms : List (String × CompiledService)) :
    CompiledModel :=
  ⟨Dictionary.ofList (elements.map fun e ↦ (e.path, e)), forms⟩

def element? (m : CompiledModel) (path : String) : Option Element :=
  m.elements.lookup path

def form? (m : CompiledModel) (path : String) : Option CompiledService :=
  m.forms.lookup path

/-- Where the element of that path stands. -/
def resolveElement (m : CompiledModel) (path : String) : Option Location :=
  (m.element? path).bind (·.source)

/-- Where the profile of that path declares the stereotype. -/
def resolveStereotype (m : CompiledModel) (profile value : String) : Option Location :=
  ((m.element? profile).bind (·.profile?)).bind fun p ↦ Profile.sourceOf p.stereotypes value

/-- Where the profile of that path declares the tag. -/
def resolveTag (m : CompiledModel) (profile tag : String) : Option Location :=
  ((m.element? profile).bind (·.profile?)).bind fun p ↦ Profile.sourceOf p.tags tag

end CompiledModel

/-- What compiling the project gave. -/
inductive Compiled where
  | model (m : CompiledModel)
  | faulty (fault : CompileFault)
  /-- Neither a model nor an error. -/
  | nothing
  deriving Repr

namespace Compiled

/-- The model, or why there is none. -/
def toExcept : Compiled → Except CompileFault CompiledModel
  | model m => .ok m
  | faulty f => .error f
  | nothing => .error .absent

/-- The model, if there is one. -/
def model? : Compiled → Option CompiledModel
  | model m => some m
  | _ => none

end Compiled

end ModelServer
