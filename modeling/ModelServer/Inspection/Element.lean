import ModelServer.Inspection.Basic
import ModelServer.Model.Element

/-!
# Looking into elements

Elements and their parts as data. Nothing is left out, so two elements that look the same are the same.
-/

namespace ModelServer.Inspection

def stereotype (s : StereotypePointer Location) : Json :=
  typed "StereotypePointer"
    [("profile", .text s.profile), ("value", .text s.value), ("source", location s.source)]

def taggedValue (t : TaggedValue Location) : Json :=
  typed "TaggedValue"
    [("profile", .text t.profile), ("tag", .text t.tag), ("value", .text t.value),
      ("source", location t.source)]

/-- A pointer, as one of the named kind. -/
def pointer (kind : String) (p : ElementPointer Location) : Json :=
  typed kind [("path", .text p.path), ("source", location p.source)]

mutual

def expression : Expression Location → Json
  | .node kind source reference children =>
    typed "Expression"
      [("kind", .text kind), ("source", location source), ("reference", text reference),
        ("children", .list (expressions children))]

/-- Each expression. -/
def expressions : List (Expression Location) → List Json
  | [] => []
  | e :: rest => expression e :: expressions rest

end

def lambda : Option (Lambda Location) → Json :=
  optional fun l ↦
    typed "Lambda"
      [("parameters", each .text l.parameters), ("body", .list (expressions l.body)),
        ("source", location l.source)]

def engine (r : EngineRuntime Location) : Json :=
  typed "EngineRuntime"
    [("mappings", each (pointer "ElementPointer") r.mappings),
      ("connections", each (pointer "ElementPointer") r.connections)]

def runtime : Option (RuntimeValue Location) → Json :=
  optional fun
    | .pointer p => pointer "RuntimePointer" p
    | .engine r => engine r

/-- The fields of what holds a binding. -/
def bindingFields (b : Binding Location) : Members :=
  [("mapping", text b.mapping), ("runtime", runtime b.runtime),
    ("execution_options", pairs b.options), ("mapping_source", location b.mappingSource)]

def variant (v : Variant Location) : Json :=
  typed "KeyedExecutionParameter"
    (("key", .text v.key) :: ("source", location v.source) :: bindingFields v.binding)

def execution : Option (Execution Location) → Json :=
  optional fun
    | .single f b => typed "PureSingleExecution" (("func", lambda f) :: bindingFields b)
    | .multi f key vs =>
      typed "PureMultiExecution"
        [("func", lambda f), ("execution_key", .text key), ("execution_parameters", each variant vs)]

def testCase (t : TestCase Location) : Json :=
  typed "TestCase" [("id", .text t.id), ("source", location t.source)]

def testSuite (s : TestSuite Location) : Json :=
  typed "TestSuite"
    [("id", .text s.id), ("tests", each testCase s.tests), ("source", location s.source)]

def legacyTest : Option (LegacyTest Location) → Json :=
  optional fun t ↦ typed "LegacyTest" [("source", location t.source), ("data", .text t.data)]

def profileEntry (e : ProfileEntry Location) : Json :=
  typed "ProfileEntry" [("name", .text e.name), ("source", location e.source)]

def headerFields (h : Header Location) : Members :=
  [("path", .text h.path), ("source", location h.source),
    ("stereotypes", each stereotype h.stereotypes), ("tagged_values", each taggedValue h.taggedValues)]

/-- The kind of an element, and what its kind adds to its header. -/
def content : Content → String × Members
  | .service s =>
    ("Service",
      [("pattern", .text s.pattern), ("documentation", .text s.documentation),
        ("execution", execution s.execution), ("test_suites", each testSuite s.suites),
        ("legacy_test", legacyTest s.legacyTest)])
  | .mapping => ("Mapping", [])
  | .runtime r => ("Runtime", [("runtime", engine r)])
  | .profile p =>
    ("Profile",
      [("stereotype_entries", each profileEntry p.stereotypes),
        ("tag_entries", each profileEntry p.tags)])
  | .function f => ("Function", [("func", lambda f.func), ("test_suites", each testSuite f.suites)])

def element (e : Element) : Json :=
  typed (content e.content).1 (headerFields e.header ++ (content e.content).2)

def assertion (a : Assertion Location) : Json :=
  typed "PostValidationAssertion"
    [("id", .text a.id), ("assertion", optional expression a.assertion)]

def postValidation (v : PostValidation Location) : Json :=
  typed "PostValidation"
    [("description", .text v.description), ("parameters", .list (expressions v.parameters)),
      ("assertions", each assertion v.assertions)]

/-- The compiled form of a service. -/
def compiledService (c : CompiledService) : Json :=
  typed "CompiledService"
    [("path", .text c.path), ("func", lambda c.func),
      ("post_validations", each postValidation c.postValidations)]

end ModelServer.Inspection
