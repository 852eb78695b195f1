import ModelServer.Model.Part
import ModelServer.Schema.Scalar
import ModelServer.Json.Printer

/-!
# How the parts of elements are written down

For each part a reader, which finds everything that is wrong with a value, and the record it is
written as. The order of the fields is the order in which issues are told, and a field that may be
left out is written with the value it then has.

Expressions nest, and their reader recurses on the value it is given. They may nest as deep as
`Expression.maxDepth`, of which one level is taken by what holds the outermost expression; one that
stands alone has that level too (`Expression.outermostReader`).
-/

namespace ModelServer

open Schema

/-- A text, or null. -/
def textJson : Option String → Json
  | some s => .text s
  | none => .null

namespace Interval

/-- The interval between two pairs of coordinates, which must not be negative and must stand in
order. -/
def ofPairs (start stop : Int × Int) : Checked Interval :=
  match Position.ofInts? start.1 start.2, Position.ofInts? stop.1 stop.2 with
  | some s, some e =>
    match ofPositions? s e with
    | some i => .ok i
    | none => .fail (.reversedSpan start stop)
  | _, _ => .fail (.negativeSpan start stop)

/-- A span of the text. -/
def reader : Reader Interval :=
  record "SpanDTO" fun ms ↦
    (((field "start" integerPair ms).map Prod.mk).seq (field "end" integerPair ms)).andThen
      fun p ↦ ofPairs p.1 p.2

def positionJson (p : Position) : Json :=
  .list [.int p.line, .int p.column]

def toJson (i : Interval) : Json :=
  .record [("start", positionJson i.start), ("end", positionJson i.stop)]

end Interval

/-- The span of a part, which may be left out. -/
def sourceField (ms : Members) : Checked (Option Interval) :=
  fieldOr "source" (nullable Interval.reader) none ms

/-- A dictionary of texts as a record. A surrogate that stands alone cannot be part of a name there, and of
two names that become one the later counts. -/
def textsJson (entries : List (String × String)) : Json :=
  .ofWritten (entries.map fun e ↦ (Text.repaired e.1, .text e.2))

/-- A span as it is written. -/
def sourceJson (source : Option Interval) : Json :=
  match source with
  | some i => i.toJson
  | none => .null

namespace StereotypePointer

def reader : Reader (StereotypePointer Interval) :=
  record "StereotypeDTO" fun ms ↦
    (((field "profile" text ms).map mk).seq (field "value" text ms)).seq (sourceField ms)

def toJson (s : StereotypePointer Interval) : Json :=
  .record [("profile", .text s.profile), ("value", .text s.value), ("source", sourceJson s.source)]

end StereotypePointer

namespace TaggedValue

def reader : Reader (TaggedValue Interval) :=
  record "TaggedValueDTO" fun ms ↦
    ((((field "profile" text ms).map mk).seq (field "tag" text ms)).seq
      (fieldOr "value" text "" ms)).seq (sourceField ms)

def toJson (t : TaggedValue Interval) : Json :=
  .record [("profile", .text t.profile), ("tag", .text t.tag), ("value", .text t.value),
    ("source", sourceJson t.source)]

end TaggedValue

namespace ElementPointer

def reader : Reader (ElementPointer Interval) :=
  record "PointerDTO" fun ms ↦ ((field "path" text ms).map mk).seq (sourceField ms)

def toJson (p : ElementPointer Interval) : Json :=
  .record [("path", .text p.path), ("source", sourceJson p.source)]

end ElementPointer

namespace Expression

/-- An expression, given the check of its children. -/
def ofFields (ms : Members) (children : Checked (List (Expression Interval))) :
    Checked (Expression Interval) :=
  ((((field "kind" text ms).map node).seq (sourceField ms)).seq
    (fieldOr "reference" (nullable text) none ms)).seq children

mutual

/-- An expression and all that is nested in it, up to `depth` levels. -/
def readerWithin : Nat → Reader (Expression Interval)
  | 0, _ => .fail .depth
  | depth + 1, .record ms => ofFields ms (readChildren depth ms)
  | _ + 1, _ => .fail (.record "ExpressionDTO")

/-- The children among the members of an expression; none if no member names them. -/
def readChildren (depth : Nat) : Members → Checked (List (Expression Interval))
  | [] => .ok []
  | (n, v) :: rest =>
    if n = "children" then (readList depth v).under (.name "children") else readChildren depth rest

/-- A list of expressions. -/
def readList (depth : Nat) : Json → Checked (List (Expression Interval))
  | .list vs => readItems depth 0 vs
  | _ => .fail .list

/-- Each expression of a list; `index` is the number of the first. -/
def readItems (depth : Nat) : Nat → List Json → Checked (List (Expression Interval))
  | _, [] => .ok []
  | index, v :: rest =>
    (((readerWithin depth v).under (.index index)).map List.cons).seq
      (readItems depth (index + 1) rest)

end

/-- How deep expressions nest at most. -/
def maxDepth : Nat := 255

/-- An expression inside something else. -/
def reader : Reader (Expression Interval) :=
  readerWithin (maxDepth - 1)

/-- An expression that stands alone. -/
def outermostReader : Reader (Expression Interval) :=
  readerWithin maxDepth

mutual

def toJson : Expression Interval → Json
  | node k s r cs =>
    .record [("kind", .text k), ("source", sourceJson s), ("reference", textJson r),
      ("children", .list (listJson cs))]

def listJson : List (Expression Interval) → List Json
  | [] => []
  | e :: rest => toJson e :: listJson rest

end

end Expression

namespace Lambda

def reader : Reader (Lambda Interval) :=
  record "LambdaDTO" fun ms ↦
    (((fieldOr "parameters" (list text) [] ms).map mk).seq
      (fieldOr "body" (list Expression.reader) [] ms)).seq (sourceField ms)

def toJson (l : Lambda Interval) : Json :=
  .record [("parameters", .list (l.parameters.map .text)),
    ("body", .list (Expression.listJson l.body)), ("source", sourceJson l.source)]

end Lambda

/-- A lambda, or null. -/
def lambdaJson : Option (Lambda Interval) → Json
  | some l => l.toJson
  | none => .null

namespace EngineRuntime

/-- The two lists that a runtime is made of. -/
def fields (ms : Members) : Checked (EngineRuntime Interval) :=
  ((fieldOr "mappings" (list ElementPointer.reader) [] ms).map mk).seq
    (fieldOr "connections" (list ElementPointer.reader) [] ms)

def reader : Reader (EngineRuntime Interval) :=
  record "EngineRuntimeDTO" fun ms ↦ ((kind "engine" ms).map fun _ r ↦ r).seq (fields ms)

def members (r : EngineRuntime Interval) : Members :=
  [("mappings", .list (r.mappings.map (·.toJson))),
    ("connections", .list (r.connections.map (·.toJson)))]

def toJson (r : EngineRuntime Interval) : Json :=
  .record (("kind", .text "engine") :: r.members)

end EngineRuntime

namespace RuntimeValue

/-- A pointer to a runtime element. -/
def pointerReader : Reader (ElementPointer Interval) :=
  record "RuntimePointerDTO" fun ms ↦
    (((kind "pointer" ms).map fun _ ↦ ElementPointer.mk).seq (field "path" text ms)).seq
      (sourceField ms)

def pointerJson (p : ElementPointer Interval) : Json :=
  .record [("kind", .text "pointer"), ("path", .text p.path), ("source", sourceJson p.source)]

def reader : Reader (RuntimeValue Interval) :=
  union [("pointer", fun v ↦ (pointerReader v).map pointer),
    ("engine", fun v ↦ (EngineRuntime.reader v).map engine)]

def toJson : RuntimeValue Interval → Json
  | pointer p => pointerJson p
  | engine r => r.toJson

end RuntimeValue

namespace Binding

/-- The fields of a binding, among the members of what holds it. -/
def fields (ms : Members) : Checked (Binding Interval) :=
  ((((fieldOr "mapping" (nullable text) none ms).map mk).seq
    (fieldOr "mapping_source" (nullable Interval.reader) none ms)).seq
    (fieldOr "runtime" (nullable RuntimeValue.reader) none ms)).seq
    (fieldOr "execution_options" (dictionary text) [] ms)

def members (b : Binding Interval) : Members :=
  [("mapping", textJson b.mapping), ("mapping_source", sourceJson b.mappingSource),
    ("runtime", match b.runtime with
      | some r => r.toJson
      | none => .null),
    ("execution_options", textsJson b.options)]

end Binding

namespace Variant

def reader : Reader (Variant Interval) :=
  record "KeyedExecutionParameterDTO" fun ms ↦
    (((field "key" text ms).map mk).seq (Binding.fields ms)).seq (sourceField ms)

def toJson (v : Variant Interval) : Json :=
  .record (("key", .text v.key) :: (v.binding.members ++ [("source", sourceJson v.source)]))

end Variant

namespace Execution

def funcField (ms : Members) : Checked (Option (Lambda Interval)) :=
  fieldOr "func" (nullable Lambda.reader) none ms

def singleReader : Reader (Execution Interval) :=
  record "SingleExecutionDTO" fun ms ↦
    (((kind "single" ms).map fun _ ↦ single).seq (funcField ms)).seq (Binding.fields ms)

def multiReader : Reader (Execution Interval) :=
  record "MultiExecutionDTO" fun ms ↦
    ((((kind "multi" ms).map fun _ ↦ multi).seq (funcField ms)).seq
      (field "execution_key" text ms)).seq
      (fieldOr "execution_parameters" (list Variant.reader) [] ms)

def reader : Reader (Execution Interval) :=
  union [("single", singleReader), ("multi", multiReader)]

def toJson : Execution Interval → Json
  | single f b => .record (("kind", .text "single") :: ("func", lambdaJson f) :: b.members)
  | multi f k vs =>
    .record [("kind", .text "multi"), ("func", lambdaJson f), ("execution_key", .text k),
      ("execution_parameters", .list (vs.map (·.toJson)))]

end Execution

namespace TestCase

def reader : Reader (TestCase Interval) :=
  record "TestCaseDTO" fun ms ↦ ((field "id" text ms).map mk).seq (sourceField ms)

def toJson (t : TestCase Interval) : Json :=
  .record [("id", .text t.id), ("source", sourceJson t.source)]

end TestCase

namespace TestSuite

def reader : Reader (TestSuite Interval) :=
  record "TestSuiteDTO" fun ms ↦
    (((field "id" text ms).map mk).seq (fieldOr "tests" (list TestCase.reader) [] ms)).seq
      (sourceField ms)

def toJson (s : TestSuite Interval) : Json :=
  .record [("id", .text s.id), ("tests", .list (s.tests.map (·.toJson))),
    ("source", sourceJson s.source)]

end TestSuite

namespace LegacyTest

def reader : Reader (LegacyTest Interval) :=
  record "LegacyTestDTO" fun ms ↦ ((fieldOr "data" text "" ms).map mk).seq (sourceField ms)

def toJson (t : LegacyTest Interval) : Json :=
  .record [("data", .text t.data), ("source", sourceJson t.source)]

end LegacyTest

namespace ProfileEntry

def reader : Reader (ProfileEntry Interval) :=
  record "ProfileEntryDTO" fun ms ↦ ((field "name" text ms).map mk).seq (sourceField ms)

def toJson (e : ProfileEntry Interval) : Json :=
  .record [("name", .text e.name), ("source", sourceJson e.source)]

end ProfileEntry

namespace Assertion

def reader : Reader (Assertion Interval) :=
  record "AssertionDTO" fun ms ↦
    ((field "id" text ms).map mk).seq
      (fieldOr "assertion" (nullable Expression.reader) none ms)

def toJson (a : Assertion Interval) : Json :=
  .record [("id", .text a.id), ("assertion", match a.assertion with
    | some e => e.toJson
    | none => .null)]

end Assertion

namespace PostValidation

def reader : Reader (PostValidation Interval) :=
  record "PostValidationDTO" fun ms ↦
    (((fieldOr "description" text "" ms).map mk).seq
      (fieldOr "parameters" (list Expression.reader) [] ms)).seq
      (fieldOr "assertions" (list Assertion.reader) [] ms)

def toJson (v : PostValidation Interval) : Json :=
  .record [("description", .text v.description),
    ("parameters", .list (Expression.listJson v.parameters)),
    ("assertions", .list (v.assertions.map (·.toJson)))]

end PostValidation

namespace Header

/-- The fields that every element has, among its members. -/
def fields (ms : Members) : Checked (Header Interval) :=
  ((((field "path" text ms).map mk).seq (sourceField ms)).seq
    (fieldOr "stereotypes" (list StereotypePointer.reader) [] ms)).seq
    (fieldOr "tagged_values" (list TaggedValue.reader) [] ms)

/-- A record of which only the header counts. -/
def reader : Reader (Header Interval) :=
  record "ElementDTO" fields

def members (h : Header Interval) : Members :=
  [("path", .text h.path), ("source", sourceJson h.source),
    ("stereotypes", .list (h.stereotypes.map (·.toJson))),
    ("tagged_values", .list (h.taggedValues.map (·.toJson)))]

end Header

end ModelServer
