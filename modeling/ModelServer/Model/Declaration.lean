import ModelServer.Model.Element
import ModelServer.Model.PartSchema

/-!
# Declarations

An element as a section of a document declares it. `Declaration.toElement` and
`Declaration.compiled?` place its spans in the document; between them they keep every field.
`Declaration.reader` and `Declaration.toJson` are its written form, in which a record's `kind` says
what it declares.
-/

namespace ModelServer

open Schema

/-- An element as it is written down. -/
inductive Declaration where
  | service (header : Header Interval) (service : Service Interval)
      (postValidations : List (PostValidation Interval))
  | mapping (header : Header Interval)
  | runtime (header : Header Interval) (runtime : EngineRuntime Interval)
  | profile (header : Header Interval) (profile : Profile Interval)
  | function (header : Header Interval) (function : Function Interval)
  deriving Repr

namespace Declaration

def header : Declaration → Header Interval
  | service h _ _ | mapping h | runtime h _ | profile h _ | function h _ => h

/-- What the declaration adds to its header, placed in a document. -/
def content (document : String) : Declaration → Content
  | service _ s _ => .service (s.map (Location.mk document))
  | mapping _ => .mapping
  | runtime _ r => .runtime (r.map (Location.mk document))
  | profile _ p => .profile (p.map (Location.mk document))
  | function _ f => .function (f.map (Location.mk document))

/-- The element that is declared, its spans placed in a document. -/
def toElement (document : String) (d : Declaration) : Element :=
  ⟨d.header.map (Location.mk document), d.content document⟩

/-- The compiled form of the service that is declared. -/
def compiled? (document : String) : Declaration → Option CompiledService
  | service h s vs =>
    some ⟨h.path, (s.execution.bind (·.func)).map (·.map (Location.mk document)),
      vs.map (·.map (Location.mk document))⟩
  | _ => none

/-! ### Reading -/

def suitesField (ms : Members) : Checked (List (TestSuite Interval)) :=
  fieldOr "test_suites" (list TestSuite.reader) [] ms

def serviceReader : Reader Declaration :=
  record "ServiceDTO" fun ms ↦
    let body :=
      (((((((kind "service" ms).map fun _ ↦ Service.mk).seq (fieldOr "pattern" text "" ms)).seq
        (fieldOr "documentation" text "" ms)).seq
        (fieldOr "execution" (nullable Execution.reader) none ms)).seq
        (suitesField ms)).seq
        (fieldOr "legacy_test" (nullable LegacyTest.reader) none ms))
    (((Header.fields ms).map service).seq body).seq
      (fieldOr "post_validations" (list PostValidation.reader) [] ms)

def mappingReader : Reader Declaration :=
  record "MappingDTO" fun ms ↦
    ((Header.fields ms).map fun h _ ↦ mapping h).seq (kind "mapping" ms)

def runtimeReader : Reader Declaration :=
  record "RuntimeElementDTO" fun ms ↦
    (((Header.fields ms).map fun h _ ↦ runtime h).seq (kind "runtime" ms)).seq
      (EngineRuntime.fields ms)

def profileReader : Reader Declaration :=
  record "ProfileDTO" fun ms ↦
    let body :=
      (((kind "profile" ms).map fun _ ↦ Profile.mk).seq
        (fieldOr "stereotype_entries" (list ProfileEntry.reader) [] ms)).seq
        (fieldOr "tag_entries" (list ProfileEntry.reader) [] ms)
    ((Header.fields ms).map profile).seq body

def functionReader : Reader Declaration :=
  record "FunctionDTO" fun ms ↦
    let body :=
      (((kind "function" ms).map fun _ ↦ Function.mk).seq (Execution.funcField ms)).seq
        (suitesField ms)
    ((Header.fields ms).map function).seq body

/-- A declaration of the kind that its member `kind` names. -/
def reader : Reader Declaration :=
  union [("service", serviceReader), ("mapping", mappingReader), ("runtime", runtimeReader),
    ("profile", profileReader), ("function", functionReader)]

/-! ### Writing -/

/-- The members of a declaration besides those of its header. -/
def bodyMembers : Declaration → Members
  | service _ s vs =>
    [("kind", .text "service"), ("pattern", .text s.pattern),
      ("documentation", .text s.documentation),
      ("execution", match s.execution with
        | some e => e.toJson
        | none => .null),
      ("test_suites", .list (s.suites.map (·.toJson))),
      ("legacy_test", match s.legacyTest with
        | some t => t.toJson
        | none => .null),
      ("post_validations", .list (vs.map (·.toJson)))]
  | mapping _ => [("kind", .text "mapping")]
  | runtime _ r => ("kind", .text "runtime") :: r.members
  | profile _ p =>
    [("kind", .text "profile"), ("stereotype_entries", .list (p.stereotypes.map (·.toJson))),
      ("tag_entries", .list (p.tags.map (·.toJson)))]
  | function _ f =>
    [("kind", .text "function"), ("func", lambdaJson f.func),
      ("test_suites", .list (f.suites.map (·.toJson)))]

/-- The record of a declaration, with every field. -/
def toJson (d : Declaration) : Json :=
  .record (d.header.members ++ d.bodyMembers)

end Declaration

/-- What a section holds: the name of its grammar, and the elements it declares. -/
structure SectionContent where
  grammar : String
  declarations : List Declaration
  deriving Repr

namespace SectionContent

/-- The kind of record that a section is. -/
def title : String := "SectionDTO"

def reader : Reader SectionContent :=
  record title fun ms ↦
    ((field "grammar" text ms).map mk).seq (fieldOr "elements" (list Declaration.reader) [] ms)

def toJson (s : SectionContent) : Json :=
  .record [("grammar", .text s.grammar), ("elements", .list (s.declarations.map (·.toJson)))]

end SectionContent

end ModelServer
