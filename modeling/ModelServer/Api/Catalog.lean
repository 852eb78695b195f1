import ModelServer.Api.Request
import ModelServer.Model.Declaration
import ModelServer.Fault

/-!
# All kinds of records

Every kind of record that the server reads, by its name. A record in its normal form has all its fields,
those that were left out with the values they then have, and no others. A record that holds a value of
any kind has a normal form only if that value can be written.
-/

namespace ModelServer.Catalog

/-- The value, or the fault of its not being a record of that kind. -/
def checked {α : Type} (title : String) : Schema.Checked α → Except Fault α
  | .ok a => .ok a
  | .bad issues => .error (.invalid title issues)

/-- A kind of record: its name, and the normal form of a record. -/
structure Entry where
  title : String
  normal : Json → Except Fault Json

/-- The kind of record that is read and written in these ways. -/
def entry {α : Type} (title : String) (read : Schema.Reader α) (write : α → Json) : Entry :=
  ⟨title, fun v ↦ (checked title (read v)).map write⟩

/-- As `entry`, for a kind of record that cannot always be written. -/
def entryIfWritten {α : Type} (title : String) (read : Schema.Reader α)
    (write? : α → Except Fault Json) : Entry :=
  ⟨title, fun v ↦ (checked title (read v)).bind write?⟩

/-- The kinds of records that elements are made of. -/
def parts : List Entry :=
  [entry "SpanDTO" Interval.reader (·.toJson),
    entry "StereotypeDTO" StereotypePointer.reader (·.toJson),
    entry "TaggedValueDTO" TaggedValue.reader (·.toJson),
    entry "PointerDTO" ElementPointer.reader (·.toJson),
    entry "ExpressionDTO" Expression.outermostReader (·.toJson),
    entry "LambdaDTO" Lambda.reader (·.toJson),
    entry "RuntimePointerDTO" RuntimeValue.pointerReader RuntimeValue.pointerJson,
    entry "EngineRuntimeDTO" EngineRuntime.reader (·.toJson),
    entry "SingleExecutionDTO" Execution.singleReader (·.toJson),
    entry "KeyedExecutionParameterDTO" Variant.reader (·.toJson),
    entry "MultiExecutionDTO" Execution.multiReader (·.toJson),
    entry "TestCaseDTO" TestCase.reader (·.toJson),
    entry "TestSuiteDTO" TestSuite.reader (·.toJson),
    entry "LegacyTestDTO" LegacyTest.reader (·.toJson),
    entry "AssertionDTO" Assertion.reader (·.toJson),
    entry "PostValidationDTO" PostValidation.reader (·.toJson),
    entry "ProfileEntryDTO" ProfileEntry.reader (·.toJson)]

/-- The kinds of records that declare elements. -/
def declarations : List Entry :=
  [entry "ElementDTO" Header.reader fun h ↦ .record h.members,
    entry "ServiceDTO" Declaration.serviceReader (·.toJson),
    entry "MappingDTO" Declaration.mappingReader (·.toJson),
    entry "RuntimeElementDTO" Declaration.runtimeReader (·.toJson),
    entry "ProfileDTO" Declaration.profileReader (·.toJson),
    entry "FunctionDTO" Declaration.functionReader (·.toJson),
    entry SectionContent.title SectionContent.reader (·.toJson)]

/-- The kinds of records that clients send and are sent. -/
def messages : List Entry :=
  [entry "TextPositionDTO" Api.PositionRecord.reader (·.toJson),
    entry "TextLocationDTO" Api.LocationRecord.reader (·.toJson),
    entry Api.ResultRecord.title Api.ResultRecord.reader (·.toJson),
    entry "CommandDTO" Api.CommandRecord.reader (·.toJson),
    entryIfWritten Api.ExecuteRequest.title Api.ExecuteRequest.reader (·.written?),
    entryIfWritten "TDSFilterDTO" Api.TableFilter.reader (·.written?),
    entry "TDSSortDTO" Api.TableSort.reader (·.toJson),
    entryIfWritten "TDSRequestDTO" Api.TableQuery.reader (·.written?),
    entryIfWritten Api.TableRequest.title Api.TableRequest.reader (·.written?),
    entry Api.CancelRequest.title Api.CancelRequest.reader (·.toJson),
    entry "CancelResponseDTO" Api.CancelReply.reader (·.toJson)]

/-- All kinds. -/
def all : List Entry :=
  parts ++ declarations ++ messages

/-- The kind of that name. -/
def find? (title : String) : Option Entry :=
  all.find? (·.title == title)

end ModelServer.Catalog
