import ModelServer.Fault
import ModelServer.Json.Printer

/-!
# Registering services

What is posted to an execution server beside the project itself, and how its answer is shown: an
answer that is JSON is set out on lines, members sorted and null members left out; any other answer is
shown as it is. An answer that is nested too deep is not shown.
-/

namespace ModelServer.Registration

/-- The path under which services are registered. -/
def path : String := "/service/v1/register_fullInteractive"

/-- The protocol that the project is written in. -/
def serializer : Json :=
  .record [("name", .text "pure"), ("version", .text "vX_X_X")]

/-- What the posted project is, with the elements it holds. -/
def payload (elements : List Json) (origin : Option Json) : Json :=
  .record ([("_type", .text "data"), ("serializer", serializer), ("elements", .list elements)] ++
    origin.toList.map fun o ↦ ("origin", o))

/-- Which element of the posted project is to be registered, told by its path. -/
def origin (entityPath : Json) : Json :=
  .record [("_type", .text "pointer"), ("serializer", serializer),
    ("sdlcInfo", .record [("_type", .text "alloy"), ("baseVersion", .text "latest"),
      ("version", .text "none"),
      ("packageableElementPointers",
        .list [.record [("type", .text "SERVICE"), ("path", entityPath)]])])]

/-- How a value is set out. -/
def setOut [Depths] (v : Json) : Except Fault String :=
  if Depths.showing < v.height then .error Fault.tooDeep
  else .ok (Json.pretty v.dropNulls)

/-- How an answer is shown. -/
def formatResponse [Depths] (text : String) : Except Fault String :=
  match Json.read text with
  | .ok v => setOut v
  | .error f => if f.isDepth then .error (.unreadable f) else .ok text

end ModelServer.Registration
