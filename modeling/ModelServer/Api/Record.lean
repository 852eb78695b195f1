import ModelServer.Schema.Scalar
import ModelServer.Source.Location
import ModelServer.Model.PartSchema

/-!
# Records that the server answers with

Results and commands as clients see them. A client may send such a record back, so each has a reader
beside the form it is written in; coordinates of a record are any integers.
-/

namespace ModelServer.Api

open Schema

structure PositionRecord where
  line : Int
  column : Int
  deriving DecidableEq, Repr

namespace PositionRecord

def ofPosition (p : Position) : PositionRecord :=
  ⟨p.line, p.column⟩

def reader : Reader PositionRecord :=
  record "TextPositionDTO" fun ms ↦ ((field "line" integer ms).map mk).seq (field "column" integer ms)

def toJson (p : PositionRecord) : Json :=
  .record [("line", .int p.line), ("column", .int p.column)]

end PositionRecord

structure LocationRecord where
  document : String
  start : PositionRecord
  stop : PositionRecord
  deriving DecidableEq, Repr

namespace LocationRecord

def ofLocation (l : Location) : LocationRecord :=
  ⟨l.document, .ofPosition l.interval.start, .ofPosition l.interval.stop⟩

def reader : Reader LocationRecord :=
  record "TextLocationDTO" fun ms ↦
    (((field "document_id" text ms).map mk).seq (field "start" PositionRecord.reader ms)).seq
      (field "end" PositionRecord.reader ms)

def toJson (l : LocationRecord) : Json :=
  .record [("document_id", .text l.document), ("start", l.start.toJson), ("end", l.stop.toJson)]

/-- A location, or null. -/
def optionJson : Option LocationRecord → Json
  | some l => l.toJson
  | none => .null

end LocationRecord

/-- A location that may be left out. -/
def locationField (ms : Members) : Checked (Option LocationRecord) :=
  fieldOr "location" (nullable LocationRecord.reader) none ms

/-- The record of a result. -/
structure ResultRecord where
  ids : List String
  type : String
  message : String
  logMessage : Option String
  location : Option LocationRecord
  deriving DecidableEq, Repr

namespace ResultRecord

/-- The kind of record that a result is. -/
def title : String := "ExecutionResultDTO"

def reader : Reader ResultRecord :=
  record title fun ms ↦
    (((((field "ids" (list text) ms).map mk).seq (field "type" text ms)).seq
      (field "message" text ms)).seq (fieldOr "log_message" (nullable text) none ms)).seq
      (locationField ms)

def toJson (r : ResultRecord) : Json :=
  .record [("ids", .list (r.ids.map .text)), ("type", .text r.type), ("message", .text r.message),
    ("log_message", textJson r.logMessage), ("location", LocationRecord.optionJson r.location)]

end ResultRecord

structure CommandRecord where
  entityPath : String
  id : String
  title : String
  location : Option LocationRecord
  executableArgs : List (String × String)
  deriving DecidableEq, Repr

namespace CommandRecord

def reader : Reader CommandRecord :=
  record "CommandDTO" fun ms ↦
    (((((field "entity_path" text ms).map mk).seq (field "id" text ms)).seq
      (field "title" text ms)).seq (locationField ms)).seq
      (fieldOr "executable_args" (dictionary text) [] ms)

def toJson (c : CommandRecord) : Json :=
  .record [("entity_path", .text c.entityPath), ("id", .text c.id), ("title", .text c.title),
    ("location", LocationRecord.optionJson c.location),
    ("executable_args", textsJson c.executableArgs)]

end CommandRecord

end ModelServer.Api
