import ModelServer.Api.Record
import ModelServer.Api.Free

/-!
# Requests

What clients ask for: to run a command on an element, to query what an element returns as a table,
to cancel a query. A request names an element by document and path, and may name the section.

`toJson` is the record of a request with all its values as they are. Where a request holds values of any
kind, `written?` is the record as it is written, if those values can be (`Api.Free`).
-/

namespace ModelServer.Api

open Schema

/-- An integer, or null. -/
def integerJson : Option Int → Json
  | some n => .int n
  | none => .null

/-- A request to run a command. -/
structure ExecuteRequest where
  uri : String
  sectionIndex : Option Int
  entityPath : String
  commandId : String
  executableArgs : List (String × String)
  inputParameters : Members
  deriving Repr

namespace ExecuteRequest

/-- The kind of record that the request is. -/
def title : String := "ExecuteCommandRequest"

def reader : Reader ExecuteRequest :=
  record title fun ms ↦
    ((((((field "uri" text ms).map mk).seq
      (fieldOr "section_index" (nullable integer) none ms)).seq
      (field "entity_path" text ms)).seq (field "command_id" text ms)).seq
      (fieldOr "executable_args" (dictionary text) [] ms)).seq
      (fieldOr "input_parameters" (dictionary any) [] ms)

def toJson (r : ExecuteRequest) : Json :=
  .record [("uri", .text r.uri), ("section_index", integerJson r.sectionIndex),
    ("entity_path", .text r.entityPath), ("command_id", .text r.commandId),
    ("executable_args", textsJson r.executableArgs),
    ("input_parameters", .record r.inputParameters)]

def written? (r : ExecuteRequest) : Except Fault Json :=
  (Free.namedValues r.inputParameters).map fun ps ↦ ({ r with inputParameters := ps }).toJson

end ExecuteRequest

/-- A condition on the rows of a table. -/
structure TableFilter where
  column : String
  operation : String
  value : Json
  deriving Repr

namespace TableFilter

def reader : Reader TableFilter :=
  record "TDSFilterDTO" fun ms ↦
    (((field "column" text ms).map mk).seq (field "operation" text ms)).seq
      (fieldOr "value" any .null ms)

def toJson (f : TableFilter) : Json :=
  .record [("column", .text f.column), ("operation", .text f.operation), ("value", f.value)]

/-- The condition with its value as it is written. -/
def writable (f : TableFilter) : Except Fault TableFilter :=
  (Free.written f.value).map fun v ↦ { f with value := v }

def written? (f : TableFilter) : Except Fault Json :=
  f.writable.map (·.toJson)

end TableFilter

/-- An order of the rows of a table. -/
structure TableSort where
  column : String
  order : String
  deriving DecidableEq, Repr

namespace TableSort

def reader : Reader TableSort :=
  record "TDSSortDTO" fun ms ↦ ((field "column" text ms).map mk).seq (fieldOr "order" text "asc" ms)

def toJson (s : TableSort) : Json :=
  .record [("column", .text s.column), ("order", .text s.order)]

end TableSort

/-- What a client wants of a table. -/
structure TableQuery where
  columns : List String
  filter : List TableFilter
  sort : List TableSort
  groupBy : List String
  startRow : Int
  endRow : Option Int
  deriving Repr

namespace TableQuery

/-- The whole table. -/
def all : TableQuery :=
  ⟨[], [], [], [], 0, none⟩

def reader : Reader TableQuery :=
  record "TDSRequestDTO" fun ms ↦
    ((((((fieldOr "columns" (list text) [] ms).map mk).seq
      (fieldOr "filter" (list TableFilter.reader) [] ms)).seq
      (fieldOr "sort" (list TableSort.reader) [] ms)).seq
      (fieldOr "group_by" (list text) [] ms)).seq (fieldOr "start_row" integer 0 ms)).seq
      (fieldOr "end_row" (nullable integer) none ms)

def toJson (q : TableQuery) : Json :=
  .record [("columns", .list (q.columns.map .text)), ("filter", .list (q.filter.map (·.toJson))),
    ("sort", .list (q.sort.map (·.toJson))), ("group_by", .list (q.groupBy.map .text)),
    ("start_row", .int q.startRow), ("end_row", integerJson q.endRow)]

/-- The query with the values of its conditions as they are written. -/
def writable (q : TableQuery) : Except Fault TableQuery :=
  (q.filter.mapM TableFilter.writable).map fun fs ↦ { q with filter := fs }

def written? (q : TableQuery) : Except Fault Json :=
  q.writable.map (·.toJson)

end TableQuery

/-- A request for a table. -/
structure TableRequest where
  uri : String
  sectionIndex : Option Int
  entityPath : String
  requestId : String
  request : TableQuery
  inputParameters : Members
  deriving Repr

namespace TableRequest

/-- The kind of record that the request is. -/
def title : String := "TDSQueryRequest"

def reader : Reader TableRequest :=
  record title fun ms ↦
    ((((((field "uri" text ms).map mk).seq
      (fieldOr "section_index" (nullable integer) none ms)).seq
      (field "entity_path" text ms)).seq (field "request_id" someText ms)).seq
      (fieldOr "request" TableQuery.reader TableQuery.all ms)).seq
      (fieldOr "input_parameters" (dictionary any) [] ms)

def toJson (r : TableRequest) : Json :=
  .record [("uri", .text r.uri), ("section_index", integerJson r.sectionIndex),
    ("entity_path", .text r.entityPath), ("request_id", .text r.requestId),
    ("request", r.request.toJson), ("input_parameters", .record r.inputParameters)]

def written? (r : TableRequest) : Except Fault Json := do
  let request ← r.request.writable
  let ps ← Free.namedValues r.inputParameters
  return ({ r with request, inputParameters := ps }).toJson

end TableRequest

/-- A request to cancel another. -/
structure CancelRequest where
  requestId : String
  deriving DecidableEq, Repr

namespace CancelRequest

/-- The kind of record that the request is. -/
def title : String := "CancelRequest"

def reader : Reader CancelRequest :=
  record title fun ms ↦ (field "request_id" someText ms).map mk

def toJson (r : CancelRequest) : Json :=
  .record [("request_id", .text r.requestId)]

end CancelRequest

/-- The answer to a request to cancel: whether there was anything to cancel. -/
structure CancelReply where
  requestId : String
  cancelled : Bool
  deriving DecidableEq, Repr

namespace CancelReply

def reader : Reader CancelReply :=
  record "CancelResponseDTO" fun ms ↦
    ((field "request_id" text ms).map mk).seq (field "cancelled" boolean ms)

def toJson (r : CancelReply) : Json :=
  .record [("request_id", .text r.requestId), ("cancelled", .bool r.cancelled)]

end CancelReply

end ModelServer.Api
