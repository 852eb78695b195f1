import ModelServer.Source.Location
import ModelServer.Value

/-!
# Looking into a server

What a server holds, as data for whoever looks into it: each record names its kind under `$type`, a
place is the list of its coordinates, and a double, an octet or an object, which JSON has no exact form
for, is a record of its text.
-/

namespace ModelServer.Inspection

/-- The record of a thing of that kind. -/
def typed (kind : String) (fields : Members) : Json :=
  .record (("$type", .text kind) :: fields)

/-- A thing that may be missing. -/
def optional {α : Type} (view : α → Json) : Option α → Json
  | some a => view a
  | none => .null

def text : Option String → Json :=
  optional .text

/-- Each thing in turn. -/
def each {α : Type} (view : α → Json) (as : List α) : Json :=
  .list (as.map view)

mutual

/-- Any value. -/
def value : Value → Json
  | .null => .null
  | .bool b => .bool b
  | .int n => .int n
  | .float x => .record [("$float", .text (Layout.plain.render x))]
  | .text s => .text s
  | .list vs => .list (values vs)
  | .record ms => .record (members ms)
  | .foreign a => .record [("$object", .text a.describe)]

/-- Each item. -/
def values : List Value → List Json
  | [] => []
  | v :: rest => value v :: values rest

/-- Each member. -/
def members : List (String × Value) → Members
  | [] => []
  | (n, v) :: rest => (n, value v) :: members rest

end

/-- A value of a document. -/
def json (v : Json) : Json :=
  value v.lift

def position (p : Position) : Json :=
  typed "TextPosition" [("line", .int p.line), ("column", .int p.column)]

/-- The coordinates of a run of a text: those of its start, then those of its stop. -/
def corners (start stop : Position) : List Json :=
  [.int start.line, .int start.column, .int stop.line, .int stop.column]

/-- A place: its document, then its coordinates. -/
def location : Option Location → Json :=
  optional fun l ↦ .list (.text l.document :: corners l.interval.start l.interval.stop)

/-- Names and texts, each pair a list. -/
def pairs (ps : List (String × String)) : Json :=
  each (fun p ↦ .list [.text p.1, .text p.2]) ps

end ModelServer.Inspection
