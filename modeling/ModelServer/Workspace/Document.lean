import ModelServer.Fault
import ModelServer.Text.Lines
import ModelServer.Text.Quoted
import ModelServer.Source.Location

/-!
# Documents and their sections

A document is a text that is open in the workspace. It falls into numbered sections, each in a grammar
and with a body that is parsed later: a document that is no JSON, or lists no sections, is one section
that cannot be read, so that every fault of a document is the fault of a section. The one exception is a
text that is nested too deep to be looked at; it cannot be set at all.
-/

namespace ModelServer

/-- A text that is open. `revision` tells apart two settings of one document, also when they agree in
all else. -/
structure Document where
  id : String
  text : String
  version : Int
  revision : Nat
  deriving DecidableEq, Repr

/-- What stands in a section. -/
inductive SectionBody where
  /-- A value, which is checked when the section is parsed. -/
  | value (v : Json)
  /-- The document could not be taken apart. -/
  | unreadable (message : String)
  deriving Repr

/-- A section of a document. -/
structure Section where
  document : Document
  index : Nat
  grammar : String
  body : SectionBody
  deriving Repr

namespace Section

/-- What stands before a position on its line. -/
def lineUpTo (s : Section) (p : Position) : String :=
  Text.lineUpTo s.document.text p.line p.column

/-- The text form of a section. -/
def describe (s : Section) : String :=
  "SectionState(document=DocumentState(document_id=" ++ Text.quoted s.document.id ++ ", text=" ++
    Text.quoted s.document.text ++ ", version=" ++ toString s.document.version ++ "), index=" ++
    toString s.index ++ ", grammar=" ++ Text.quoted s.grammar ++ ")"

end Section

/-- The grammar that a section names; the empty one if it names none. -/
def grammarOf (v : Json) : String :=
  ((v.member? "grammar").bind (·.text?)).getD ""

/-- The grammar and body of each section of a value. -/
def sectionsOf (v : Json) : List (String × SectionBody) :=
  match v.member? "sections" with
  | some (.list sections) => sections.map fun s ↦ (grammarOf s, .value s)
  | _ => [("", .unreadable "Expected an object with a 'sections' list")]

/-- The grammar and body of each section of a text. -/
def splitSections [Depths] (text : String) : Except Fault (List (String × SectionBody)) :=
  match Json.read text with
  | .error f =>
    if f.isDepth then .error (.unreadable f)
    else .ok [("", .unreadable ("Invalid JSON: " ++ f.message))]
  | .ok v => .ok (sectionsOf v)

/-- The sections of a document. -/
def Document.sections (d : Document) (parts : List (String × SectionBody)) : List Section :=
  parts.zipIdx.map fun p ↦ ⟨d, p.2, p.1.1, p.1.2⟩

end ModelServer
