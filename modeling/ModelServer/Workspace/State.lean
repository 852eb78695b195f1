import ModelServer.Workspace.Document
import ModelServer.Workspace.Model

/-!
# The workspace

The documents that are open, their sections, and what is known of them: what sections were parsed to
and what the project was compiled to. Setting or removing a document forgets all that is known, so
what is remembered is always of the texts that are open now.

A section outlives its document in the hands of whoever holds it. It is current only while the very
document it was cut from is open, and only what is learnt of current sections is remembered.
-/

namespace ModelServer

structure Workspace where
  documents : List (String × Document)
  sections : List (String × List Section)
  parsed : List ((String × Nat) × Parsed)
  compiled : Option Compiled
  /-- How often documents were set or removed. -/
  generation : Nat
  deriving Repr, Inhabited

namespace Workspace

/-- No document is open. -/
def empty : Workspace :=
  ⟨[], [], [], none, 0⟩

/-- Forgets what was parsed and compiled. -/
def invalidate (w : Workspace) : Workspace :=
  { w with parsed := [], compiled := none, generation := w.generation + 1 }

/-- The document as it would be set now. -/
def newDocument (w : Workspace) (id text : String) (version : Int) : Document :=
  ⟨id, text, version, w.generation⟩

/-- Opens a document, or puts another text in its place. -/
def set (w : Workspace) (d : Document) (sections : List Section) : Workspace :=
  invalidate { w with
    documents := Dictionary.put d.id d w.documents
    sections := Dictionary.put d.id sections w.sections }

/-- Closes a document. -/
def remove (w : Workspace) (id : String) : Workspace :=
  invalidate { w with
    documents := Dictionary.erase id w.documents
    sections := Dictionary.erase id w.sections }

/-- The open document of that id. -/
def document? (w : Workspace) (id : String) : Option Document :=
  w.documents.lookup id

/-- The sections of a document, in order; none if it is not open. -/
def sectionsOf (w : Workspace) (id : String) : List Section :=
  (w.sections.lookup id).getD []

/-- The sections of all documents, the documents in the order of their ids. -/
def allSections (w : Workspace) : List Section :=
  (Dictionary.sort w.sections).flatMap (·.2)

/-- The section was cut from a document that is open now. -/
def isCurrent (w : Workspace) (s : Section) : Bool :=
  match w.document? s.document.id with
  | some d => d.revision == s.document.revision
  | none => false

/-- Under what a parsed section is remembered. -/
def parseKey (s : Section) : String × Nat :=
  (s.document.id, s.index)

/-- What a section is known to parse to. -/
def parsed? (w : Workspace) (s : Section) : Option Parsed :=
  if w.isCurrent s then w.parsed.lookup (parseKey s) else none

/-- Remembers what a section parses to. -/
def remember (w : Workspace) (s : Section) (p : Parsed) : Workspace :=
  if w.isCurrent s then { w with parsed := Dictionary.put (parseKey s) p w.parsed } else w

end Workspace

end ModelServer
