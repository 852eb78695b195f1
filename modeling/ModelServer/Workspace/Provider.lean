import ModelServer.Session.Collaborator
import ModelServer.Model.Declaration
import ModelServer.Registration

/-!
# Reading documents

The provider that reads documents as JSON. A section parses if its body is a section as the schema has
it; the project compiles if every section parses and no path is declared twice, and the first thing that
is wrong, in the order of documents, sections and declarations, is why it does not.
-/

namespace ModelServer

namespace Section

/-- What the section holds, if its body is as the schema has it. -/
def content (s : Section) : Except Fault SectionContent :=
  match s.body with
  | .unreadable message => .error (.uncompiled message none)
  | .value v =>
    match SectionContent.reader v with
    | .ok c => .ok c
    | .bad issues => .error (.invalid SectionContent.title issues)

/-- The elements of the section, or why it does not parse. -/
def parse (s : Section) : Parsed :=
  match s.body with
  | .unreadable message => .faulty ⟨message, none, true⟩
  | .value v =>
    match SectionContent.reader v with
    | .ok c => .elements (c.declarations.map (Declaration.toElement s.document.id))
    | .bad issues =>
      .faulty ⟨s.document.id ++ ": " ++ Schema.describe SectionContent.title issues, none, false⟩

/-- The compiled forms of the services that the section declares. -/
def compiledForms (s : Section) : Except Fault (List (String × CompiledService)) :=
  s.content.map fun c ↦
    (c.declarations.filterMap (Declaration.compiled? s.document.id)).map fun f ↦ (f.path, f)

/-- The records of the section's elements, as they are posted: fields that are null left out. -/
def records (s : Section) : Except Fault (List Json) :=
  s.content.map fun c ↦ c.declarations.map fun d ↦ d.toJson.dropNulls

end Section

namespace DocumentProvider

/-- Adds elements to those there are, unless one declares a path that is declared already: then the
fault of the first that does, located at it. -/
def addElements (seen : List Element) : List Element → Except CompileFault (List Element)
  | [] => .ok seen
  | e :: rest =>
    if seen.any (·.path == e.path) then
      .error ⟨"Duplicate element: " ++ e.path, e.source, false⟩
    else addElements (seen ++ [e]) rest

variable {H : Type}

/-- Compiles the sections one after the other, given what was found in those before. -/
def compileFrom (parse : Section → Action H Parsed) (elements : List Element)
    (forms : List (String × CompiledService)) : List Section → Action H Compiled
  | [] => return .model (.ofElements elements forms)
  | s :: rest => do
    match ← parse s with
    | .faulty f => return .faulty f
    | .elements es =>
      match addElements elements es with
      | .error f => return .faulty f
      | .ok elements' =>
        let more ← Action.ofExcept s.compiledForms
        compileFrom parse elements' (more.foldl (fun d e ↦ Dictionary.put e.1 e.2 d) forms) rest

/-- The records of all sections. -/
def recordsOf (sections : List Section) : Except Fault (List Json) :=
  (sections.mapM Section.records).map List.flatten

/-- The provider. -/
def provider [Depths] : ModelProvider H where
  split d := splitSections d.text
  parse s := pure s.parse
  compile sections parse := compileFrom parse [] [] sections
  serialize sections origin :=
    Action.ofExcept ((recordsOf sections).map fun rs ↦ Registration.payload rs origin)

end DocumentProvider

end ModelServer
