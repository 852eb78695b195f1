import ModelServer.Proofs.Server.History

/-!
# Texts told by their characters

A text is kept in UTF-8, and to take it apart into characters is most of the work of evaluating anything
that depends on a text. Here the reading of a text, its sections and the session in which it was set are
told by the list of its characters, so that a statement about one given text can be evaluated from
there.
-/

namespace ModelServer

variable [Depths]

omit [Depths] in
/-- Texts one after the other have the characters of each in turn. -/
theorem join_map_ofList (parts : List (List Char)) :
    String.join (parts.map String.ofList) = String.ofList parts.flatten := by
  apply String.toList_injective
  simp [List.flatMap_map, List.flatMap_id']

/-- The value that characters denote, or the first thing wrong with them. -/
def Json.readAll (cs : List Char) : Except Json.Fault Json :=
  (readChars cs).mapError fun stop ↦ ⟨stop.kind, cs.take (cs.length - stop.rest.length)⟩

theorem Json.read_ofList (cs : List Char) : read (String.ofList cs) = readAll cs := by
  rw [read, String.toList_ofList]
  rfl

/-- The sections of what was read. -/
def splitRead : Except Json.Fault Json → Except Fault (List (String × SectionBody))
  | .error f =>
    if f.isDepth then .error (.unreadable f)
    else .ok [("", .unreadable ("Invalid JSON: " ++ f.message))]
  | .ok v => .ok (sectionsOf v)

theorem splitSections_ofList (cs : List Char) :
    splitSections (String.ofList cs) = splitRead (Json.readAll cs) := by
  rw [splitSections, Json.read_ofList]
  cases Json.readAll cs <;> rfl

namespace History

variable {H : Type} {v : Server H}

/-- The workspace in which one document was set, told by the characters of its text. -/
def workspaceOf (id : String) (cs : List Char) (version : Int) : Workspace :=
  match splitRead (Json.readAll cs) with
  | .ok parts =>
    let d := Workspace.empty.newDocument id (String.ofList cs) version
    Workspace.empty.set d (d.sections parts)
  | .error _ => .empty

/-- **What comes of setting one document.** -/
theorem session_after_set (hp : v.collaborators.provider = DocumentProvider.provider) (host : H)
    (id : String) (cs : List Char) (version : Int) :
    (after v host [.set id (String.ofList cs) version]).session =
      { Session.new host with workspace := workspaceOf id cs version } := by
  rw [after, List.foldl_cons, List.foldl_nil, Operation.run, Collaborators.setDocument_apply hp,
    splitSections_ofList, workspaceOf]
  cases splitRead (Json.readAll cs) <;> rfl

end History

end ModelServer
