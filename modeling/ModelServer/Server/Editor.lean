import ModelServer.Server.Routing

/-!
# Answering editors

What an editor asks for and tells. Editors count places as the server does, but their ranges end before
their end, while locations hold theirs; and their coordinates are limited.
-/

namespace ModelServer.Editor

variable {H : Type}

/-- The greatest coordinate that an editor knows. -/
def maxCoordinate : Int := 2147483647

/-- A coordinate within the limits of editors. -/
def checkCoordinate (name : String) (n : Int) : Except Fault Unit :=
  if 0 ≤ n ∧ n ≤ maxCoordinate then .ok ()
  else
    .error (.plain .value ("Position." ++ name ++ " should be in range [0:" ++
      toString maxCoordinate ++ "], but was " ++ toString n ++ "."))

/-- The position with the coordinates, if an editor can know it. -/
def position (line character : Int) : Except Fault Position := do
  checkCoordinate "line" line
  checkCoordinate "character" character
  return ⟨line.toNat, character.toNat⟩

/-- A range of an editor: from its start to just before its stop. -/
structure Range where
  start : Position
  stop : Position
  deriving DecidableEq, Repr

/-- The range of the places that an interval holds. -/
def Range.ofInterval (i : Interval) : Except Fault Range := do
  let start ← position i.start.line i.start.column
  let stop ← position i.stop.line (i.stop.column + 1)
  return ⟨start, stop⟩

/-- A command shown in the text. -/
structure Lens where
  range : Range
  title : String
  /-- The request that choosing the command sends. -/
  request : Api.ExecuteRequest
  data : Api.CommandRecord

/-- The lens of a command, at a place. -/
def lens (uri : String) (c : Command) (l : Location) : Except Fault Lens := do
  let range ← Range.ofInterval l.interval
  return ⟨range, c.title, ⟨uri, none, c.entityPath, c.id, c.executableArgs, []⟩, c.record⟩

/-- The lenses of those commands that have a place. -/
def lensesOf (uri : String) (commands : List Command) : Except Fault (List Lens) :=
  (commands.filterMap fun c ↦ c.location.map (c, ·)).mapM fun p ↦ lens uri p.1 p.2

/-- The lenses of a document. -/
def lenses (server : Except Fault (Server H)) (uri : String) : Action H (List Lens) := do
  let v ← Action.ofExcept server
  Action.ofExcept (lensesOf uri (← v.documentCommands uri))

/-- The document and range that the reference at a position leads to. -/
def definition (server : Except Fault (Server H)) (uri : String) (p : Position) :
    Action H (Option (String × Range)) := do
  let v ← Action.ofExcept server
  match ← v.findDefinition uri p with
  | none => return none
  | some l => return some (l.document, ← Action.ofExcept (Range.ofInterval l.interval))

/-- How an editor shows a proposal. -/
inductive ItemKind where
  | keyword
  | snippet
  deriving DecidableEq, Repr

/-- The number by which editors know a kind. -/
def ItemKind.code : ItemKind → Nat
  | keyword => 14
  | snippet => 15

/-- The kind of a proposal. -/
def ItemKind.of (c : Completion) : ItemKind :=
  if c.description = Completion.keywordDescription then keyword else snippet

/-- What is proposed at a position. -/
def completion (server : Except Fault (Server H)) (uri : String) (p : Position) :
    Action H (List Completion) := do
  let v ← Action.ofExcept server
  v.documentCompletions uri p

/-- Takes over the text of a document that was opened or changed. -/
def sync (server : Except Fault (Server H)) (uri text : String) (version : Option Int) :
    Action H Unit := do
  let v ← Action.ofExcept server
  let _ ← v.collaborators.setDocument uri text (version.getD 0)

/-- Forgets a document that was closed. -/
def close (server : Except Fault (Server H)) (uri : String) : Action H Unit := do
  let _ ← Action.ofExcept server
  Collaborators.removeDocument uri

end ModelServer.Editor
