import ModelServer.Schema.Issue

/-!
# Checking values

`Checked α` is a value of type `α`, or everything that is wrong with what it was read from. Two
checks are put together by `Checked.seq`, which keeps the issues of both, so the order in which a
record's fields are read is the order in which their issues are told.

A `Schema.Reader α` reads values of type `α`. A record is read from its members by name, so members
that no field names have no influence, and neither has the order of the members.
-/

namespace ModelServer.Schema

/-- A value, or what is wrong. -/
inductive Checked (α : Type) where
  | ok (a : α)
  | bad (issues : List Issue)
  deriving Repr

namespace Checked

variable {α β : Type}

/-- What is wrong; nothing if there is a value. -/
def issues : Checked α → List Issue
  | ok _ => []
  | bad is => is

/-- The value, if there is one. -/
def value? : Checked α → Option α
  | ok a => some a
  | bad _ => none

/-- `f` of the value. -/
def map (f : α → β) : Checked α → Checked β
  | ok a => ok (f a)
  | bad is => bad is

/-- The function's value at the argument; the issues of the function come before those of the
argument. -/
def seq : Checked (α → β) → Checked α → Checked β
  | ok f, ok a => ok (f a)
  | ok _, bad is => bad is
  | bad is, a => bad (is ++ a.issues)

/-- Checks the value further. -/
def andThen (f : α → Checked β) : Checked α → Checked β
  | ok a => f a
  | bad is => bad is

/-- One issue with the value as a whole. -/
def fail (cause : Cause) : Checked α :=
  bad [⟨[], cause⟩]

/-- The issues as issues of the part that one step leads to. -/
def under (step : Step) : Checked α → Checked α
  | ok a => ok a
  | bad is => bad (is.map fun i ↦ { i with path := step :: i.path })

instance : Functor Checked := ⟨fun f c ↦ map f c, fun a c ↦ map (fun _ ↦ a) c⟩

instance : Seq Checked := ⟨fun f c ↦ seq f (c ())⟩

@[simp] theorem map_ok (f : α → β) (a : α) : map f (ok a) = ok (f a) := rfl

@[simp] theorem seq_ok (f : α → β) (a : α) : seq (ok f) (ok a) = ok (f a) := rfl

end Checked

/-- A way to read values of a type. -/
abbrev Reader (α : Type) := Json → Checked α

variable {α : Type}

/-- A member that must be there. -/
def field (name : String) (read : Reader α) (members : Members) : Checked α :=
  match Data.lookup name members with
  | some v => (read v).under (.name name)
  | none => (Checked.fail .missing).under (.name name)

/-- A member that may be left out, and then has the given value. -/
def fieldOr (name : String) (read : Reader α) (absent : α) (members : Members) : Checked α :=
  match Data.lookup name members with
  | some v => (read v).under (.name name)
  | none => .ok absent

/-- A value or null. -/
def nullable (read : Reader α) : Reader (Option α)
  | .null => .ok none
  | v => (read v).map some

/-- A record of the named kind, read from its members. -/
def record (title : String) (read : Members → Checked α) : Reader α
  | .record members => read members
  | _ => .fail (.record title)

/-- Reads each item; `index` is the number of the first. -/
def items (read : Reader α) : Nat → List Json → Checked (List α)
  | _, [] => .ok []
  | index, v :: rest =>
    (((read v).under (.index index)).map List.cons).seq (items read (index + 1) rest)

/-- A list. -/
def list (read : Reader α) : Reader (List α)
  | .list vs => items read 0 vs
  | _ => .fail .list

/-- Reads the value of each member. -/
def values (read : Reader α) : Members → Checked (List (String × α))
  | [] => .ok []
  | (n, v) :: rest =>
    (((read v).under (.member n)).map fun a ↦ List.cons (n, a)).seq (values read rest)

/-- A record in which the names are free and each value is of one kind. -/
def dictionary (read : Reader α) : Reader (List (String × α))
  | .record members => values read members
  | _ => .fail .dictionary

/-- A text. -/
def text : Reader String
  | .text s => .ok s
  | _ => .fail .text

/-- A text in which no surrogate stands alone. -/
def wholeText : Reader String := fun v ↦
  (text v).andThen fun s ↦ if Text.isWhole s then .ok s else .fail .brokenText

/-- A text that is not empty. -/
def someText : Reader String := fun v ↦
  (wholeText v).andThen fun s ↦ if s.isEmpty then .fail .emptyText else .ok s

/-- Any value. -/
def any : Reader Json := .ok

/-- The member that names the kind of a record. It may be left out, and has one value only. -/
def kind (expected : String) (members : Members) : Checked String :=
  fieldOr "kind" (fun
    | .text s =>
      if s = expected then .ok expected
      else .fail (if Text.isWhole s then .kind expected else .brokenText)
    | _ => .fail (.kind expected)) expected members

/-- A record of one of several kinds, told apart by the member `kind`. The kind is a step of the
path to what is wrong. -/
def union (cases : List (String × Reader α)) : Reader α
  | .record members =>
    match Data.lookup "kind" members with
    | none => .fail .untagged
    | some tag =>
      match tag.text?.bind fun t ↦ (cases.find? (·.1 = t)) with
      | some (t, read) => (read (.record members)).under (.name t)
      | none => .fail (.unknownTag (Text.repaired (Json.describe tag)) (cases.map (·.1)))
  | _ => .fail .union

end ModelServer.Schema
