import ModelServer.Number.Layout
import ModelServer.Text.Quoted
import ModelServer.Dictionary

/-!
# Dynamic data

Documents, requests and plans are trees of the values a JSON text can denote. `Data α` is such a tree
with leaves of one more kind, `α`, for what a collaborator may hand over and no text can denote;
`Json` has no such leaves.

A record is a list of members in the order in which they were written, each name at most once:
a name that is written again keeps its place (`Dictionary.put`).
-/

namespace ModelServer

/-- A tree of JSON values with further leaves of type `α`. -/
inductive Data (α : Type) where
  | null
  | bool (b : Bool)
  | int (n : Int)
  | float (x : Binary64)
  | text (s : String)
  | list (items : List (Data α))
  | record (members : List (String × Data α))
  | foreign (a : α)
  deriving Repr, Inhabited

/-- A value that a JSON text denotes. -/
abbrev Json := Data Empty

/-- The members of a record. -/
abbrev Members := List (String × Json)

namespace Data

variable {α : Type}

/-- The value under a name, if the members have one. -/
def lookup (name : String) (members : List (String × Data α)) : Option (Data α) :=
  members.lookup name

/-- The record whose members are written in that order, a later value replacing an earlier one of
the same name. -/
def ofWritten (members : List (String × Data α)) : Data α :=
  .record (Dictionary.ofList members)

/-- The member of that name, if the value is a record that has it. -/
def member? (name : String) : Data α → Option (Data α)
  | .record members => lookup name members
  | _ => none

/-- The text, if the value is one. -/
def text? : Data α → Option String
  | .text s => some s
  | _ => none

/-- The value is null. -/
def isNull : Data α → Bool
  | .null => true
  | _ => false

mutual

/-- The value without the members of records that are null, at every depth. Null items of lists
stay. -/
def dropNulls : Data α → Data α
  | .list items => .list (dropNullsList items)
  | .record members => .record (dropNullsMembers members)
  | v => v

/-- `dropNulls` on each item. -/
def dropNullsList : List (Data α) → List (Data α)
  | [] => []
  | v :: rest => dropNulls v :: dropNullsList rest

/-- `dropNulls` on each member, those that are null left out. -/
def dropNullsMembers : List (String × Data α) → List (String × Data α)
  | [] => []
  | (n, v) :: rest =>
    if v.isNull then dropNullsMembers rest else (n, dropNulls v) :: dropNullsMembers rest

end

mutual

/-- How deep lists and records are nested in the value. -/
def height : Data α → Nat
  | .list items => heightList items + 1
  | .record members => heightMembers members + 1
  | _ => 0

/-- The greatest height of an item. -/
def heightList : List (Data α) → Nat
  | [] => 0
  | v :: rest => max (height v) (heightList rest)

/-- The greatest height of a member's value. -/
def heightMembers : List (String × Data α) → Nat
  | [] => 0
  | (_, v) :: rest => max (height v) (heightMembers rest)

end

mutual

/-- Puts `f a` in the place of each leaf `a`. -/
def bind {β : Type} (f : α → Data β) : Data α → Data β
  | .null => .null
  | .bool b => .bool b
  | .int n => .int n
  | .float x => .float x
  | .text s => .text s
  | .list items => .list (bindList f items)
  | .record members => .record (bindMembers f members)
  | .foreign a => f a

/-- `bind` on each item. -/
def bindList {β : Type} (f : α → Data β) : List (Data α) → List (Data β)
  | [] => []
  | v :: rest => bind f v :: bindList f rest

/-- `bind` on the value of each member. -/
def bindMembers {β : Type} (f : α → Data β) : List (String × Data α) → List (String × Data β)
  | [] => []
  | (n, v) :: rest => (n, bind f v) :: bindMembers f rest

end

/-- A value of a document as one that may have leaves of any further kind. -/
def lift {α : Type} : Json → Data α :=
  bind fun e ↦ nomatch e

/-- The name of the type of a value, as messages give it. -/
def typeName (leaf : α → String) : Data α → String
  | .null => "NoneType"
  | .bool _ => "bool"
  | .int _ => "int"
  | .float _ => "float"
  | .text _ => "str"
  | .list _ => "list"
  | .record _ => "dict"
  | .foreign a => leaf a

/-- The texts `parts` with `between` between them. -/
def joinChars (between : List Char) : List (List Char) → List Char
  | [] => []
  | [p] => p
  | p :: q :: rest => p ++ between ++ joinChars between (q :: rest)

mutual

/-- How a value is shown inside a message, text in quotes. -/
def inspect (leaf : α → String) : Data α → List Char
  | .null => "None".toList
  | .bool b => (if b then "True" else "False").toList
  | .int n => (toString n).toList
  | .float x => (Layout.plain.render x).toList
  | .text s => (Text.quoted s).toList
  | .list items => '[' :: (joinChars [',', ' '] (inspectList leaf items) ++ [']'])
  | .record members => '{' :: (joinChars [',', ' '] (inspectMembers leaf members) ++ ['}'])
  | .foreign a => (leaf a).toList

/-- `inspect` on each item. -/
def inspectList (leaf : α → String) : List (Data α) → List (List Char)
  | [] => []
  | v :: rest => inspect leaf v :: inspectList leaf rest

/-- `inspect` on each member: the quoted name, a colon, the value. -/
def inspectMembers (leaf : α → String) : List (String × Data α) → List (List Char)
  | [] => []
  | (n, v) :: rest =>
    ((Text.quoted n).toList ++ [':', ' '] ++ inspect leaf v) :: inspectMembers leaf rest

end

/-- How a value is shown where it stands alone: a text is shown as it is. -/
def describe (leaf : α → String) : Data α → String
  | .text s => s
  | v => String.ofList (inspect leaf v)

end Data

/-- How a value of a document is shown where it stands alone. -/
def Json.describe (v : Json) : String :=
  Data.describe (fun e ↦ nomatch e) v

end ModelServer
