import ModelServer.Json.Data

/-!
# Values as keys

A value that is looked up under is told from others by its `Key`. Numbers that are equal have one key,
however they are written, and so have a truth value and the number it counts as. Lists and records can
be changed by whoever holds them and have no key.
-/

namespace ModelServer

/-- What tells a value from others. -/
inductive Key (α : Type) where
  | null
  | text (s : String)
  | integer (n : Int)
  /-- A number that is no integer. -/
  | double (x : Binary64)
  | foreign (a : α)
  deriving DecidableEq, Repr

namespace Data

variable {α : Type}

/-- The key of a value, if it has one. -/
def key? : Data α → Option (Key α)
  | .null => some .null
  | .bool b => some (.integer (if b then 1 else 0))
  | .int n => some (.integer n)
  | .float x =>
    match x.toInt? with
    | some n => some (.integer n)
    | none => some (.double x)
  | .text s => some (.text s)
  | .foreign a => some (.foreign a)
  | .list _ | .record _ => none

/-- A value that counts as nothing: null, false, zero, and what is empty. -/
def isBlank (leaf : α → Bool) : Data α → Bool
  | .null => true
  | .bool b => !b
  | .int n => n == 0
  | .float x => x.toInt? == some 0
  | .text s => s.isEmpty
  | .list items => items.isEmpty
  | .record members => members.isEmpty
  | .foreign a => leaf a

end Data

end ModelServer
