import ModelServer.Fault

/-!
# Values of any kind in records

A field of a record may hold any value. When the record is written, such a value is written as JSON can
hold it: a double that is no finite number becomes null. It must not be nested deeper than `maxDepth`,
and no name in it may hold a surrogate that stands alone, since names are written as octets.

The first fault in the order of writing is the one that is told.
-/

namespace ModelServer.Api

namespace Free

/-- How deep a value may be nested. -/
def maxDepth : Nat := 255

/-- The fault of a value that is nested deeper. -/
def tooDeep : Fault :=
  .plain .value "Maximum serialization depth exceeded"

/-- The name as it is written. -/
def writtenName (name : String) : Except Fault String :=
  match Text.Utf8.gap? name with
  | some gap => .error (.unencodable gap)
  | none => .ok name

mutual

/-- The value as it is written, if it is nested no deeper than `depth`. -/
def writtenWithin : Nat → Json → Except Fault Json
  | 0, _ => .error tooDeep
  | depth + 1, .list items => (writtenItems depth items).map .list
  | depth + 1, .record members => (writtenMembers depth members).map .record
  | _ + 1, .float x =>
    match x with
    | .finite _ _ => .ok (.float x)
    | _ => .ok .null
  | _ + 1, v => .ok v

/-- Each item as it is written. -/
def writtenItems (depth : Nat) : List Json → Except Fault (List Json)
  | [] => .ok []
  | v :: rest => do
    let v' ← writtenWithin depth v
    return v' :: (← writtenItems depth rest)

/-- Each member as it is written. -/
def writtenMembers (depth : Nat) : Members → Except Fault Members
  | [] => .ok []
  | (name, v) :: rest => do
    let name' ← writtenName name
    let v' ← writtenWithin depth v
    return (name', v') :: (← writtenMembers depth rest)

end

/-- The value as it is written. -/
def written (v : Json) : Except Fault Json :=
  writtenWithin maxDepth v

/-- Named values as they are written; a name of the record itself is repaired rather than refused. -/
def namedValues (members : Members) : Except Fault Members := do
  let written ← members.mapM fun m ↦ do
    let v ← written m.2
    return (Text.repaired m.1, v)
  return Dictionary.ofList written

end Free

end ModelServer.Api
