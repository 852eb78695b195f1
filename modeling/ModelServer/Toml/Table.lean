import ModelServer.Json.Data
import ModelServer.Toml.Moment
import ModelServer.Toml.Literal

/-!
# Tables under construction

Settings are written statement by statement, and each statement adds to the tables that those before it
made. A `Node` is what stands under a name so far. What may still be added to it depends on how it came
to be there:

* a value, a list and an inline table among them, is complete;
* a table under a header of its own is complete but for what is written below that header;
* a table that keys with points made can be added to by such keys until the next header, and not be
  given a header;
* a table that was only passed through on the way to another one can be added to in every way.

Of an array of tables only the last can be added to.
-/

namespace ModelServer.Toml

/-- A value that settings can hold. -/
abbrev Value := Data Moment

/-- How a table came to be. -/
inductive Opening where
  /-- It was passed through by the header of another one. -/
  | passed
  /-- It was made by a key with points since the last header. -/
  | dotted
  /-- It has a header, or was made by a key with points before the last header. -/
  | closed
  deriving DecidableEq, Repr

/-- What stands under a name. -/
inductive Node where
  | value (v : Value)
  | table (opening : Opening) (entries : List (String × Node))
  /-- An array of tables: those before the last one, last one first, and the last one. -/
  | tables (before : List Value) (last : List (String × Node))
  deriving Repr, Inhabited

/-- What a table holds, by name. -/
abbrev Entries := List (String × Node)

mutual

/-- The value that a node is once nothing is added to it. -/
def Node.toValue : Node → Value
  | .value v => v
  | .table _ entries => .record (Node.membersOf entries)
  | .tables before last => .list (before.reverse ++ [.record (Node.membersOf last)])

/-- `Node.toValue` under each name. -/
def Node.membersOf : List (String × Node) → List (String × Value)
  | [] => []
  | (name, node) :: rest => (name, node.toValue) :: Node.membersOf rest

end

mutual

/-- A header ends what keys with points can add to. -/
def Node.close : Node → Node
  | .value v => .value v
  | .table opening entries =>
    .table (if opening = .dotted then .closed else opening) (Node.closeEntries entries)
  | .tables before last => .tables before (Node.closeEntries last)

/-- `Node.close` under each name. -/
def Node.closeEntries : List (String × Node) → List (String × Node)
  | [] => []
  | (name, node) :: rest => (name, node.close) :: Node.closeEntries rest

end

namespace Entries

/-- Adds a value under a key. -/
def add (v : Value) : String → List String → Entries → Option Entries
  | name, [], es =>
    if (es.lookup name).isSome then none else some (Dictionary.put name (.value v) es)
  | name, next :: more, es =>
    match es.lookup name with
    | none => do return Dictionary.put name (.table .dotted (← add v next more [])) es
    | some (.table opening sub) =>
      if opening = .closed then none
      else do return Dictionary.put name (.table .dotted (← add v next more sub)) es
    | some _ => none

/-- Changes the table at the end of a path. Tables on the way are made if they are missing, and of an
array of tables the way leads into the last one. -/
def within (change : Entries → Option Entries) : List String → Entries → Option Entries
  | [], es => change es
  | name :: path, es =>
    match es.lookup name with
    | none => do return Dictionary.put name (.table .passed (← within change path [])) es
    | some (.table opening sub) => do
      return Dictionary.put name (.table opening (← within change path sub)) es
    | some (.tables before last) => do
      return Dictionary.put name (.tables before (← within change path last)) es
    | some (.value _) => none

/-- The table of that name gets a header. -/
def head (name : String) (es : Entries) : Option Entries :=
  match es.lookup name with
  | none => some (Dictionary.put name (.table .closed []) es)
  | some (.table .passed sub) => some (Dictionary.put name (.table .closed sub) es)
  | some _ => none

/-- The array of tables of that name gets one more. -/
def append (name : String) (es : Entries) : Option Entries :=
  match es.lookup name with
  | none => some (Dictionary.put name (.tables [] []) es)
  | some (.tables before last) =>
    some (Dictionary.put name (.tables (.record (Node.membersOf last) :: before) []) es)
  | some _ => none

end Entries

/-- All that the statements so far made, and the header under which the next one stands. -/
structure Draft where
  entries : Entries
  header : List String
  deriving Repr

namespace Draft

/-- Before the first statement. -/
def empty : Draft :=
  ⟨[], []⟩

/-- A value is given under a key. -/
def give (k : Key) (v : Value) (d : Draft) : Option Draft := do
  return { d with entries := ← d.entries.within (Entries.add v k.first k.more) d.header }

/-- Does something to the name at the end of the key, all tables being closed before. -/
def under (change : String → Entries → Option Entries) (k : Key) (d : Draft) : Option Draft := do
  let parts := k.parts
  let entries ← Entries.within (change (parts.getLastD k.first)) parts.dropLast
    (Node.closeEntries d.entries)
  return ⟨entries, parts⟩

/-- A table gets a header. -/
def openTable : Key → Draft → Option Draft :=
  under Entries.head

/-- An array of tables gets one more, with a header. -/
def openItem : Key → Draft → Option Draft :=
  under Entries.append

/-- The members of the whole. -/
def members (d : Draft) : List (String × Value) :=
  Node.membersOf d.entries

end Draft

end ModelServer.Toml
