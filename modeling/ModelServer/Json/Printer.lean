import ModelServer.Json.Data

/-!
# Writing JSON text

Two forms are written, both with members sorted by name and in ASCII alone: `pretty` puts each item
on a line of its own, two columns further in than what holds it; `compact` puts all on one line.
Leaves that are no JSON are written as text, by a function the caller gives.
-/

namespace ModelServer.Json

/-- The escape of one UTF-16 unit. -/
def unitEscape (n : Nat) : List Char :=
  '\\' :: 'u' :: Text.hex 4 n

/-- One character as it stands inside a text literal. -/
def escapeChar (c : Char) : List Char :=
  match c with
  | '"' => ['\\', '"']
  | '\\' => ['\\', '\\']
  | '\n' => ['\\', 'n']
  | '\r' => ['\\', 'r']
  | '\t' => ['\\', 't']
  | '\x08' => ['\\', 'b']
  | '\x0c' => ['\\', 'f']
  | c =>
    let n := c.toNat
    if 0x20 ≤ n ∧ n < 0x7F then [c]
    else if n < 0x10000 then unitEscape n
    else unitEscape (0xD800 + (n - 0x10000) / 0x400) ++ unitEscape (0xDC00 + (n - 0x10000) % 0x400)

/-- One code point as it stands inside a text literal. -/
def escapeCodePoint (n : Nat) : List Char :=
  if Text.isSurrogate n then unitEscape n else escapeChar (Char.ofNat n)

/-- A text literal. -/
def writeText (s : String) : List Char :=
  '"' :: ((Text.units s.toList).flatMap escapeCodePoint ++ ['"'])

/-- How items are set apart. -/
inductive Style where
  /-- All on one line. -/
  | compact
  /-- Each item on a line of its own. -/
  | pretty
  deriving DecidableEq, Repr

/-- What starts the line of an item that is nested `depth` deep. -/
def Style.newline : Style → Nat → List Char
  | .compact, _ => []
  | .pretty, depth => '\n' :: List.replicate (2 * depth) ' '

/-- What stands between two items. -/
def Style.separator : Style → Nat → List Char
  | .compact, _ => [',', ' ']
  | .pretty, depth => ',' :: Style.pretty.newline depth

/-- The items between brackets, those nested `depth + 1` deep. -/
def Style.enclose (style : Style) (opening closing : Char) (depth : Nat) :
    List (List Char) → List Char
  | [] => [opening, closing]
  | items =>
    opening :: (style.newline (depth + 1) ++
      Data.joinChars (style.separator (depth + 1)) items ++ style.newline depth ++ [closing])

mutual

/-- The text of a value that stands `depth` deep. -/
def writeAt {α : Type} (style : Style) (leaf : α → String) (depth : Nat) : Data α → List Char
  | .null => "null".toList
  | .bool b => (if b then "true" else "false").toList
  | .int n => (toString n).toList
  | .float x => (Layout.document.render x).toList
  | .text s => writeText s
  | .list items => style.enclose '[' ']' depth (writeItems style leaf (depth + 1) items)
  | .record members =>
    style.enclose '{' '}' depth ((Dictionary.sort (writeMembers style leaf (depth + 1) members)).map
      fun m ↦ writeText m.1 ++ [':', ' '] ++ m.2)
  | .foreign a => writeText (leaf a)

/-- The texts of the items. -/
def writeItems {α : Type} (style : Style) (leaf : α → String) (depth : Nat) :
    List (Data α) → List (List Char)
  | [] => []
  | v :: rest => writeAt style leaf depth v :: writeItems style leaf depth rest

/-- The names of the members, each with the text of its value. -/
def writeMembers {α : Type} (style : Style) (leaf : α → String) (depth : Nat) :
    List (String × Data α) → List (String × List Char)
  | [] => []
  | (n, v) :: rest => (n, writeAt style leaf depth v) :: writeMembers style leaf depth rest

end

/-- The text of a value, each item on a line of its own. -/
def pretty (v : Json) : String :=
  String.ofList (writeAt .pretty (fun e ↦ nomatch e) 0 v)

/-- The text of a value on one line. -/
def compact (v : Json) : String :=
  String.ofList (writeAt .compact (fun e ↦ nomatch e) 0 v)

end ModelServer.Json
