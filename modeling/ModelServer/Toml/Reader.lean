import ModelServer.Depths
import ModelServer.Toml.Table
import ModelServer.Toml.Number

/-!
# Reading settings

Settings are a TOML 1.0 document: statements on lines of their own, each of which gives a value under a
key, or is a header under which the next ones stand. Reading stops at the first statement that is not
well formed or cannot be added to what there is. Two limits are failures of other kinds: an integer has
too many digits, or values are nested too deep. Depth is counted in the room that is left for what is
inside: a list takes some of it, and an inline table more.

The recursion is on bounds set by the length of the text, for values twice that: a bracket, a brace or a
comma pays with its one character for the two steps from it to the value behind it.
-/

namespace ModelServer.Toml

variable [Depths]

/-- Why a document is not read. -/
inductive Failure where
  | malformed
  /-- An integer has too many digits. -/
  | tooLong (digits : Nat)
  /-- Values are nested too deep. -/
  | tooDeep
  deriving DecidableEq, Repr

/-- What is well formed, or a failure. -/
def need {α : Type} : Option α → Except Failure α
  | some a => .ok a
  | none => .error .malformed

/-- The rest behind a comment, if there is one: a comment ends where its line does, and holds no
control character but the tab. -/
def skipComment : List Char → Except Failure (List Char)
  | '#' :: rest =>
    let (comment, rest') := rest.span (· != '\n')
    if comment.any isForbidden then .error .malformed else .ok rest'
  | cs => .ok cs

/-- The rest behind blanks, ends of lines and comments. -/
def skipAll : Nat → List Char → Except Failure (List Char)
  | 0, cs => .ok cs
  | fuel + 1, cs => do
    let cs := skipLines cs
    let rest ← skipComment cs
    if rest.length = cs.length then return cs else skipAll fuel rest

/-- A number, or what is told about time. -/
def scalar (cs : List Char) : Except Failure (Value × List Char) :=
  match Moment.read? cs with
  | some (m, rest) => if m.isValid then .ok (.foreign m, rest) else .error .malformed
  | none =>
    match Number.read? cs with
    | some (.int n written, rest) =>
      if Text.maxDigits < written then .error (.tooLong written) else .ok (.int n, rest)
    | some (.float x, rest) => .ok (.float x, rest)
    | none => .error .malformed

/-- A value that is no list and no table. -/
def single (cs : List Char) : Except Failure (Value × List Char) :=
  match cs with
  | '"' :: _ | '\'' :: _ => (need (Literal.read? cs)).map fun r ↦ (.text r.1, r.2)
  | 't' :: 'r' :: 'u' :: 'e' :: rest => .ok (.bool true, rest)
  | 'f' :: 'a' :: 'l' :: 's' :: 'e' :: rest => .ok (.bool false, rest)
  | _ => scalar cs

/-- The room that a list takes. -/
def listRoom : Nat := 2

/-- The room that an inline table takes. -/
def tableRoom : Nat := 3

/-- The room that is left, if there is enough. -/
def take (needed room : Nat) : Except Failure Nat :=
  if needed ≤ room then .ok (room - needed) else .error .tooDeep

mutual

/-- The value at the front; `room` is what is left for values that are nested in it. -/
def value : Nat → Nat → List Char → Except Failure (Value × List Char)
  | 0, _, _ => .error .malformed
  | fuel + 1, room, cs =>
    match cs with
    | '[' :: rest => do
      let room ← take listRoom room
      let rest ← skipAll (rest.length + 1) rest
      let (items, rest) ← itemsFrom fuel room [] rest
      return (.list items, rest)
    | '{' :: rest => do
      let room ← take tableRoom room
      match skipSpace rest with
      | '}' :: rest => return (.record [], rest)
      | rest =>
        let (entries, rest) ← entriesFrom fuel room [] rest
        return (.record (Node.membersOf entries), rest)
    | _ => single cs

/-- The items of a list, `seen` being those so far, last one first. A comma may stand behind the
last one. -/
def itemsFrom : Nat → Nat → List Value → List Char → Except Failure (List Value × List Char)
  | 0, _, _, _ => .error .malformed
  | _ + 1, _, seen, ']' :: rest => .ok (seen.reverse, rest)
  | fuel + 1, room, seen, cs => do
    let (v, rest) ← value fuel room cs
    let rest ← skipAll (rest.length + 1) rest
    match rest with
    | ']' :: rest => return ((v :: seen).reverse, rest)
    | ',' :: rest => itemsFrom fuel room (v :: seen) (← skipAll (rest.length + 1) rest)
    | _ => throw .malformed

/-- The entries of an inline table, added to those so far. No comma may stand behind the last
one. -/
def entriesFrom : Nat → Nat → Entries → List Char → Except Failure (Entries × List Char)
  | 0, _, _, _ => .error .malformed
  | fuel + 1, room, seen, cs => do
    let (k, rest) ← need (Key.read? cs)
    match rest with
    | '=' :: rest =>
      let (v, rest) ← value fuel room (skipSpace rest)
      let entries ← need (Entries.add v k.first k.more seen)
      match skipSpace rest with
      | '}' :: rest => return (entries, rest)
      | ',' :: rest => entriesFrom fuel room entries (skipSpace rest)
      | _ => throw .malformed
    | _ => throw .malformed

end

/-- A key, the sign of equality and a value. -/
def assignment (d : Draft) (cs : List Char) : Except Failure (Draft × List Char) := do
  let (k, rest) ← need (Key.read? cs)
  match rest with
  | '=' :: rest =>
    let (v, rest) ← value (2 * rest.length + 1) Depths.settings (skipSpace rest)
    return (← need (d.give k v), rest)
  | _ => throw .malformed

/-- A header, behind its first bracket. -/
def header (d : Draft) (cs : List Char) : Except Failure (Draft × List Char) := do
  match cs with
  | '[' :: rest =>
    let (k, rest) ← need (Key.read? (skipSpace rest))
    match rest with
    | ']' :: ']' :: rest => return (← need (d.openItem k), rest)
    | _ => throw .malformed
  | _ =>
    let (k, rest) ← need (Key.read? (skipSpace cs))
    match rest with
    | ']' :: rest => return (← need (d.openTable k), rest)
    | _ => throw .malformed

/-- The statement on a line that is neither blank nor a comment. -/
def statement (d : Draft) : List Char → Except Failure (Draft × List Char)
  | '[' :: rest => header d rest
  | c :: rest => if Key.canStart c then assignment d (c :: rest) else .error .malformed
  | [] => .error .malformed

/-- What is on a line may be nothing, or a comment alone. -/
def line (d : Draft) (cs : List Char) : Except Failure (Draft × List Char) :=
  match cs with
  | [] | '\n' :: _ | '#' :: _ => .ok (d, cs)
  | _ => statement d cs

/-- Reads line by line. -/
def linesFrom : Nat → Draft → List Char → Except Failure Draft
  | 0, _, _ => .error .malformed
  | fuel + 1, d, cs => do
    let (d, rest) ← line d (skipSpace cs)
    match ← skipComment (skipSpace rest) with
    | [] => return d
    | '\n' :: rest => linesFrom fuel d rest
    | _ => throw .malformed

/-- The members of the document that a text is. Lines end with line feeds alone. -/
def read (cs : List Char) : Except Failure (List (String × Value)) :=
  (linesFrom (cs.length + 1) .empty cs).map Draft.members

end ModelServer.Toml
