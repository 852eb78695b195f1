import ModelServer.Text.Digits

/-!
# Texts and keys in settings

A text is *literal*, between single quotes and without escapes, or *basic*, between double quotes and
with escapes; either may be on several lines, between three quotes. Control characters other than the
tab must be escaped. A key is a run of bare parts and one-line texts with points between them.

The readers take characters from the front and hand back the rest; they fail on what is not well
formed.
-/

namespace ModelServer.Toml

/-- A control character that may not stand as it is. -/
def isForbidden (c : Char) : Bool :=
  (c.toNat < 0x20 && c != '\t') || c.toNat == 0x7F

/-- A blank within a line. -/
def isSpace (c : Char) : Bool :=
  c == ' ' || c == '\t'

/-- The rest behind blanks. -/
def skipSpace (cs : List Char) : List Char :=
  cs.dropWhile isSpace

/-- The rest behind blanks and ends of lines. -/
def skipLines (cs : List Char) : List Char :=
  cs.dropWhile fun c ↦ isSpace c || c == '\n'

namespace Literal

/-- The character that `count` hexadecimal digits at the front denote. -/
def escaped? (count : Nat) (cs : List Char) : Option (Char × List Char) := do
  let ds ← (cs.take count).mapM Text.hexValue?
  let n := ds.foldl (fun n d ↦ 16 * n + d) 0
  if ds.length = count ∧ n.isValidChar then return (Char.ofNat n, cs.drop count) else none

/-- The character that a letter behind a backslash denotes. -/
def short? : Char → Option Char
  | 'b' => some '\x08'
  | 't' => some '\t'
  | 'n' => some '\n'
  | 'f' => some '\x0c'
  | 'r' => some '\r'
  | '"' => some '"'
  | '\\' => some '\\'
  | _ => none

/-- An escape behind its backslash. -/
def escape? : List Char → Option (Char × List Char)
  | 'u' :: rest => escaped? 4 rest
  | 'U' :: rest => escaped? 8 rest
  | c :: rest => (short? c).map (·, rest)
  | [] => none

/-- The rest behind a backslash that ends its line, and behind the blank that follows. -/
def continued? (cs : List Char) : Option (List Char) :=
  match skipSpace cs with
  | '\n' :: rest => some (skipLines rest)
  | _ => none

/-- The rest of a basic text on one line, `seen` being its characters so far, last one first. -/
def basic? : Nat → List Char → List Char → Option (String × List Char)
  | 0, _, _ => none
  | _ + 1, _, [] => none
  | _ + 1, seen, '"' :: rest => some (String.ofList seen.reverse, rest)
  | fuel + 1, seen, '\\' :: rest => do
    let (c, rest) ← escape? rest
    basic? fuel (c :: seen) rest
  | fuel + 1, seen, c :: rest =>
    if isForbidden c then none else basic? fuel (c :: seen) rest

/-- The rest of a basic text on several lines, up to its first three quotes. -/
def basicLines? : Nat → List Char → List Char → Option (List Char × List Char)
  | 0, _, _ => none
  | _ + 1, _, [] => none
  | _ + 1, seen, '"' :: '"' :: '"' :: rest => some (seen.reverse, rest)
  | fuel + 1, seen, '\\' :: rest =>
    match continued? rest with
    | some rest => basicLines? fuel seen rest
    | none => do
      let (c, rest) ← escape? rest
      basicLines? fuel (c :: seen) rest
  | fuel + 1, seen, c :: rest =>
    if isForbidden c && c != '\n' then none else basicLines? fuel (c :: seen) rest

/-- The rest of a literal text on one line. -/
def plain? (cs : List Char) : Option (String × List Char) :=
  match cs.span (· != '\'') with
  | (content, _ :: rest) =>
    if content.any isForbidden then none else some (String.ofList content, rest)
  | (_, []) => none

/-- The rest of a literal text on several lines, up to its first three quotes. -/
def plainLines? : List Char → List Char → Option (List Char × List Char)
  | _, [] => none
  | seen, '\'' :: '\'' :: '\'' :: rest => some (seen.reverse, rest)
  | seen, c :: rest =>
    if isForbidden c && c != '\n' then none else plainLines? (c :: seen) rest

/-- Up to two quotes behind the three that end a text belong to it. -/
def trailing (quote : Char) : List Char × List Char → List Char × List Char
  | (content, a :: b :: rest) =>
    if a = quote ∧ b = quote then (content ++ [a, b], rest)
    else if a = quote then (content ++ [a], b :: rest)
    else (content, a :: b :: rest)
  | (content, [a]) => if a = quote then (content ++ [a], []) else (content, [a])
  | r => r

/-- The first end of line of a text on several lines does not belong to it. -/
def dropNewline : List Char → List Char
  | '\n' :: rest => rest
  | cs => cs

/-- A text on one line. -/
def line? : List Char → Option (String × List Char)
  | '"' :: rest => basic? (rest.length + 1) [] rest
  | '\'' :: rest => plain? rest
  | _ => none

/-- A text. -/
def read? : List Char → Option (String × List Char)
  | '"' :: '"' :: '"' :: rest =>
    (basicLines? (rest.length + 1) [] (dropNewline rest)).map fun r ↦
      let (content, rest) := trailing '"' r
      (String.ofList content, rest)
  | '\'' :: '\'' :: '\'' :: rest =>
    (plainLines? [] (dropNewline rest)).map fun r ↦
      let (content, rest) := trailing '\'' r
      (String.ofList content, rest)
  | cs => line? cs

end Literal

/-- A key: its first part, and the parts behind the points. -/
structure Key where
  first : String
  more : List String
  deriving DecidableEq, Repr

namespace Key

/-- A character of a bare part. -/
def isBare (c : Char) : Bool :=
  c.isAlphanum || c == '-' || c == '_'

/-- A key can start with the character. -/
def canStart (c : Char) : Bool :=
  isBare c || c == '"' || c == '\''

/-- One part. -/
def part? (cs : List Char) : Option (String × List Char) :=
  match cs.span isBare with
  | ([], _) => Literal.line? cs
  | (bare, rest) => some (String.ofList bare, rest)

/-- The parts behind the first one. -/
def partsFrom? : Nat → List String → List Char → Option (List String × List Char)
  | 0, _, _ => none
  | fuel + 1, seen, '.' :: rest => do
    let (p, rest) ← part? (skipSpace rest)
    partsFrom? fuel (p :: seen) (skipSpace rest)
  | _ + 1, seen, cs => some (seen.reverse, cs)

/-- The key at the front, and the rest behind the blanks that follow it. -/
def read? (cs : List Char) : Option (Key × List Char) := do
  let (first, rest) ← part? cs
  let (more, rest) ← partsFrom? (rest.length + 1) [] (skipSpace rest)
  return (⟨first, more⟩, rest)

/-- All parts. -/
def parts (k : Key) : List String :=
  k.first :: k.more

end Key

end ModelServer.Toml
