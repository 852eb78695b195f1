import ModelServer.Depths
import ModelServer.Json.Data
import ModelServer.Text.Surrogate

/-!
# Reading JSON text

A reader takes characters from the front of what is left and hands back the rest; a fault carries
the rest at which it lies, so its place is the number of characters before that rest. Every fault is
of a kind listed in `Fault.Kind`, and the wording is in one place.

The grammar is JSON's, with `NaN`, `Infinity` and `-Infinity` besides. Of two members of one name the
later one wins and stands in the place of the earlier. An escape may name a surrogate that stands
alone, which the text then keeps (`Text.standIn`). Two limits are set: an integer has no more than
`Text.maxDigits` digits, and values are nested no deeper than `Depths.reading`. A fault of the second
kind is told apart from all others (`Fault.isDepth`): such a text may well be JSON.

The recursion is on a bound. A value of `n` characters needs one of `2 * n + 1`, which is what
`readChars` sets: each bracket, brace and comma pays with its one character for the two steps from it
to the value behind it, so the bound is never what ends the reading.
-/

namespace ModelServer.Json

/-- What is wrong with a text that is no JSON. -/
inductive Fault.Kind where
  | value
  | name
  | colon
  | comma
  | extra
  | unterminated
  | control
  | escape
  | unicode
  | mark
  /-- An integer of so many digits. -/
  | digits (count : Nat)
  /-- A list, or else a record, that is nested too deep. -/
  | depth (list : Bool)
  deriving DecidableEq, Repr

/-- Something wrong with a text, and what is left of the text from there on. -/
structure Stop where
  kind : Fault.Kind
  rest : List Char
  deriving Repr

/-- The four characters that count as blank between tokens. -/
def isSpace (c : Char) : Bool :=
  c == ' ' || c == '\t' || c == '\n' || c == '\r'

/-- The rest behind any blank characters. -/
def skip (cs : List Char) : List Char :=
  cs.dropWhile isSpace

/-- The number that four hexadecimal digits at the front denote, and the rest. -/
def unit? : List Char → Option (Nat × List Char)
  | a :: b :: c :: d :: rest => do
    let n := ((← Text.hexValue? a) * 16 + (← Text.hexValue? b)) * 256 +
      ((← Text.hexValue? c) * 16 + (← Text.hexValue? d))
    return (n, rest)
  | _ => none

/-- The character that two UTF-16 units denote, if they are a high and a low surrogate. -/
def surrogates? (high low : Nat) : Option Char :=
  if 0xD800 ≤ high ∧ high ≤ 0xDBFF ∧ 0xDC00 ≤ low ∧ low ≤ 0xDFFF then
    some (Char.ofNat (0x10000 + (high - 0xD800) * 0x400 + (low - 0xDC00)))
  else none

/-- Reads the four digits of an escape whose letter stands at the front. They must not end the
text. -/
def escapedUnit (cs : List Char) : Except Stop (Nat × List Char) :=
  match unit? (cs.drop 1) with
  | some (n, c :: rest) => .ok (n, c :: rest)
  | _ => .error ⟨.unicode, cs⟩

/-- Reads an escape whose letter `u` stands at the front: one unit, or two that are a pair of
surrogates. The answer is what the text holds for it. -/
def unicodeEscape (cs : List Char) : Except Stop (List Char × List Char) := do
  let (high, rest) ← escapedUnit cs
  if 0xD800 ≤ high ∧ high ≤ 0xDBFF then
    match rest with
    | '\\' :: 'u' :: digits =>
      -- A second escape is looked at only if a character is left behind its four places.
      if digits.length ≤ 4 then return (Text.ofUnit high, rest)
      else
        let (low, rest') ← escapedUnit ('u' :: digits)
        match surrogates? high low with
        | some c => return ([c], rest')
        | none => return (Text.ofUnit high, rest)
    | _ => return (Text.ofUnit high, rest)
  else return (Text.ofUnit high, rest)

/-- The character that a one-letter escape denotes. -/
def shortEscape? : Char → Option Char
  | '"' => some '"'
  | '\\' => some '\\'
  | '/' => some '/'
  | 'b' => some '\x08'
  | 'f' => some '\x0c'
  | 'n' => some '\n'
  | 'r' => some '\r'
  | 't' => some '\t'
  | _ => none

/-- Reads the rest of a text literal, its opening quote being at the front of `opening`. `seen` are
the characters read so far, last one first. -/
def literal (opening : List Char) : Nat → List Char → List Char → Except Stop (String × List Char)
  | 0, _, _ => .error ⟨.unterminated, opening⟩
  | _ + 1, _, [] => .error ⟨.unterminated, opening⟩
  | _ + 1, seen, '"' :: rest => .ok (String.ofList seen.reverse, rest)
  | _ + 1, _, ['\\'] => .error ⟨.unterminated, opening⟩
  | fuel + 1, seen, '\\' :: 'u' :: rest => do
    let (read, rest') ← unicodeEscape ('u' :: rest)
    literal opening fuel (read.reverse ++ seen) rest'
  | fuel + 1, seen, '\\' :: c :: rest =>
    match shortEscape? c with
    | some e => literal opening fuel (e :: seen) rest
    | none => .error ⟨.escape, '\\' :: c :: rest⟩
  | fuel + 1, seen, c :: rest =>
    if c.toNat < 0x20 then .error ⟨.control, c :: rest⟩ else literal opening fuel (c :: seen) rest

/-- The digits at the front, and the rest. -/
def digits (cs : List Char) : List Char × List Char :=
  cs.span Text.isAsciiDigit

/-- The digits behind a point at the front, and the rest; none if no digit follows the point. -/
def fraction : List Char → List Char × List Char
  | '.' :: rest =>
    match digits rest with
    | ([], _) => ([], '.' :: rest)
    | (ds, rest') => (ds, rest')
  | cs => ([], cs)

/-- The sign at the front of an exponent: whether it is negative, and the rest. -/
def exponentSign : List Char → Bool × List Char
  | '-' :: rest => (true, rest)
  | '+' :: rest => (false, rest)
  | cs => (false, cs)

/-- The exponent at the front, and the rest; `none` if there is no whole exponent. -/
def exponent? : List Char → Option (Int × List Char)
  | c :: rest =>
    if c == 'e' || c == 'E' then
      let (negative, rest') := exponentSign rest
      match digits rest' with
      | ([], _) => none
      | (ds, rest'') =>
        let n : Int := Text.natOfDigits ds
        some (if negative then -n else n, rest'')
    else none
  | [] => none

/-- The digits before the point: a zero alone, or digits that start with another. -/
def wholePart : List Char → Option (List Char × List Char)
  | '0' :: rest => some (['0'], rest)
  | c :: rest => if Text.isAsciiDigit c then some (digits (c :: rest)) else none
  | [] => none

/-- The integer of those digits, with the rest, unless it has too many. -/
def integer (negative : Bool) (digits rest : List Char) : Except Stop (Json × List Char) :=
  if Text.maxDigits < digits.length then .error ⟨.digits digits.length, rest⟩
  else
    let n : Int := Text.natOfDigits digits
    .ok (.int (if negative then -n else n), rest)

/-- The number at the front of `cs` behind its sign: an integer unless it has a fraction or an
exponent. `whole` is what stands at the front of `cs` with its sign. -/
def number (whole : List Char) (negative : Bool) (cs : List Char) :
    Except Stop (Json × List Char) :=
  match wholePart cs with
  | none => .error ⟨.value, whole⟩
  | some (digits, rest) =>
    let (frac, rest') := fraction rest
    match frac, exponent? rest' with
    | [], none => integer negative digits rest'
    | _, none =>
      .ok (.float (.ofDecimal negative ⟨Text.natOfDigits (digits ++ frac), -frac.length⟩), rest')
    | _, some (e, rest'') =>
      .ok (.float (.ofDecimal negative ⟨Text.natOfDigits (digits ++ frac), e - frac.length⟩),
        rest'')

/-- The rest of `cs` behind `word`, if `cs` starts with it. -/
def after? : List Char → List Char → Option (List Char)
  | [], cs => some cs
  | w :: word, c :: cs => if w = c then after? word cs else none
  | _ :: _, [] => none

/-- The words that denote a value. -/
def words : List (String × Json) :=
  [("null", .null), ("true", .bool true), ("false", .bool false), ("NaN", .float .nan),
    ("Infinity", .float (.infinity false)), ("-Infinity", .float (.infinity true))]

/-- The word or number at the front. -/
def atom (cs : List Char) : Except Stop (Json × List Char) :=
  match words.findSome? fun w ↦ (after? w.1.toList cs).map (w.2, ·) with
  | some r => .ok r
  | none =>
    match cs with
    | '-' :: rest => number cs true rest
    | _ => number cs false cs

mutual

/-- Reads a value from the front; `depth` is how deep values may be nested from here on. -/
def value : Nat → Nat → List Char → Except Stop (Json × List Char)
  | 0, _, cs => .error ⟨.value, cs⟩
  | fuel + 1, depth, cs =>
    match cs, depth with
    | '"' :: rest, _ => (literal cs (rest.length + 1) [] rest).map fun r ↦ (.text r.1, r.2)
    | '{' :: _, 0 => .error ⟨.depth false, cs⟩
    | '{' :: rest, depth + 1 =>
      match skip rest with
      | '}' :: rest' => .ok (.record [], rest')
      | rest' => (membersFrom fuel depth [] rest').map fun r ↦ (.ofWritten r.1.reverse, r.2)
    | '[' :: _, 0 => .error ⟨.depth true, cs⟩
    | '[' :: rest, depth + 1 =>
      match skip rest with
      | ']' :: rest' => .ok (.list [], rest')
      | rest' => (itemsFrom fuel depth [] rest').map fun r ↦ (.list r.1.reverse, r.2)
    | _, _ => atom cs

/-- Reads the members of a record from a name at the front to the closing brace. `seen` are the
members read so far, last one first. -/
def membersFrom : Nat → Nat → Members → List Char → Except Stop (Members × List Char)
  | 0, _, _, cs => .error ⟨.name, cs⟩
  | fuel + 1, depth, seen, cs =>
    match cs with
    | '"' :: rest => do
      let (name, rest) ← literal cs (rest.length + 1) [] rest
      match skip rest with
      | ':' :: rest =>
        let (v, rest) ← value fuel depth (skip rest)
        match skip rest with
        | '}' :: rest => return ((name, v) :: seen, rest)
        | ',' :: rest => membersFrom fuel depth ((name, v) :: seen) (skip rest)
        | rest => throw ⟨.comma, rest⟩
      | rest => throw ⟨.colon, rest⟩
    | _ => .error ⟨.name, cs⟩

/-- Reads the items of a list from the first one at the front to the closing bracket. `seen` are the
items read so far, last one first. -/
def itemsFrom : Nat → Nat → List Json → List Char → Except Stop (List Json × List Char)
  | 0, _, _, cs => .error ⟨.value, cs⟩
  | fuel + 1, depth, seen, cs => do
    let (v, rest) ← value fuel depth cs
    match skip rest with
    | ']' :: rest => return (v :: seen, rest)
    | ',' :: rest => itemsFrom fuel depth (v :: seen) (skip rest)
    | rest => throw ⟨.comma, rest⟩

end

/-- Something wrong with a text, and the number of characters before it. -/
structure Fault where
  kind : Fault.Kind
  before : List Char
  deriving Repr

/-- Reads a whole text as one value. -/
def readChars [Depths] (cs : List Char) : Except Stop Json :=
  match cs with
  | '\uFEFF' :: _ => .error ⟨.mark, cs⟩
  | _ => do
    let (v, rest) ← value (2 * cs.length + 1) Depths.reading (skip cs)
    match skip rest with
    | [] => return v
    | rest => throw ⟨.extra, rest⟩

/-- The value that a text denotes, or the first thing wrong with the text. -/
def read [Depths] (s : String) : Except Fault Json :=
  (readChars s.toList).mapError fun stop ↦
    ⟨stop.kind, s.toList.take (s.toList.length - stop.rest.length)⟩

/-- The wording of each kind of fault. -/
def Fault.Kind.message : Fault.Kind → String
  | .value => "Expecting value"
  | .name => "Expecting property name enclosed in double quotes"
  | .colon => "Expecting ':' delimiter"
  | .comma => "Expecting ',' delimiter"
  | .extra => "Extra data"
  | .unterminated => "Unterminated string starting at"
  | .control => "Invalid control character at"
  | .escape => "Invalid \\escape"
  | .unicode => "Invalid \\uXXXX escape"
  | .mark => "Unexpected UTF-8 BOM (decode using utf-8-sig)"
  | .digits count => Text.tooLongMessage count
  | .depth list =>
    "maximum recursion depth exceeded while decoding a JSON " ++ (if list then "array" else "object") ++
      " from a unicode string"

/-- The place of a fault is told with it, unless a limit is what the text breaks. -/
def Fault.Kind.hasPlace : Fault.Kind → Bool
  | .digits _ | .depth _ => false
  | _ => true

/-- The line of a fault, counted from one. Only line feeds end lines here. -/
def Fault.line (f : Fault) : Nat :=
  f.before.count '\n' + 1

/-- The column of a fault, counted in code points from one. -/
def Fault.column (f : Fault) : Nat :=
  Text.size (f.before.reverse.takeWhile (· != '\n')).reverse + 1

/-- The text is nested too deep to be read. -/
def Fault.isDepth (f : Fault) : Bool :=
  match f.kind with
  | .depth _ => true
  | _ => false

/-- The wording of a fault: what is wrong, and where. -/
def Fault.message (f : Fault) : String :=
  if f.kind.hasPlace then
    f.kind.message ++ ": line " ++ toString f.line ++ " column " ++ toString f.column ++ " (char " ++
      toString (Text.size f.before) ++ ")"
  else f.kind.message

end ModelServer.Json
