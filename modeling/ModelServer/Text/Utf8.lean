import ModelServer.Text.Digits
import ModelServer.Text.Surrogate

/-!
# UTF-8

Octets are read one character at a time. Where the octets are not well formed, `step` gives the
longest run that some well-formed text starts with (or one octet if there is none) and the reason:
`decode` refuses the octets with the first such fault, `decodeLossy` puts one replacement character
for each run and goes on. The other way round, a text has no octets if surrogates stand alone in it;
`gap?` finds the first of them.
-/

namespace ModelServer.Text.Utf8

/-- Why a run of octets is no character. -/
inductive Reason where
  /-- No character starts with the octet. -/
  | start
  /-- The octet behind the run does not continue it. -/
  | continuation
  /-- The octets end before the character does. -/
  | truncated
  deriving DecidableEq, Repr

/-- What the octets at a place of a text are. -/
inductive Step where
  /-- A character, and the octets behind it. -/
  | char (c : Char) (rest : List UInt8)
  /-- An ill-formed run, and the octets behind it. -/
  | fault (run : List UInt8) (reason : Reason) (rest : List UInt8)
  deriving Repr

/-- An octet between the two bounds. -/
def within (lo hi b : UInt8) : Bool :=
  lo ≤ b && b ≤ hi

/-- The six bits that a continuing octet carries. -/
def payload (b : UInt8) : Nat :=
  b.toNat % 64

/-- Reads `owed` more octets of a character, the next of them between `lo` and `hi` and all later
ones between 80 and BF. `seen` are its octets so far, last one first, and `value` the bits they
carry. -/
def continueWith (seen : List UInt8) (value : Nat) : Nat → UInt8 → UInt8 → List UInt8 → Step
  | 0, _, _, rest => .char (Char.ofNat value) rest
  | _ + 1, _, _, [] => .fault seen.reverse .truncated []
  | owed + 1, lo, hi, b :: rest =>
    if within lo hi b then
      continueWith (b :: seen) (64 * value + payload b) owed 0x80 0xBF rest
    else .fault seen.reverse .continuation (b :: rest)

/-- The character, or the ill-formed run, that starts with the octet `b`. -/
def step (b : UInt8) (rest : List UInt8) : Step :=
  if b < 0x80 then .char (Char.ofNat b.toNat) rest
  else if within 0xC2 0xDF b then continueWith [b] (b.toNat % 32) 1 0x80 0xBF rest
  else if within 0xE0 0xEF b then
    let lo := if b == 0xE0 then 0xA0 else 0x80
    let hi := if b == 0xED then 0x9F else 0xBF
    continueWith [b] (b.toNat % 16) 2 lo hi rest
  else if within 0xF0 0xF4 b then
    let lo := if b == 0xF0 then 0x90 else 0x80
    let hi := if b == 0xF4 then 0x8F else 0xBF
    continueWith [b] (b.toNat % 8) 3 lo hi rest
  else .fault [b] .start rest

/-- The first place where octets are not well formed. -/
structure Fault where
  /-- How many octets stand before it. -/
  offset : Nat
  /-- The ill-formed run. -/
  run : List UInt8
  reason : Reason
  deriving DecidableEq, Repr

/-- The characters of the octets, with the first fault if there is one. `fuel` bounds the number of
characters; the number of octets is enough. -/
def decodeFrom : Nat → Nat → List UInt8 → Except Fault (List Char)
  | 0, _, _ => .ok []
  | _ + 1, _, [] => .ok []
  | fuel + 1, offset, b :: rest =>
    match step b rest with
    | .char c rest' => do
      let cs ← decodeFrom fuel (offset + (rest.length + 1 - rest'.length)) rest'
      return c :: cs
    | .fault run reason _ => .error ⟨offset, run, reason⟩

/-- The text that the octets are, if they are well formed throughout. -/
def decode (bs : List UInt8) : Except Fault String :=
  (decodeFrom bs.length 0 bs).map String.ofList

/-- The characters of the octets, with U+FFFD for each ill-formed run. -/
def decodeLossyFrom : Nat → List UInt8 → List Char
  | 0, _ => []
  | _ + 1, [] => []
  | fuel + 1, b :: rest =>
    match step b rest with
    | .char c rest' => c :: decodeLossyFrom fuel rest'
    | .fault _ _ rest' => '\uFFFD' :: decodeLossyFrom fuel rest'

/-- The text of the octets, with U+FFFD for each ill-formed run. -/
def decodeLossy (bs : List UInt8) : String :=
  String.ofList (decodeLossyFrom bs.length bs)

/-- The wording of a reason. -/
def Reason.message : Reason → String
  | .start => "invalid start byte"
  | .continuation => "invalid continuation byte"
  | .truncated => "unexpected end of data"

/-- The wording of a fault: it names the octet if the run has one, else the places of the run. -/
def Fault.message (f : Fault) : String :=
  let place :=
    match f.run with
    | [b] => "byte 0x" ++ String.ofList (hex 2 b.toNat) ++ " in position " ++ toString f.offset
    | run =>
      "bytes in position " ++ toString f.offset ++ "-" ++ toString (f.offset + run.length - 1)
  "'utf-8' codec can't decode " ++ place ++ ": " ++ f.reason.message

/-! ### Texts that have no octets -/

/-- A run of surrogates that stand alone. -/
structure Gap where
  /-- How many code points stand before it. -/
  offset : Nat
  run : List Nat
  deriving DecidableEq, Repr

/-- The first run of surrogates that stand alone in a text. -/
def gap? (s : String) : Option Gap :=
  let all := units s.toList
  match all.dropWhile (!isSurrogate ·) with
  | [] => none
  | rest => some ⟨all.length - rest.length, rest.takeWhile isSurrogate⟩

/-- The wording of a gap: it names the surrogate if it is one, else the places of the run. -/
def Gap.message (g : Gap) : String :=
  let place :=
    match g.run with
    | [n] => "character '\\u" ++ String.ofList (hex 4 n) ++ "' in position " ++ toString g.offset
    | run =>
      "characters in position " ++ toString g.offset ++ "-" ++
        toString (g.offset + run.length - 1)
  "'utf-8' codec can't encode " ++ place ++ ": surrogates not allowed"

end ModelServer.Text.Utf8
