/-!
# Blank characters and trimming

Two classes of blank character are in use. `isBlank` is what trimming a line, a setting or a
number written as text goes by: the characters of Unicode's `White_Space` property and the four
information separators. `isWhiteSpace` is the property alone, which is what a number inside a
document is trimmed by.

Trimming is stated on lists of characters, so that what is cut off can be named: `trim` removes
blank characters at both ends and nothing else.
-/

namespace ModelServer.Text

/-- The `White_Space` property of Unicode. -/
def isWhiteSpace (c : Char) : Bool :=
  let n := c.toNat
  (9 ≤ n && n ≤ 13) || n == 0x20 || n == 0x85 || n == 0xA0 || n == 0x1680 ||
    (0x2000 ≤ n && n ≤ 0x200A) || n == 0x2028 || n == 0x2029 || n == 0x202F || n == 0x205F ||
    n == 0x3000

/-- A blank character: white space, or one of the separators U+001C to U+001F. -/
def isBlank (c : Char) : Bool :=
  isWhiteSpace c || (0x1C ≤ c.toNat && c.toNat ≤ 0x1F)

/-- `cs` without the characters at its end that satisfy `p`. -/
def trimRight (p : Char → Bool) (cs : List Char) : List Char :=
  (cs.reverse.dropWhile p).reverse

/-- `cs` without the characters at either end that satisfy `p`. -/
def trimBoth (p : Char → Bool) (cs : List Char) : List Char :=
  trimRight p (cs.dropWhile p)

/-- A text without the blank characters at its ends. -/
def trim (s : String) : String :=
  String.ofList (trimBoth isBlank s.toList)

/-- A text without the slashes at its end. -/
def trimSlashes (s : String) : String :=
  String.ofList (trimRight (· == '/') s.toList)

/-- A text without the slashes at its start. -/
def dropSlashes (s : String) : String :=
  String.ofList (s.toList.dropWhile (· == '/'))

/-- Every character of the text is blank; so is the empty text. -/
def allBlank (s : String) : Bool :=
  s.toList.all isBlank

end ModelServer.Text
