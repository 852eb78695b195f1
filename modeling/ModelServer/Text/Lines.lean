import ModelServer.Text.Surrogate

/-!
# Lines of a document

The lines a position counts by end at any of ten separators, of which a carriage return followed by
a line feed is one. A separator at the very end of the text ends the last line and starts none, so
the empty text has no lines at all.

`unifyNewlines` is what reading a file does to its text first: each carriage return, with or
without a line feed behind it, becomes one line feed.
-/

namespace ModelServer.Text

/-- A character that ends a line. -/
def isLineEnd (c : Char) : Bool :=
  let n := c.toNat
  (0x0A ≤ n && n ≤ 0x0D) || (0x1C ≤ n && n ≤ 0x1E) || n == 0x85 || n == 0x2028 || n == 0x2029

/-- The lines of what is left of a text, given the characters read of the current line, last one
first. -/
def linesFrom : List Char → List Char → List (List Char)
  | line, [] => if line.isEmpty then [] else [line.reverse]
  | line, '\r' :: '\n' :: rest => line.reverse :: linesFrom [] rest
  | line, c :: rest =>
    if isLineEnd c then line.reverse :: linesFrom [] rest else linesFrom (c :: line) rest

/-- The lines of a text, without what ends them. -/
def lines (s : String) : List (List Char) :=
  linesFrom [] s.toList

/-- The line of that number, counted from zero; beyond the last line, the empty one. -/
def line (s : String) (index : Nat) : List Char :=
  (lines s)[index]?.getD []

/-- What stands before a column of a line: columns count code points, and a column beyond the end
stands at the end. -/
def lineUpTo (s : String) (index column : Nat) : String :=
  String.ofList (front column (line s index))

/-- The text with each carriage return, or carriage return and line feed, made one line feed. -/
def unifyNewlines : List Char → List Char
  | [] => []
  | '\r' :: '\n' :: rest => '\n' :: unifyNewlines rest
  | c :: rest => (if c == '\r' then '\n' else c) :: unifyNewlines rest

end ModelServer.Text
