import ModelServer.Text.Quoted

/-!
# Places in documents

A position is a line and a column, both counted from zero; an interval runs from one position to
another that does not come before it, and holds both its ends; a location is an interval of a named
document.

That coordinates are not negative and intervals not reversed is part of the types, so every
location that is anywhere in a parsed element is sound. What comes from outside is checked once, by
`Position.ofInts?` and `Interval.ofPositions?`.
-/

namespace ModelServer

/-- A place in a text: line and column, counted from zero. -/
structure Position where
  line : Nat
  column : Nat
  deriving DecidableEq, Repr, Inhabited

namespace Position

/-- The order of a text: by line, and by column within a line. -/
def le (p q : Position) : Prop :=
  p.line < q.line ∨ p.line = q.line ∧ p.column ≤ q.column

instance : LE Position := ⟨le⟩

instance (p q : Position) : Decidable (p ≤ q) :=
  inferInstanceAs (Decidable (p.line < q.line ∨ p.line = q.line ∧ p.column ≤ q.column))

theorem le_iff {p q : Position} :
    p ≤ q ↔ p.line < q.line ∨ p.line = q.line ∧ p.column ≤ q.column :=
  Iff.rfl

/-- The position with the given coordinates, if neither is negative. -/
def ofInts? (line column : Int) : Option Position :=
  if line < 0 ∨ column < 0 then none else some ⟨line.toNat, column.toNat⟩

/-- The text form of a position. -/
def describe (p : Position) : String :=
  "TextPosition(line=" ++ toString p.line ++ ", column=" ++ toString p.column ++ ")"

end Position

/-- A run of a text, from its first position to its last. -/
structure Interval where
  start : Position
  stop : Position
  /-- The run does not end before it starts. -/
  ordered : start ≤ stop
  deriving DecidableEq, Repr

namespace Interval

/-- The interval between two positions, if they stand in order. -/
def ofPositions? (start stop : Position) : Option Interval :=
  if h : start ≤ stop then some ⟨start, stop, h⟩ else none

/-- The interval holds the position; both ends count. -/
def contains (i : Interval) (p : Position) : Bool :=
  decide (i.start ≤ p) && decide (p ≤ i.stop)

theorem contains_iff {i : Interval} {p : Position} :
    i.contains p = true ↔ i.start ≤ p ∧ p ≤ i.stop := by
  simp [contains]

/-- Order of intervals: by start, then by end. -/
def before (a b : Interval) : Bool :=
  if a.start = b.start then !decide (b.stop ≤ a.stop) else !decide (b.start ≤ a.start)

/-- The text form of an interval. -/
def describe (i : Interval) : String :=
  "TextInterval(start=" ++ i.start.describe ++ ", end=" ++ i.stop.describe ++ ")"

end Interval

/-- An interval of a document. -/
structure Location where
  document : String
  interval : Interval
  deriving DecidableEq, Repr

namespace Location

/-- The location holds the position, taken in the location's own document. -/
def contains (l : Location) (p : Position) : Bool :=
  l.interval.contains p

/-- The location holds that position of that document. -/
def covers (l : Location) (document : String) (p : Position) : Bool :=
  l.document == document && l.contains p

/-- Order of locations: by document, by the code points of its name, then by interval. -/
def before (a b : Location) : Bool :=
  if a.document = b.document then a.interval.before b.interval else decide (a.document < b.document)

/-- The locations in order, equal ones staying as they stand. -/
def sort (ls : List Location) : List Location :=
  ls.mergeSort fun a b ↦ !b.before a

/-- The text form of a location. -/
def describe (l : Location) : String :=
  "TextLocation(document_id=" ++ Text.quoted l.document ++ ", text_interval=" ++
    l.interval.describe ++ ")"

end Location

end ModelServer
