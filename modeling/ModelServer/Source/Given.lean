import ModelServer.Fault

/-!
# Places given as integers

Coordinates that come from outside may be any integers. Here they become places, or the fault that
says which rule of places they break: the coordinates of each position are looked at before the order
of the positions.
-/

namespace ModelServer

/-- The position with the given coordinates, neither of which may be negative. -/
def Position.ofInts (line column : Int) : Except Fault Position :=
  match Position.ofInts? line column with
  | some p => .ok p
  | none =>
    .error (.invariant "negative text position"
      [("line", .data (.int line)), ("column", .data (.int column))])

/-- The interval between two positions, which must stand in order. -/
def Interval.ofPositions (start stop : Position) : Except Fault Interval :=
  match Interval.ofPositions? start stop with
  | some i => .ok i
  | none =>
    .error (.invariant "text interval ends before it starts"
      [("start", .position start), ("end", .position stop)])

/-- The interval with the given coordinates. -/
def Interval.ofInts (startLine startColumn stopLine stopColumn : Int) : Except Fault Interval := do
  let start ← Position.ofInts startLine startColumn
  let stop ← Position.ofInts stopLine stopColumn
  Interval.ofPositions start stop

/-- The interval of a document with the given coordinates. -/
def Location.ofInts (document : String) (startLine startColumn stopLine stopColumn : Int) :
    Except Fault Location :=
  (Interval.ofInts startLine startColumn stopLine stopColumn).map (Location.mk document)

end ModelServer
