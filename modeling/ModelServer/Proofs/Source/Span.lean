import Mathlib.Data.Prod.Lex
import ModelServer.Source.Given
import ModelServer.Model.PartSchema
import ModelServer.Proofs.Except
import ModelServer.Proofs.Model.Parts

/-!
# Spans as documents give them

A document gives a span as two pairs of integers, which may be any. Two parties look at them: the schema,
when the span is read, and what makes places of them (`Span.locate`), which takes a negative coordinate
and a reversed interval for broken invariants. They do not compare alike: the schema compares pairs as
pairs, from the left, and positions are compared by `Position.le`.

Nevertheless the two agree. Both take the spans of intervals and no others
(`Interval.reader_eq_ok_iff`, `Span.locate_eq_ok_iff`), so no span that the schema let through ever breaks
an invariant; and these spans are sound (`Span.sound_ofInterval`).
-/

namespace ModelServer

open Schema

/-! ### Coordinates -/

namespace Position

theorem ofInts?_eq_some_iff {line column : Int} {p : Position} :
    ofInts? line column = some p ↔ line = p.line ∧ column = p.column := by
  obtain ⟨l, c⟩ := p
  rw [ofInts?]
  split
  · simp only [reduceCtorEq, false_iff]
    omega
  · simp only [Option.some.injEq, mk.injEq]
    omega

/-- Pairs of coordinates stand in the order of the positions. -/
theorem toLex_le_toLex_iff {p q : Position} :
    toLex ((p.line : Int), (p.column : Int)) ≤ toLex ((q.line : Int), (q.column : Int)) ↔
      p ≤ q := by
  rw [Prod.Lex.toLex_le_toLex, le_iff]
  omega

theorem ofInts_eq_ok_iff {line column : Int} {p : Position} :
    ofInts line column = .ok p ↔ line = p.line ∧ column = p.column := by
  rw [ofInts, ← ofInts?_eq_some_iff]
  cases ofInts? line column <;> simp

end Position

theorem Interval.ofPositions?_eq_some_iff {start stop : Position} {i : Interval} :
    ofPositions? start stop = some i ↔ start = i.start ∧ stop = i.stop := by
  obtain ⟨s, e, h⟩ := i
  rw [ofPositions?]
  split
  · simp
  · next hnot =>
    simp only [reduceCtorEq, false_iff]
    rintro ⟨rfl, rfl⟩
    exact hnot h

theorem Interval.ofPositions_eq_ok_iff {start stop : Position} {i : Interval} :
    ofPositions start stop = .ok i ↔ start = i.start ∧ stop = i.stop := by
  rw [ofPositions, ← ofPositions?_eq_some_iff]
  cases ofPositions? start stop <;> simp

/-! ### Spans -/

/-- Two pairs of a line and a column, as a document gives them. -/
structure Span where
  start : Int × Int
  stop : Int × Int
  deriving DecidableEq, Repr

namespace Span

/-- The pairs of a span, whatever they are. -/
def reader : Reader Span :=
  record "SpanDTO" fun ms ↦
    ((field "start" integerPair ms).map mk).seq (field "end" integerPair ms)

/-- The span has no negative coordinate, and does not end before it starts. -/
structure Sound (p : Span) : Prop where
  nonneg : 0 ≤ p.start.1 ∧ 0 ≤ p.start.2 ∧ 0 ≤ p.stop.1 ∧ 0 ≤ p.stop.2
  ordered : toLex p.start ≤ toLex p.stop

/-- The place of the span in a document, or which invariant of places it breaks. -/
def locate (document : String) (p : Span) : Except Fault Location :=
  Location.ofInts document p.start.1 p.start.2 p.stop.1 p.stop.2

/-- The span that an interval is. -/
def ofInterval (i : Interval) : Span :=
  ⟨(i.start.line, i.start.column), (i.stop.line, i.stop.column)⟩

end Span

theorem Interval.ofInts_eq_ok_iff {p : Span} {i : Interval} :
    ofInts p.start.1 p.start.2 p.stop.1 p.stop.2 = .ok i ↔ p = Span.ofInterval i := by
  obtain ⟨⟨sl, sc⟩, ⟨el, ec⟩⟩ := p
  constructor
  · intro h
    obtain ⟨s, hs, hrest⟩ := bind_eq_ok_iff.1 h
    obtain ⟨e, he, hinterval⟩ := bind_eq_ok_iff.1 hrest
    obtain ⟨rfl, rfl⟩ := ofPositions_eq_ok_iff.1 hinterval
    obtain ⟨rfl, rfl⟩ := Position.ofInts_eq_ok_iff.1 hs
    obtain ⟨rfl, rfl⟩ := Position.ofInts_eq_ok_iff.1 he
    rfl
  · intro h
    cases h
    have hs : Position.ofInts i.start.line i.start.column = .ok i.start :=
      Position.ofInts_eq_ok_iff.2 ⟨rfl, rfl⟩
    have he : Position.ofInts i.stop.line i.stop.column = .ok i.stop :=
      Position.ofInts_eq_ok_iff.2 ⟨rfl, rfl⟩
    rw [ofInts, hs, he]
    exact ofPositions_eq_ok_iff.2 ⟨rfl, rfl⟩

namespace Span

theorem sound_ofInterval (i : Interval) : (ofInterval i).Sound where
  nonneg := ⟨Int.natCast_nonneg _, Int.natCast_nonneg _, Int.natCast_nonneg _, Int.natCast_nonneg _⟩
  ordered := Position.toLex_le_toLex_iff.2 i.ordered

/-- A place can be made of the span of an interval, which is then its own, and of no other. -/
theorem locate_eq_ok_iff {document : String} {p : Span} {l : Location} :
    p.locate document = .ok l ↔ l.document = document ∧ p = ofInterval l.interval := by
  have hinterval (i : Interval) :
      Interval.ofInts p.start.1 p.start.2 p.stop.1 p.stop.2 = .ok i ↔ p = ofInterval i :=
    Interval.ofInts_eq_ok_iff
  rw [← hinterval, locate, Location.ofInts]
  obtain ⟨d, i⟩ := l
  cases Interval.ofInts p.start.1 p.start.2 p.stop.1 p.stop.2 with
  | error f => simp [Except.map]
  | ok i' => simp [Except.map, eq_comm]

end Span

/-! ### The schema's check -/

namespace Interval

theorem ofPairs_eq_ok_iff {start stop : Int × Int} {i : Interval} :
    ofPairs start stop = .ok i ↔ Span.mk start stop = Span.ofInterval i := by
  obtain ⟨sl, sc⟩ := start
  obtain ⟨el, ec⟩ := stop
  constructor
  · intro h
    rw [ofPairs] at h
    split at h
    · next s e hs he =>
      split at h
      · next i' hi =>
        obtain rfl := Checked.ok.inj h
        obtain ⟨rfl, rfl⟩ := ofPositions?_eq_some_iff.1 hi
        obtain ⟨rfl, rfl⟩ := Position.ofInts?_eq_some_iff.1 hs
        obtain ⟨rfl, rfl⟩ := Position.ofInts?_eq_some_iff.1 he
        rfl
      · exact absurd h Checked.fail_ne_ok
    · exact absurd h Checked.fail_ne_ok
  · intro h
    cases h
    exact ofPairs_gives i

/-- **The schema takes the spans of intervals, and no others.** -/
theorem reader_eq_ok_iff {v : Json} {i : Interval} :
    reader v = .ok i ↔ Span.reader v = .ok (Span.ofInterval i) := by
  simp only [reader, Span.reader, record_eq_ok, Checked.andThen_eq_ok, Checked.seq_eq_ok,
    Checked.map_eq_ok, ofPairs_eq_ok_iff]
  constructor
  · rintro ⟨ms, rfl, ⟨start, stop⟩, ⟨_, _, ⟨start, hstart, rfl⟩, hstop, hpair⟩, hspan⟩
    cases hpair
    exact ⟨ms, rfl, _, _, ⟨_, hstart, rfl⟩, hstop, hspan⟩
  · rintro ⟨ms, rfl, _, stop, ⟨start, hstart, rfl⟩, hstop, hspan⟩
    exact ⟨ms, rfl, (start, stop), ⟨_, _, ⟨_, hstart, rfl⟩, hstop, rfl⟩, hspan⟩

end Interval

end ModelServer
