import ModelServer.Proofs.Except
import ModelServer.Server.Editor

/-!
# The ranges that editors get

Locations hold their last position, and ranges end before theirs. `Range.holds_iff` says that the range
made of an interval holds just the positions that the interval does: the one behind the last of a line
is the first that is not held.

Editors know coordinates up to a limit (`Known`). A range is made exactly if both its ends are known to
editors, of which the second is one behind the interval's last position
(`Range.ofInterval_eq_ok_iff`).
-/

namespace ModelServer

/-- The position behind this one, on the same line. -/
def Position.next (p : Position) : Position :=
  ⟨p.line, p.column + 1⟩

theorem Position.not_next_le_iff {p q : Position} : ¬p.next ≤ q ↔ q ≤ p := by
  rw [le_iff, le_iff]
  simp only [next]
  omega

namespace Editor

/-- An editor can be told of the position. -/
def Known (p : Position) : Prop :=
  (p.line : Int) ≤ maxCoordinate ∧ (p.column : Int) ≤ maxCoordinate

instance (p : Position) : Decidable (Known p) :=
  inferInstanceAs (Decidable (_ ∧ _))

theorem checkCoordinate_eq_ok_iff {name : String} {n : Nat} :
    checkCoordinate name n = .ok () ↔ (n : Int) ≤ maxCoordinate := by
  rw [checkCoordinate]
  split <;> simp <;> omega

theorem position_eq_ok_iff {p q : Position} :
    position p.line p.column = .ok q ↔ q = p ∧ Known p := by
  rw [position, bind_eq_ok_iff, Known]
  simp only [bind_eq_ok_iff, pure, Except.pure, Except.ok.injEq, Int.toNat_natCast]
  constructor
  · rintro ⟨_, hline, _, hcolumn, rfl⟩
    exact ⟨rfl, checkCoordinate_eq_ok_iff.1 hline, checkCoordinate_eq_ok_iff.1 hcolumn⟩
  · rintro ⟨rfl, hline, hcolumn⟩
    exact ⟨(), checkCoordinate_eq_ok_iff.2 hline, (), checkCoordinate_eq_ok_iff.2 hcolumn, rfl⟩

namespace Range

/-- The position is in the range: not before its start, and before its end. -/
def Holds (r : Range) (q : Position) : Prop :=
  r.start ≤ q ∧ ¬r.stop ≤ q

/-- **A range holds what its interval does.** -/
theorem holds_iff {i : Interval} {q : Position} :
    Holds ⟨i.start, i.stop.next⟩ q ↔ i.start ≤ q ∧ q ≤ i.stop := by
  rw [Holds, Position.not_next_le_iff]

/-- **A range is made exactly if an editor can be told of both its ends.** -/
theorem ofInterval_eq_ok_iff {i : Interval} {r : Range} :
    ofInterval i = .ok r ↔ r = ⟨i.start, i.stop.next⟩ ∧ Known i.start ∧ Known i.stop.next := by
  have hstop (q : Position) : position i.stop.line (i.stop.column + 1) = .ok q ↔
      q = i.stop.next ∧ Known i.stop.next :=
    position_eq_ok_iff (p := i.stop.next)
  rw [ofInterval, bind_eq_ok_iff]
  simp only [bind_eq_ok_iff, pure, Except.pure, Except.ok.injEq, position_eq_ok_iff, hstop]
  constructor
  · rintro ⟨_, ⟨rfl, hs⟩, _, ⟨rfl, ht⟩, rfl⟩
    exact ⟨rfl, hs, ht⟩
  · rintro ⟨rfl, hs, ht⟩
    exact ⟨_, ⟨rfl, hs⟩, _, ⟨rfl, ht⟩, rfl⟩

end Range

end Editor

end ModelServer
