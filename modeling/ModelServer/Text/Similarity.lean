/-!
# Similar words

What to propose in the place of a mistyped word. Two words are compared by what they share: the longest
run of characters that both have, and then, to the left and to the right of it, again the longest run.
The similarity is twice the length shared over the length of both.
-/

namespace ModelServer.Text.Similarity

/-- How long the run is that both lists start with. -/
def commonStart : List Char → List Char → Nat
  | a :: as, b :: bs => if a = b then commonStart as bs + 1 else 0
  | _, _ => 0

/-- A run that two words share: where it starts in each, and its length. -/
structure Run where
  left : Nat
  right : Nat
  length : Nat
  deriving DecidableEq, Repr

/-- The longest run that the words share; of runs of one length the one that starts first in the first
word, and of these the one that starts first in the second. -/
def longestRun (as bs : List Char) : Run :=
  (List.range as.length).foldl (fun best i ↦
    (List.range bs.length).foldl (fun best j ↦
      let n := commonStart (as.drop i) (bs.drop j)
      if best.length < n then ⟨i, j, n⟩ else best) best) ⟨0, 0, 0⟩

/-- How many characters the words share. `fuel` bounds how often they are cut; the length of the first
word is enough, since each cut takes a shared run out of it. -/
def shared : Nat → List Char → List Char → Nat
  | 0, _, _ => 0
  | fuel + 1, as, bs =>
    let run := longestRun as bs
    if run.length = 0 then 0
    else
      run.length + shared fuel (as.take run.left) (bs.take run.right) +
        shared fuel (as.drop (run.left + run.length)) (bs.drop (run.right + run.length))

/-- A word and its similarity to another one, as a quotient. -/
structure Candidate where
  word : String
  shared : Nat
  whole : Nat
  deriving DecidableEq, Repr

namespace Candidate

/-- A word as a candidate for another one. -/
def of (word typed : String) : Candidate :=
  let as := word.toList
  let bs := typed.toList
  ⟨word, 2 * Similarity.shared as.length as bs, as.length + bs.length⟩

/-- At least three fifths of both words are shared. -/
def isClose (c : Candidate) : Bool :=
  3 * c.whole ≤ 5 * c.shared

/-- The more similar word goes first; of two that are equally similar, the one that is later in the
order of words. -/
def before (c d : Candidate) : Bool :=
  let x := c.shared * d.whole
  let y := d.shared * c.whole
  if x = y then decide (d.word ≤ c.word) else decide (y < x)

end Candidate

/-- The words that are close to the typed one, at most three, the most similar first. -/
def closeTo (typed : String) (words : List String) : List String :=
  let close := (words.map (Candidate.of · typed)).filter Candidate.isClose
  ((close.mergeSort Candidate.before).take 3).map (·.word)

end ModelServer.Text.Similarity
