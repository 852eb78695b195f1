import Mathlib.Data.List.Flatten
import ModelServer.Text.Lines

/-!
# Lines of an editor

For an editor a line ends at a line feed, at a carriage return, or at the two together, and nowhere else.
The lines that a document is asked for end at eight more characters, each of which may stand in the middle of
an editor's line. So an editor's line is one line here, or it is several: `linesBy_isLineEnd` says that the
lines here are those of the editor, each taken apart once more.

To take lines apart makes their numbers run ahead. By how much is known (`others`): the line with number `n`
of the editor starts `others s n` lines later than it should (`line_shifted`), and if that is not at once the
line with number `n` here is a part of one that the editor numbers lower (`exists_line_of_others`).
-/

namespace ModelServer.Text

/-- A character at which an editor ends a line. -/
def isNewline (c : Char) : Bool :=
  c == '\n' || c == '\r'

/-- The lines of a text, when these characters end lines; a carriage return and a line feed behind it are one
end. What is behind the last end is a line too, be it empty. -/
def linesBy (p : Char → Bool) : List Char → List (List Char)
  | [] => [[]]
  | '\r' :: '\n' :: rest => [] :: linesBy p rest
  | c :: rest => if p c then [] :: linesBy p rest else (linesBy p rest).modifyHead (c :: ·)

/-- The lines of a text as an editor numbers them. -/
def editorLines (s : String) : List (List Char) :=
  linesBy isNewline s.toList

/-- The line of that number for an editor; beyond the last line, the empty one. -/
def editorLine (s : String) (n : Nat) : List Char :=
  (editorLines s)[n]?.getD []

/-- How often a line is ended, in the editor's lines before that number, by what ends no line for the
editor. -/
def others (s : String) (n : Nat) : Nat :=
  ((editorLines s).take n).flatten.countP isLineEnd

theorem isLineEnd_of_isNewline {c : Char} (h : isNewline c = true) : isLineEnd c = true := by
  simp only [isNewline, Bool.or_eq_true, beq_iff_eq] at h
  rcases h with rfl | rfl <;> decide

/-! ### Lines one by one -/

section LinesBy

variable {p : Char → Bool} {c : Char} {t : List Char}

theorem linesBy_cons (h : ∀ rest, c = '\r' → t ≠ '\n' :: rest) :
    linesBy p (c :: t) = if p c then [] :: linesBy p t else (linesBy p t).modifyHead (c :: ·) :=
  linesBy.eq_3 p c t h

/-- There is always a line. -/
theorem exists_linesBy_eq_cons (p : Char → Bool) (t : List Char) : ∃ l ls, linesBy p t = l :: ls := by
  fun_induction linesBy p t with
  | case1 | case2 | case3 => exact ⟨_, _, rfl⟩
  | case4 c rest h hp ih =>
    obtain ⟨l, ls, hls⟩ := ih
    exact ⟨c :: l, ls, by rw [hls, List.modifyHead_cons]⟩

end LinesBy

/-- What has been read of a line goes before the first of what is left. That the last line is left out if it
is empty makes no difference to a line that is asked for. -/
theorem getD_linesFrom (read t : List Char) (n : Nat) :
    (linesFrom read t)[n]?.getD [] =
      ((linesBy isLineEnd t).modifyHead (read.reverse ++ ·))[n]?.getD [] := by
  fun_induction linesFrom read t generalizing n with
  | case1 read hread =>
    -- The empty last line, which is there on one side only.
    rw [List.isEmpty_iff.1 hread]
    cases n <;> rfl
  | case2 read hread =>
    rw [linesBy, List.modifyHead_cons, List.append_nil]
  | case3 read rest ih =>
    obtain ⟨l, ls, hls⟩ := exists_linesBy_eq_cons isLineEnd rest
    rw [hls] at ih
    rw [linesBy, List.modifyHead_cons, List.append_nil, hls]
    cases n with
    | zero => rfl
    | succ n => exact ih n
  | case4 read c rest hne hc ih =>
    obtain ⟨l, ls, hls⟩ := exists_linesBy_eq_cons isLineEnd rest
    rw [hls] at ih
    rw [linesBy_cons hne, if_pos hc, List.modifyHead_cons, List.append_nil, hls]
    cases n with
    | zero => rfl
    | succ n => exact ih n
  | case5 read c rest hne hc ih =>
    -- The line goes on, so the character joins what has been read.
    obtain ⟨l, ls, hls⟩ := exists_linesBy_eq_cons isLineEnd rest
    rw [ih, linesBy_cons hne, if_neg hc, hls]
    simp

/-- **A line that is asked for is found by its number.** -/
theorem line_eq (s : String) (n : Nat) : line s n = (linesBy isLineEnd s.toList)[n]?.getD [] := by
  obtain ⟨l, ls, hls⟩ := exists_linesBy_eq_cons isLineEnd s.toList
  rw [line, lines, getD_linesFrom, hls]
  rfl

/-- **The lines are the editor's, each taken apart once more.** -/
theorem linesBy_isLineEnd (t : List Char) :
    linesBy isLineEnd t = (linesBy isNewline t).flatMap (linesBy isLineEnd) := by
  fun_induction linesBy isNewline t with
  | case1 => rfl
  | case2 rest ih =>
    rw [linesBy, ih]
    rfl
  | case3 c rest hne hc ih =>
    rw [linesBy_cons hne, if_pos (isLineEnd_of_isNewline hc), ih]
    rfl
  | case4 c rest hne hc ih =>
    -- The editor's line goes on. Here it goes on too, or the character ends a part of it.
    obtain ⟨l, ls, hls⟩ := exists_linesBy_eq_cons isNewline rest
    obtain ⟨l', ls', hls'⟩ := exists_linesBy_eq_cons isLineEnd l
    have hne' : ∀ rest', c = '\r' → l ≠ '\n' :: rest' := by
      rintro _ rfl
      exact absurd rfl hc
    rw [linesBy_cons hne, ih, hls, List.modifyHead_cons, List.flatMap_cons, List.flatMap_cons,
      linesBy_cons hne', hls']
    split <;> rfl

/-- The front of a text is the beginning of it. -/
theorem prefix_front (n : Nat) (cs : List Char) : front n cs <+: cs := by
  fun_induction front n cs with
  | case1 => exact List.nil_prefix
  | case2 | case3 => exact List.prefix_refl _
  | case4 n m c rest hm ih => exact (List.prefix_cons_inj m).2 ((List.prefix_cons_inj c).2 ih)
  | case5 n m c rest hm ih => exact (List.prefix_cons_inj m).2 ih

/-! ### How far numbers run ahead -/

/-- The first part of a line goes as far as nothing ends it. -/
theorem exists_linesBy_eq_takeWhile (t : List Char) :
    ∃ ls, linesBy isLineEnd t = (t.takeWhile fun c ↦ !isLineEnd c) :: ls := by
  fun_induction linesBy isLineEnd t with
  | case1 => exact ⟨[], rfl⟩
  | case2 rest ih => exact ⟨_, rfl⟩
  | case3 c rest hne hc ih => exact ⟨_, by rw [List.takeWhile_cons_of_neg (by simp [hc])]⟩
  | case4 c rest hne hc ih =>
    obtain ⟨ls, hls⟩ := ih
    refine ⟨ls, ?_⟩
    rw [hls, List.modifyHead_cons, List.takeWhile_cons_of_pos (by simp [hc])]

/-- A line without a carriage return falls into one part more than there are ends in it. -/
theorem length_linesBy {l : List Char} (h : '\r' ∉ l) :
    (linesBy isLineEnd l).length = l.countP isLineEnd + 1 := by
  induction l with
  | nil => rfl
  | cons c rest ih =>
    obtain ⟨hc, hrest⟩ := List.ne_and_not_mem_of_not_mem_cons h
    have hne : ∀ rest', c = '\r' → rest ≠ '\n' :: rest' := fun _ h ↦ absurd h.symm hc
    rw [linesBy_cons hne, List.countP_cons]
    split
    · rw [List.length_cons, ih hrest]
    · rw [List.length_modifyHead, ih hrest, Nat.add_zero]

/-- No carriage return stands in a line of an editor. -/
theorem not_mem_of_mem_linesBy {t l : List Char} (h : l ∈ linesBy isNewline t) : '\r' ∉ l := by
  fun_induction linesBy isNewline t generalizing l with
  | case1 =>
    rw [List.mem_singleton.1 h]
    exact List.not_mem_nil
  | case2 rest ih | case3 c rest hne hc ih =>
    rcases List.mem_cons.1 h with rfl | h
    · exact List.not_mem_nil
    · exact ih h
  | case4 c rest hne hc ih =>
    obtain ⟨l', ls, hls⟩ := exists_linesBy_eq_cons isNewline rest
    rw [hls, List.modifyHead_cons] at h
    rw [hls] at ih
    rcases List.mem_cons.1 h with rfl | h
    · refine List.not_mem_cons_of_ne_of_not_mem ?_ (ih List.mem_cons_self)
      rintro rfl
      exact hc (by decide)
    · exact ih (List.mem_cons_of_mem _ h)

/-- Into how many parts lines of an editor fall. -/
theorem length_flatMap_linesBy {ls : List (List Char)} (h : ∀ l ∈ ls, '\r' ∉ l) :
    (ls.flatMap (linesBy isLineEnd)).length = ls.length + ls.flatten.countP isLineEnd := by
  induction ls with
  | nil => rfl
  | cons l rest ih =>
    obtain ⟨hl, hrest⟩ := List.forall_mem_cons.1 h
    rw [List.flatMap_cons, List.length_append, length_linesBy hl, ih hrest, List.flatten_cons,
      List.countP_append, List.length_cons]
    omega

/-- The lines before and behind a line of an editor, all taken apart. -/
theorem linesBy_eq_append (s : String) (n : Nat) :
    linesBy isLineEnd s.toList = ((editorLines s).take n).flatMap (linesBy isLineEnd) ++
      ((editorLines s).drop n).flatMap (linesBy isLineEnd) := by
  rw [← List.flatMap_append, List.take_append_drop, editorLines, ← linesBy_isLineEnd]

theorem others_eq_zero_iff {s : String} {n : Nat} :
    others s n = 0 ↔ ∀ m < n, ∀ c ∈ editorLine s m, isLineEnd c = false := by
  simp only [others, List.countP_eq_zero, List.mem_flatten, List.mem_take_iff_getElem, editorLine]
  constructor
  · intro h m hm c hc
    by_cases hlen : m < (editorLines s).length
    · rw [List.getElem?_eq_getElem hlen] at hc
      exact Bool.eq_false_iff.2 (h c ⟨_, ⟨m, by omega, rfl⟩, hc⟩)
    · rw [List.getElem?_eq_none (by omega)] at hc
      exact absurd hc List.not_mem_nil
  · rintro h c ⟨_, ⟨m, hm, rfl⟩, hc⟩
    refine Bool.eq_false_iff.1 (h m (by omega) c ?_)
    rw [List.getElem?_eq_getElem (by omega)]
    exact hc

theorem length_before (s : String) (n : Nat) :
    (((editorLines s).take n).flatMap (linesBy isLineEnd)).length =
      min n (editorLines s).length + others s n := by
  have hfree : ∀ l ∈ (editorLines s).take n, '\r' ∉ l :=
    fun l hl ↦ not_mem_of_mem_linesBy (List.mem_of_mem_take hl)
  rw [length_flatMap_linesBy hfree, List.length_take, others]

/-- **Where an editor's line starts**: so many lines later than it should, as ends have been taken for ends
before that are none for the editor. -/
theorem line_add_others (s : String) (n : Nat) :
    line s (n + others s n) = (editorLine s n).takeWhile fun c ↦ !isLineEnd c := by
  have hlength := length_before s n
  rw [line_eq, linesBy_eq_append s n, editorLine]
  by_cases hn : n < (editorLines s).length
  · obtain ⟨ls, hls⟩ := exists_linesBy_eq_takeWhile (editorLines s)[n]
    rw [List.getElem?_append_right (by omega), List.drop_eq_getElem_cons hn, List.flatMap_cons, hls,
      List.getElem?_eq_getElem hn]
    have hzero : n + others s n - (((editorLines s).take n).flatMap (linesBy isLineEnd)).length = 0 := by
      omega
    rw [hzero]
    rfl
  · rw [List.drop_eq_nil_of_le (by omega), List.flatMap_nil, List.append_nil,
      List.getElem?_eq_none (by omega), List.getElem?_eq_none (by omega)]
    rfl

/-- **And what is there in its place**: a part of a line that the editor numbers lower. -/
theorem exists_line_prefix_of_others {s : String} {n : Nat} (h : 0 < others s n) :
    ∃ m < n, ∃ part ∈ linesBy isLineEnd (editorLine s m), line s n <+: part := by
  have hlength := length_before s n
  rw [line_eq, linesBy_eq_append s n]
  by_cases hn : n < min n (editorLines s).length + others s n
  · -- The parts of the lines before are so many that the number falls among them.
    rw [← hlength] at hn
    obtain ⟨l, hl, hpart⟩ := List.mem_flatMap.1 (List.getElem_mem hn)
    obtain ⟨m, hm, rfl⟩ := List.mem_take_iff_getElem.1 hl
    have hline : editorLine s m = (editorLines s)[m] := by
      rw [editorLine, List.getElem?_eq_getElem (by omega)]
      rfl
    refine ⟨m, by omega, _, hline ▸ hpart, ?_⟩
    rw [List.getElem?_append_left hn, List.getElem?_eq_getElem hn]
    exact List.prefix_refl _
  · -- The document has no line of that number, but others before.
    have hpos : 0 < n := Nat.pos_of_ne_zero fun h0 ↦ by
      rw [h0, others, List.take_zero] at h
      exact absurd h (by decide)
    obtain ⟨ls, hls⟩ := exists_linesBy_eq_takeWhile (editorLine s 0)
    refine ⟨0, hpos, _, hls ▸ List.mem_cons_self, ?_⟩
    rw [List.drop_eq_nil_of_le (by omega), List.flatMap_nil, List.append_nil,
      List.getElem?_eq_none (by omega)]
    exact List.nil_prefix

end ModelServer.Text
