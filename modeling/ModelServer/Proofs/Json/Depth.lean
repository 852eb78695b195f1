import ModelServer.Json.Reader

/-!
# How deep values may be nested

A text that is nested too deep is not read, though it may well be JSON. For lists within one another it is
told here which are read: those up to the greatest depth (`read_brackets`), and of a list that goes deeper
there is no more to be had than the fault (`read_brackets_of_le`).
-/

namespace ModelServer.Json

/-- Lists within one another: each but the innermost holds the next one alone. -/
def nested : Nat → Json
  | 0 => .list []
  | n + 1 => .list [nested n]

/-- The characters of a text for lists within one another. -/
def brackets (n : Nat) : List Char :=
  List.replicate (n + 1) '[' ++ List.replicate (n + 1) ']'

theorem brackets_succ (n : Nat) (rest : List Char) :
    brackets (n + 1) ++ rest = '[' :: (brackets n ++ ']' :: rest) := by
  rw [brackets, brackets, List.replicate_succ, List.replicate_succ' (n := n + 1), List.cons_append,
    List.cons_append, List.append_assoc, List.append_assoc, List.append_assoc, List.singleton_append]

/-- Where a list is nested no deeper than it may be it is read. -/
theorem value_brackets {n depth fuel : Nat} (hdepth : n < depth) (hfuel : 2 * n < fuel)
    (rest : List Char) : value fuel depth (brackets n ++ rest) = .ok (nested n, rest) := by
  induction n generalizing depth fuel rest with
  | zero =>
    obtain ⟨depth, rfl⟩ := Nat.exists_eq_add_one_of_ne_zero (Nat.ne_of_gt hdepth)
    obtain ⟨fuel, rfl⟩ := Nat.exists_eq_add_one_of_ne_zero (Nat.ne_of_gt hfuel)
    rfl
  | succ n ih =>
    obtain ⟨depth, rfl⟩ := Nat.exists_eq_add_one_of_ne_zero (Nat.ne_zero_of_lt hdepth)
    obtain ⟨fuel, rfl⟩ := Nat.exists_eq_add_of_le' (show 2 ≤ fuel by omega)
    have hinner : value fuel depth (brackets n ++ ']' :: rest) = .ok (nested n, ']' :: rest) :=
      ih (by omega) (by omega) (']' :: rest)
    have hitems : itemsFrom (fuel + 1) depth [] (brackets n ++ ']' :: rest) =
        .ok ([nested n], rest) := by
      rw [itemsFrom, hinner]
      rfl
    rw [brackets_succ]
    show Except.map _ (itemsFrom (fuel + 1) depth [] (brackets n ++ ']' :: rest)) = _
    rw [hitems]
    rfl

/-- Where brackets go on opening lists the reading ends at the first that is too deep. -/
theorem value_of_opening {depth fuel : Nat} (hfuel : 2 * depth < fuel) (rest : List Char) :
    value fuel depth (List.replicate (depth + 1) '[' ++ rest) = .error ⟨.depth true, '[' :: rest⟩ := by
  induction depth generalizing fuel with
  | zero =>
    obtain ⟨fuel, rfl⟩ := Nat.exists_eq_add_one_of_ne_zero (Nat.ne_of_gt hfuel)
    rfl
  | succ depth ih =>
    obtain ⟨fuel, rfl⟩ := Nat.exists_eq_add_of_le' (show 2 ≤ fuel by omega)
    have hitems : itemsFrom (fuel + 1) depth [] (List.replicate (depth + 1) '[' ++ rest) =
        .error ⟨.depth true, '[' :: rest⟩ := by
      rw [itemsFrom, ih (by omega)]
      rfl
    show Except.map _ (itemsFrom (fuel + 1) depth [] (List.replicate (depth + 1) '[' ++ rest)) = _
    rw [hitems]
    rfl

theorem length_brackets (n : Nat) : (brackets n).length = 2 * (n + 1) := by
  rw [brackets, List.length_append, List.length_replicate, List.length_replicate, Nat.two_mul]

theorem readChars_brackets [Depths] (n : Nat) :
    readChars (brackets n) = value (2 * (brackets n).length + 1) Depths.reading (brackets n) >>=
      fun r ↦ match skip r.2 with
        | [] => pure r.1
        | rest => throw ⟨.extra, rest⟩ :=
  rfl

/-- **Lists within one another are read up to the greatest depth.** -/
theorem read_brackets [Depths] {n : Nat} (hn : n < Depths.reading) :
    read (String.ofList (brackets n)) = .ok (nested n) := by
  have hfuel : 2 * n < 2 * (brackets n).length + 1 := by
    rw [length_brackets]
    omega
  have hvalue := value_brackets hn hfuel []
  rw [List.append_nil] at hvalue
  rw [read, String.toList_ofList, readChars_brackets, hvalue]
  rfl

/-- **Nothing is read of a text that opens more lists than it may**, whatever follows. -/
theorem read_of_opening [Depths] {n : Nat} (hn : Depths.reading < n) (rest : List Char) :
    ∃ f, read (String.ofList (List.replicate n '[' ++ rest)) = .error f ∧ f.isDepth = true := by
  obtain ⟨k, rfl⟩ := Nat.exists_eq_add_of_lt hn
  have hsplit : List.replicate (Depths.reading + k + 1) '[' ++ rest =
      List.replicate (Depths.reading + 1) '[' ++ (List.replicate k '[' ++ rest) := by
    rw [← List.append_assoc, List.replicate_append_replicate, Nat.add_right_comm]
  have hread : readChars (List.replicate (Depths.reading + k + 1) '[' ++ rest) =
      value (2 * (List.replicate (Depths.reading + k + 1) '[' ++ rest).length + 1) Depths.reading
        (List.replicate (Depths.reading + k + 1) '[' ++ rest) >>= fun r ↦ match skip r.2 with
          | [] => pure r.1
          | more => throw ⟨.extra, more⟩ := by
    rw [List.replicate_succ, List.cons_append]
    rfl
  have hfuel : 2 * Depths.reading < 2 * (List.replicate (Depths.reading + k + 1) '[' ++ rest).length + 1 := by
    rw [List.length_append, List.length_replicate]
    omega
  have hvalue := value_of_opening hfuel (List.replicate k '[' ++ rest)
  rw [← hsplit] at hvalue
  rw [read, String.toList_ofList, hread, hvalue]
  exact ⟨_, rfl, rfl⟩

/-- **Beyond the greatest depth they are not read.** -/
theorem read_brackets_of_le [Depths] {n : Nat} (hn : Depths.reading ≤ n) :
    ∃ f, read (String.ofList (brackets n)) = .error f ∧ f.isDepth = true :=
  read_of_opening (Nat.lt_succ_of_le hn) _

end ModelServer.Json
