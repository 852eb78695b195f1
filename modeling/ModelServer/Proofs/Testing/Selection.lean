import ModelServer.Testing.Selection

/-!
# What is chosen of suites

To choose is to filter, at two levels: suites by their id, and tests by theirs. In between a suite that is
left without tests is dropped, which is all that keeps the two filters from having nothing to do with each
other. `Selection` says what is chosen without saying how.

One suite is chosen, or a part of it, or nothing, and this is decided for each suite alone. So the laws of
`select` are laws of `choose`, put together by `List.filterMap_filterMap`, and those of `choose` rest on
one fact: what is left of a suite is left whole when the same tests are chosen again (`only?_only?`).
-/

namespace ModelServer

variable {σ : Type}

/-- That id is wanted, or none in particular. -/
def Wants (wanted : Json) (id : String) : Prop :=
  wanted = .null ∨ wanted = .text id

theorem isWanted_iff {wanted : Json} {id : String} : isWanted wanted id = true ↔ Wants wanted id := by
  rw [Wants]
  cases wanted <;> simp [isWanted, Data.isNull, Data.text?]

instance (wanted : Json) (id : String) : Decidable (Wants wanted id) :=
  decidable_of_iff _ isWanted_iff

theorem wants_null (id : String) : Wants .null id :=
  .inl rfl

theorem isNull_eq_false_iff {wanted : Json} : wanted.isNull = false ↔ wanted ≠ .null := by
  cases wanted <;> simp [Data.isNull]

/-- To filter by what is wanted is to keep what is. -/
theorem filter_isWanted {α : Type} (wanted : Json) (id : α → String) (xs : List α) :
    xs.filter (fun x ↦ isWanted wanted (id x)) = xs.filter fun x ↦ Wants wanted (id x) :=
  List.filter_congr fun _ _ ↦ by rw [Bool.eq_iff_iff, isWanted_iff, decide_eq_true_iff]

namespace TestSuite

/-- The tests of the suite, each with the id and the place of the suite. -/
def listed (s : TestSuite σ) : List (String × Option σ × TestCase σ) :=
  s.tests.map fun t ↦ (s.id, s.source, t)

/-- The tests of all the suites, in order. -/
def triples (suites : List (TestSuite σ)) : List (String × Option σ × TestCase σ) :=
  suites.flatMap listed

/-- The suite with those of its tests that are wanted. -/
def narrowed (test : Json) (s : TestSuite σ) : TestSuite σ :=
  { s with tests := s.tests.filter fun t ↦ Wants test t.id }

/-- What is chosen of suites: of the tests, with their suites, those with the wanted ids, as often and in
the order as they are there. If no test is wanted in particular suites stay as they are, be they empty or
not; else they are cut down to what is wanted of them, and none stays that is empty. -/
structure Selection (suites : List (TestSuite σ)) (suite test : Json) (chosen : List (TestSuite σ)) :
    Prop where
  triples : triples chosen =
    (triples suites).filter fun p ↦ Wants suite p.1 ∧ Wants test p.2.2.id
  whole : test = .null → chosen = suites.filter fun s ↦ Wants suite s.id
  cut : test ≠ .null → chosen =
    ((suites.filter fun s ↦ Wants suite s.id).map (narrowed test)).filter fun s ↦ s.tests ≠ []
  occupied : test ≠ .null → ∀ s ∈ chosen, s.tests ≠ []

/-! ### One suite -/

theorem only?_eq (test : Json) (s : TestSuite σ) :
    s.only? test = if (s.narrowed test).tests = [] then none else some (s.narrowed test) := by
  rw [only?, filter_isWanted, narrowed]
  cases s.tests.filter fun t ↦ Wants test t.id <;> simp

theorem only?_eq_some_iff {test : Json} {s s' : TestSuite σ} :
    s.only? test = some s' ↔ s.narrowed test = s' ∧ s'.tests ≠ [] := by
  rw [only?_eq]
  split
  · next h =>
    refine ⟨fun h' ↦ (nomatch h'), ?_⟩
    rintro ⟨rfl, hne⟩
    exact absurd h hne
  · next h =>
    rw [Option.some.injEq]
    exact ⟨fun h' ↦ ⟨h', h' ▸ h⟩, And.left⟩

theorem narrowed_narrowed (test : Json) (s : TestSuite σ) :
    (s.narrowed test).narrowed test = s.narrowed test := by
  rw [narrowed, narrowed, List.filter_filter]
  simp only [Bool.and_self]

/-- **What is left of a suite is left whole** when the same tests are chosen of it again. -/
theorem only?_only? {test : Json} {s s' : TestSuite σ} (h : s.only? test = some s') :
    s'.only? test = some s' := by
  obtain ⟨rfl, hne⟩ := only?_eq_some_iff.1 h
  exact only?_eq_some_iff.2 ⟨s.narrowed_narrowed test, hne⟩

theorem choose_null (suite : Json) (s : TestSuite σ) :
    s.choose suite .null = if isWanted suite s.id then some s else none :=
  rfl

theorem choose_of_ne_null {test : Json} (h : test ≠ .null) (suite : Json) (s : TestSuite σ) :
    s.choose suite test = if isWanted suite s.id then s.only? test else none := by
  rw [choose, isNull_eq_false_iff.2 h, if_neg Bool.false_ne_true]

/-- A chosen suite, or what is left of it, keeps its id. -/
theorem id_of_choose {suite test : Json} {s s' : TestSuite σ} (h : s.choose suite test = some s') :
    s'.id = s.id := by
  by_cases hnull : test = .null
  · rw [hnull, choose_null] at h
    split at h
    · rw [← Option.some.inj h]
    · cases h
  · rw [choose_of_ne_null hnull] at h
    split at h
    · rw [← (only?_eq_some_iff.1 h).1]
      rfl
    · cases h

/-- By suite, and then by test. -/
theorem choose_bind_test (suite test : Json) (s : TestSuite σ) :
    (s.choose suite .null).bind (choose .null test) = s.choose suite test := by
  rw [choose_null, choose]
  split
  · rfl
  · rfl

/-- By test, and then by suite: what is left of a suite keeps the id. -/
theorem choose_bind_suite (suite test : Json) (s : TestSuite σ) :
    (s.choose .null test).bind (choose suite .null) = s.choose suite test := by
  have hall : s.choose .null test = if test.isNull then some s else s.only? test := rfl
  cases hleft : s.choose .null test with
  | none =>
    rw [hall] at hleft
    rw [choose, hleft, ite_self]
    rfl
  | some s' =>
    -- What is left of the suite is asked for its id, which is that of the suite.
    rw [Option.bind_some, choose_null, id_of_choose hleft, choose, ← hall, hleft]

theorem choose_bind_self (suite test : Json) (s : TestSuite σ) :
    (s.choose suite test).bind (choose suite test) = s.choose suite test := by
  cases hleft : s.choose suite test with
  | none => rfl
  | some s' =>
    rw [Option.bind_some, choose, id_of_choose hleft]
    rw [choose] at hleft
    split at hleft
    · next hwanted =>
      rw [if_pos hwanted]
      split at hleft
      · next hnull => rw [if_pos hnull]
      · next hnull => rw [if_neg hnull, only?_only? hleft]
    · cases hleft

/-! ### All suites -/

variable (suites : List (TestSuite σ)) (suite test : Json)

/-- **Choosing at once is choosing by suite and then by test.** -/
theorem select_suite_test :
    select (select suites suite .null) .null test = select suites suite test := by
  rw [select, select, List.filterMap_filterMap, funext (choose_bind_test suite test), ← select]

/-- **And it is choosing by test and then by suite.** -/
theorem select_test_suite :
    select (select suites .null test) suite .null = select suites suite test := by
  rw [select, select, List.filterMap_filterMap, funext (choose_bind_suite suite test), ← select]

/-- **Choosing twice is choosing once.** -/
theorem select_select :
    select (select suites suite test) suite test = select suites suite test := by
  rw [select, select, List.filterMap_filterMap, funext (choose_bind_self suite test), ← select]

theorem select_suite : select suites suite .null = suites.filter fun s ↦ Wants suite s.id := by
  have hchoose : choose suite .null = Option.guard fun s : TestSuite σ ↦ isWanted suite s.id := rfl
  rw [select, hchoose, List.filterMap_eq_filter, filter_isWanted]

theorem select_test (h : test ≠ .null) :
    select suites .null test = (suites.map (narrowed test)).filter fun s ↦ s.tests ≠ [] := by
  have hchoose : choose .null test =
      (Option.guard fun s : TestSuite σ ↦ decide (s.tests ≠ [])) ∘ narrowed test := by
    funext s
    rw [choose_of_ne_null h, if_pos (isWanted_iff.2 (wants_null s.id)), only?_eq, Function.comp,
      Option.guard]
    simp only [decide_eq_true_eq, ne_eq, ite_not]
  rw [select, hchoose, ← List.filterMap_map, List.filterMap_eq_filter]

/-! ### Tests with their suites -/

theorem filter_listed (suite : Json) (s : TestSuite σ) :
    s.listed.filter (fun p ↦ Wants suite p.1) = if Wants suite s.id then s.listed else [] := by
  split
  · next h => exact List.filter_eq_self.2 (List.forall_mem_map.2 fun _ _ ↦ decide_eq_true h)
  · next h => exact List.filter_eq_nil_iff.2 (List.forall_mem_map.2 fun _ _ ↦ mt of_decide_eq_true h)

theorem triples_filter (suite : Json) (ss : List (TestSuite σ)) :
    triples (ss.filter fun s ↦ Wants suite s.id) = (triples ss).filter fun p ↦ Wants suite p.1 := by
  induction ss with
  | nil => rfl
  | cons s rest ih =>
    rw [triples, triples] at ih
    rw [triples, triples, List.flatMap_cons, List.filter_append, ← ih, List.filter_cons, filter_listed]
    by_cases h : Wants suite s.id <;> simp [h]

theorem listed_narrowed (test : Json) (s : TestSuite σ) :
    (s.narrowed test).listed = s.listed.filter fun p ↦ Wants test p.2.2.id := by
  rw [listed, listed, List.filter_map]
  rfl

theorem triples_narrowed (test : Json) (ss : List (TestSuite σ)) :
    triples (ss.map (narrowed test)) = (triples ss).filter fun p ↦ Wants test p.2.2.id := by
  rw [triples, triples, List.flatMap_map, List.filter_flatMap]
  simp only [listed_narrowed]

/-- Suites that hold no tests count for nothing. -/
theorem triples_occupied (ss : List (TestSuite σ)) :
    triples (ss.filter fun s ↦ s.tests ≠ []) = triples ss := by
  induction ss with
  | nil => rfl
  | cons s rest ih =>
    rw [triples, triples] at ih
    rw [triples, triples, List.flatMap_cons, ← ih, List.filter_cons]
    by_cases h : s.tests = [] <;> simp [listed, h]

/-- **What is chosen is a selection.** -/
theorem selection_select : Selection suites suite test (select suites suite test) := by
  have hcut (h : test ≠ .null) : select suites suite test =
      ((suites.filter fun s ↦ Wants suite s.id).map (narrowed test)).filter fun s ↦ s.tests ≠ [] := by
    rw [← select_suite_test, select_suite, select_test _ _ h]
  refine ⟨?_, fun h ↦ h ▸ select_suite suites suite, hcut, fun h s hs ↦ ?_⟩
  · by_cases h : test = .null
    · rw [h, select_suite, triples_filter]
      simp only [wants_null, and_true]
    · rw [hcut h, triples_occupied, triples_narrowed, triples_filter, List.filter_filter]
      simp only [Bool.decide_and, Bool.and_comm]
  · rw [hcut h] at hs
    exact of_decide_eq_true (List.mem_filter.1 hs).2

end TestSuite

end ModelServer
