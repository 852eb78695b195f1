import ModelServer.Proofs.Testing.Outcome

/-!
# Where tests stand

An outcome names a suite and a test, and its result is to be located there. Neither name need be the only
one of its kind: suites of an element may share an id, and so may the tests of a suite. `BestKnown` says
what is known of the place, over all suites and tests of these names: the place of such a test, else that
of such a suite, else that of the element.

What is looked at is less (`Stands`): the first suite of that id, and in it the first test. So a place that
is known can be missed, and it is missed exactly where the first are not placed and others are
(`FirstKnown`). Where nothing is named twice nothing is missed (`firstKnown_of_nodup`).
-/

namespace ModelServer

/-- The item is the first in the list for which `p` holds. -/
def First {α : Type} (p : α → Prop) (xs : List α) (x : α) : Prop :=
  ∃ before after, xs = before ++ x :: after ∧ p x ∧ ∀ y ∈ before, ¬p y

section First

variable {α : Type} {p : α → Prop} {xs : List α} {x y : α}

theorem first_iff [DecidablePred p] : First p xs x ↔ xs.find? (fun y ↦ p y) = some x := by
  simp only [First, List.find?_eq_some_iff_append, decide_eq_true_eq, Bool.not_eq_true',
    decide_eq_false_iff_not]
  exact ⟨fun ⟨before, after, h, hx, hbefore⟩ ↦ ⟨hx, before, after, h, hbefore⟩,
    fun ⟨hx, before, after, h, hbefore⟩ ↦ ⟨before, after, h, hx, hbefore⟩⟩

theorem First.mem (h : First p xs x) : x ∈ xs := by
  obtain ⟨before, after, rfl, -, -⟩ := h
  exact List.mem_append_right _ List.mem_cons_self

theorem First.holds (h : First p xs x) : p x := by
  obtain ⟨-, -, -, hx, -⟩ := h
  exact hx

theorem First.unique [DecidablePred p] (hx : First p xs x) (hy : First p xs y) : x = y :=
  Option.some.inj ((first_iff.1 hx).symm.trans (first_iff.1 hy))

/-- An item whose key no other has is the first with it. -/
theorem first_of_nodup {key : α → String} (hn : (xs.map key).Nodup) (hx : x ∈ xs) :
    First (fun y ↦ key y = key x) xs x := by
  obtain ⟨before, after, rfl⟩ := List.append_of_mem hx
  refine ⟨before, after, rfl, rfl, fun y hy hkey ↦ ?_⟩
  rw [List.map_append, List.nodup_append] at hn
  exact hn.2.2 (key y) (List.mem_map_of_mem hy) (key x) (List.mem_map_of_mem List.mem_cons_self) hkey

end First

namespace TestSuite

variable {σ : Type} {suites : List (TestSuite σ)} {suiteId testId : String} {fallback place : Option σ}

/-- A test of that id, of a suite of that id, stands there. -/
def TestAt (suites : List (TestSuite σ)) (suiteId testId : String) (l : σ) : Prop :=
  ∃ s ∈ suites, s.id = suiteId ∧ ∃ t ∈ s.tests, t.id = testId ∧ t.source = some l

/-- A suite of that id stands there. -/
def SuiteAt (suites : List (TestSuite σ)) (suiteId : String) (l : σ) : Prop :=
  ∃ s ∈ suites, s.id = suiteId ∧ s.source = some l

/-- The place is the best that is known: where a test of the ids stands; if none is known to stand
anywhere, where a suite of the id stands; and if none of these is either, the fallback. -/
inductive BestKnown (suites : List (TestSuite σ)) (suiteId testId : String) (fallback : Option σ) :
    Option σ → Prop
  | test {l : σ} (known : TestAt suites suiteId testId l) :
    BestKnown suites suiteId testId fallback (some l)
  | suite {l : σ} (noTest : ∀ l, ¬TestAt suites suiteId testId l)
      (known : SuiteAt suites suiteId l) : BestKnown suites suiteId testId fallback (some l)
  | fallback (noTest : ∀ l, ¬TestAt suites suiteId testId l)
      (noSuite : ∀ l, ¬SuiteAt suites suiteId l) : BestKnown suites suiteId testId fallback fallback

/-- The place is that of the first test of that id in the first suite of that id, or of this suite, or the
fallback: the first of these that is known. -/
inductive Stands (suites : List (TestSuite σ)) (suiteId testId : String) (fallback : Option σ) :
    Option σ → Prop
  | test {s : TestSuite σ} {t : TestCase σ} (suite : First (·.id = suiteId) suites s)
      (test : First (·.id = testId) s.tests t) :
    Stands suites suiteId testId fallback (t.source <|> s.source <|> fallback)
  | suite {s : TestSuite σ} (suite : First (·.id = suiteId) suites s)
      (noTest : ∀ t ∈ s.tests, t.id ≠ testId) :
    Stands suites suiteId testId fallback (s.source <|> fallback)
  | fallback (noSuite : ∀ s ∈ suites, s.id ≠ suiteId) : Stands suites suiteId testId fallback fallback

/-- Where the place of a test of the ids is known, that of the first test of the first suite is. And where
none is, but that of a suite is, that of the first suite is. -/
structure FirstKnown (suites : List (TestSuite σ)) (suiteId testId : String) : Prop where
  test : (∃ l, TestAt suites suiteId testId l) → ∃ s t l, First (·.id = suiteId) suites s ∧
    First (·.id = testId) s.tests t ∧ t.source = some l
  suite : (∀ l, ¬TestAt suites suiteId testId l) → (∃ l, SuiteAt suites suiteId l) →
    ∃ s l, First (·.id = suiteId) suites s ∧ s.source = some l

/-- Tests, suites and the fallback are not in one place. -/
structure Apart (suites : List (TestSuite σ)) (suiteId testId : String) (fallback : Option σ) :
    Prop where
  suite : ∀ l, SuiteAt suites suiteId l → ¬TestAt suites suiteId testId l
  fallback : ∀ l ∈ fallback, ¬TestAt suites suiteId testId l ∧ ¬SuiteAt suites suiteId l

/-- **What is looked at is the first suite, and in it the first test.** -/
theorem stands_sourceOf (suites : List (TestSuite σ)) (suiteId testId : String)
    (fallback : Option σ) :
    Stands suites suiteId testId fallback (sourceOf suites suiteId testId <|> fallback) := by
  have hsuites : (fun s : TestSuite σ ↦ s.id == suiteId) = fun s ↦ decide (s.id = suiteId) := rfl
  have htests : (fun t : TestCase σ ↦ t.id == testId) = fun t ↦ decide (t.id = testId) := rfl
  rw [sourceOf, hsuites]
  cases hsuite : suites.find? fun s ↦ decide (s.id = suiteId) with
  | none =>
    refine .fallback fun s hs h ↦ ?_
    exact List.find?_eq_none.1 hsuite s hs (decide_eq_true h)
  | some s =>
    dsimp only
    rw [htests]
    cases htest : s.tests.find? fun t ↦ decide (t.id = testId) with
    | none =>
      refine .suite (first_iff.2 hsuite) fun t ht h ↦ ?_
      exact List.find?_eq_none.1 htest t ht (decide_eq_true h)
    | some t =>
      have hassoc : (t.source <|> s.source <|> fallback) = ((t.source <|> s.source) <|> fallback) := by
        cases t.source <;> rfl
      exact hassoc ▸ .test (first_iff.2 hsuite) (first_iff.2 htest)

/-- In a suite that is the first of its id, a test with a place is a test at this place. -/
theorem testAt_of_first {s : TestSuite σ} {t : TestCase σ} {l : σ}
    (hs : First (·.id = suiteId) suites s) (ht : First (·.id = testId) s.tests t)
    (hl : t.source = some l) : TestAt suites suiteId testId l :=
  ⟨s, hs.mem, hs.holds, t, ht.mem, ht.holds, hl⟩

theorem suiteAt_of_first {s : TestSuite σ} {l : σ} (hs : First (·.id = suiteId) suites s)
    (hl : s.source = some l) : SuiteAt suites suiteId l :=
  ⟨s, hs.mem, hs.holds, hl⟩

/-- The place of the suite that is looked at, or the fallback. It is the best known if no test is known, and
of suites none or the first. -/
theorem bestKnown_of_first {s : TestSuite σ} (hs : First (·.id = suiteId) suites s)
    (hk : FirstKnown suites suiteId testId) (hnone : ∀ l, ¬TestAt suites suiteId testId l) :
    BestKnown suites suiteId testId fallback (s.source <|> fallback) := by
  cases hl : s.source with
  | some l => exact .suite hnone (suiteAt_of_first hs hl)
  | none =>
    refine .fallback hnone fun l hsuite ↦ ?_
    obtain ⟨s', l', hs', hl'⟩ := hk.suite hnone ⟨l, hsuite⟩
    rw [hs.unique hs', hl'] at hl
    cases hl

/-- **Where the first are placed if any are, the best that is known is found.** -/
theorem Stands.bestKnown (h : Stands suites suiteId testId fallback place)
    (hk : FirstKnown suites suiteId testId) : BestKnown suites suiteId testId fallback place := by
  cases h with
  | @test s t hs ht =>
    cases hl : t.source with
    | some l => exact .test (testAt_of_first hs ht hl)
    | none =>
      -- The first test has no place, so no test has: else the first would.
      refine bestKnown_of_first hs hk fun l hknown ↦ ?_
      obtain ⟨s', t', l', hs', ht', hl'⟩ := hk.test ⟨l, hknown⟩
      obtain rfl := hs.unique hs'
      rw [ht.unique ht', hl'] at hl
      cases hl
  | @suite s hs hnone =>
    refine bestKnown_of_first hs hk fun l hknown ↦ ?_
    obtain ⟨s', t', -, hs', ht', -⟩ := hk.test ⟨l, hknown⟩
    obtain rfl := hs.unique hs'
    exact hnone t' ht'.mem ht'.holds
  | fallback hnone =>
    exact .fallback (fun _ ⟨s, hs, hid, _⟩ ↦ hnone s hs hid) fun _ ⟨s, hs, hid, _⟩ ↦ hnone s hs hid

/-- The best that is known of a test that is placed is the place of such a test. -/
theorem BestKnown.exists_testAt (h : BestKnown suites suiteId testId fallback place)
    (hknown : ∃ l, TestAt suites suiteId testId l) :
    ∃ l, place = some l ∧ TestAt suites suiteId testId l := by
  obtain ⟨l, hl⟩ := hknown
  cases h with
  | test known => exact ⟨_, rfl, known⟩
  | suite noTest known => exact absurd hl (noTest l)
  | fallback noTest noSuite => exact absurd hl (noTest l)

theorem BestKnown.exists_suiteAt (h : BestKnown suites suiteId testId fallback place)
    (hnone : ∀ l, ¬TestAt suites suiteId testId l) (hknown : ∃ l, SuiteAt suites suiteId l) :
    ∃ l, place = some l ∧ SuiteAt suites suiteId l := by
  obtain ⟨l, hl⟩ := hknown
  cases h with
  | test known => exact absurd known (hnone _)
  | suite noTest known => exact ⟨_, rfl, known⟩
  | fallback noTest noSuite => exact absurd hl (noSuite l)

section Apart

variable (ha : Apart suites suiteId testId fallback) {s : TestSuite σ}
  (hs : First (·.id = suiteId) suites s) {l : σ}

include ha hs

/-- Behind a suite no test stands, and neither does one behind the fallback. -/
theorem Apart.not_testAt (hl : (s.source <|> fallback) = some l) :
    ¬TestAt suites suiteId testId l := by
  cases hsource : s.source with
  | some l' =>
    rw [hsource] at hl
    obtain rfl : l' = l := Option.some.inj hl
    exact ha.suite l' (suiteAt_of_first hs hsource)
  | none =>
    rw [hsource] at hl
    exact (ha.fallback l hl).1

omit hs in
theorem Apart.source_eq (hl : (s.source <|> fallback) = some l) (hsuite : SuiteAt suites suiteId l) :
    s.source = some l := by
  cases hsource : s.source with
  | some l' => rwa [hsource] at hl
  | none =>
    rw [hsource] at hl
    exact absurd hsuite (ha.fallback l hl).2

end Apart

/-- **And it is found only there**, unless by chance something else is in the same place. -/
theorem Stands.firstKnown (h : Stands suites suiteId testId fallback place)
    (hb : BestKnown suites suiteId testId fallback place) (ha : Apart suites suiteId testId fallback) :
    FirstKnown suites suiteId testId := by
  refine ⟨fun hknown ↦ ?_, fun hnone hknown ↦ ?_⟩
  · obtain ⟨l, hplace, hl⟩ := hb.exists_testAt hknown
    cases h with
    | @test s t hs ht =>
      cases hsource : t.source with
      | some l' => exact ⟨s, t, l', hs, ht, hsource⟩
      | none =>
        -- Then it is another place that is found, and no test stands there.
        rw [hsource] at hplace
        exact absurd hl (ha.not_testAt hs hplace)
    | suite hs _ => exact absurd hl (ha.not_testAt hs hplace)
    | fallback _ => exact absurd hl (ha.fallback l hplace).1
  · obtain ⟨l, hplace, hl⟩ := hb.exists_suiteAt hnone hknown
    cases h with
    | @test s t hs ht =>
      cases hsource : t.source with
      | some l' => exact absurd (testAt_of_first hs ht hsource) (hnone l')
      | none =>
        rw [hsource] at hplace
        exact ⟨s, l, hs, ha.source_eq hplace hl⟩
    | @suite s hs _ => exact ⟨s, l, hs, ha.source_eq hplace hl⟩
    | fallback _ => exact absurd hl (ha.fallback l hplace).2

/-- Where no id is there twice nothing is hidden. -/
theorem firstKnown_of_nodup (hsuites : (suites.map (·.id)).Nodup)
    (htests : ∀ s ∈ suites, (s.tests.map (·.id)).Nodup) : FirstKnown suites suiteId testId := by
  refine ⟨?_, fun _ ↦ ?_⟩
  · rintro ⟨l, s, hs, rfl, t, ht, rfl, hl⟩
    exact ⟨s, t, l, first_of_nodup hsuites hs, first_of_nodup (htests s hs) ht, hl⟩
  · rintro ⟨l, s, hs, rfl, hl⟩
    exact ⟨s, l, first_of_nodup hsuites hs, hl⟩

end TestSuite

namespace TestOutcome

open TestSuite

/-- **Results stand where the first suite and the first test of their ids do.** Every list of outcomes whose
ids are texts becomes as many results. Each is located at the first test of its id in the first suite of
its id, at this suite, or at the fallback, the first of these that is known. This is the best that is known
wherever the first are placed if any are, as they are if no id is there twice; and wherever they are not,
it is not, unless by chance something else is in the same place. -/
theorem results_located (path : String) (suites : List (TestSuite Location))
    (fallback : Option Location) {outcomes : List TestOutcome} (h : ∀ o ∈ outcomes, o.Readable) :
    ∃ rs, results (.text path) suites outcomes fallback = .ok rs ∧
      List.Forall₂ (fun o r ↦ ∃ suiteId testId, o.suite = .text suiteId ∧ o.test = .text testId ∧
        Stands suites suiteId testId fallback r.location ∧
        (FirstKnown suites suiteId testId → BestKnown suites suiteId testId fallback r.location) ∧
        (Apart suites suiteId testId fallback →
          BestKnown suites suiteId testId fallback r.location → FirstKnown suites suiteId testId) ∧
        ((suites.map (·.id)).Nodup → (∀ s ∈ suites, (s.tests.map (·.id)).Nodup) →
          BestKnown suites suiteId testId fallback r.location)) outcomes rs := by
  obtain ⟨rs, hrs, hall⟩ := results_of_readable path suites fallback h
  refine ⟨rs, hrs, hall.imp ?_⟩
  rintro o r ⟨⟨ids, _, _, hids, -⟩, hlocation⟩
  obtain ⟨suiteId, testId, hsuite, htest⟩ := hids.texts
  have hstands := stands_sourceOf suites suiteId testId fallback
  rw [location, hsuite, htest] at hlocation
  rw [hlocation]
  exact ⟨suiteId, testId, hsuite, htest, hstands, hstands.bestKnown,
    fun ha hb ↦ hstands.firstKnown hb ha,
    fun hsuites htests ↦ hstands.bestKnown (firstKnown_of_nodup hsuites htests)⟩

/-- Where the test of the second of `repeatedSuites` stands. -/
def secondPlace : Location :=
  ⟨"d", ⟨⟨1, 0⟩, ⟨1, 5⟩, by decide⟩⟩

/-- Two suites of one id, with a test each. Only the test of the second has a place. -/
def repeatedSuites : List (TestSuite Location) :=
  [⟨"a", [⟨"t", none⟩], none⟩, ⟨"a", [⟨"u", some secondPlace⟩], none⟩]

/-- That the test succeeded. -/
def passed (testId : String) : TestOutcome :=
  ⟨.text "a", .text testId, none, .text "SUCCESS", .text "", none⟩

theorem readable_passed (testId : String) : (passed testId).Readable :=
  ⟨["a", testId], rfl⟩

theorem testAt_repeated_iff {testId : String} {l : Location} :
    TestAt repeatedSuites "a" testId l ↔ testId = "u" ∧ l = secondPlace := by
  simp [TestAt, repeatedSuites, eq_comm]

theorem not_suiteAt_repeated (l : Location) : ¬SuiteAt repeatedSuites "a" l := by
  simp [SuiteAt, repeatedSuites]

/-- The test with a place is in the second suite, and the first has no such test. -/
theorem not_firstKnown_repeated : ¬FirstKnown repeatedSuites "a" "u" := by
  intro hk
  obtain ⟨s, t, -, hs, ht, -⟩ := hk.test ⟨secondPlace, testAt_repeated_iff.2 ⟨rfl, rfl⟩⟩
  have hhead : First (·.id = "a") repeatedSuites ⟨"a", [⟨"t", none⟩], none⟩ :=
    ⟨[], _, rfl, rfl, fun _ h ↦ nomatch h⟩
  obtain rfl := hhead.unique hs
  obtain rfl := List.mem_singleton.1 ht.mem
  exact absurd ht.holds (by decide)

/-- Of the first test no place is known, and so the fallback is the best there is. The place of the second
is known, and it is not where its result stands. -/
theorem results_located_repeated :
    ∃ r r', results (.text "s") repeatedSuites [passed "t", passed "u"] none = .ok [r, r'] ∧
      BestKnown repeatedSuites "a" "t" none r.location ∧
      ¬BestKnown repeatedSuites "a" "u" none r'.location := by
  have hreadable : ∀ o ∈ [passed "t", passed "u"], o.Readable := by
    simp [readable_passed]
  obtain ⟨rs, hrs, hall⟩ := results_located "s" repeatedSuites none hreadable
  match rs, hall with
  | [r, r'], .cons hr (.cons hr' .nil) =>
    obtain ⟨suiteId, testId, hsuite, htest, -, hbest, -⟩ := hr
    obtain ⟨suiteId', testId', hsuite', htest', -, -, honly, -⟩ := hr'
    cases hsuite
    cases htest
    cases hsuite'
    cases htest'
    have hplaceless : FirstKnown repeatedSuites "a" "t" :=
      ⟨fun ⟨_, hl⟩ ↦ absurd (testAt_repeated_iff.1 hl).1 (by decide),
        fun _ ⟨l, hl⟩ ↦ absurd hl (not_suiteAt_repeated l)⟩
    have hapart : Apart repeatedSuites "a" "u" none :=
      ⟨fun l hl ↦ absurd hl (not_suiteAt_repeated l), fun _ hl ↦ nomatch hl⟩
    exact ⟨r, r', hrs, hbest hplaceless, fun h ↦ not_firstKnown_repeated (honly hapart h)⟩

/-- **A place that is known may be missed**: the test is in the second suite of the id, and is placed there,
but only the first suite is looked at. -/
theorem place_in_second_suite_missed :
    ∃ r, results (.text "s") repeatedSuites [passed "u"] none = .ok [r] ∧ r.location = none ∧
      TestAt repeatedSuites "a" "u" secondPlace ∧
      ¬BestKnown repeatedSuites "a" "u" none r.location := by
  have hknown : TestAt repeatedSuites "a" "u" secondPlace := testAt_repeated_iff.2 ⟨rfl, rfl⟩
  refine ⟨⟨["s", "a", "u"], .success, "s.a.u: SUCCESS", none, none, by decide⟩, by rfl, rfl, hknown,
    fun h ↦ ?_⟩
  obtain ⟨l, hplace, -⟩ := h.exists_testAt ⟨secondPlace, hknown⟩
  cases hplace

end TestOutcome

end ModelServer
