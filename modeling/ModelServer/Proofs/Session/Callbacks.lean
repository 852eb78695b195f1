import ModelServer.Proofs.Session.Shape

/-!
# When callbacks run

`Orderly` says when the callbacks of a token run, call by call: none before the token is cancelled, and none
twice; those that wait within the first call to cancel it and in the order in which they were registered,
the others within the call that registers them. It holds of all that can be done with a token
(`callbacks_orderly`), since it follows from the shape of what is seen (`Shape`).
-/

namespace ModelServer.Token

variable {request : String} {h : List Sight} {ks : List Nat} {o : Option Waiting} {n k : Nat}

/-! ### From the shape -/

theorem Shape.answers (hs : Shape request ks n h k o) : Answers request h := by
  cases hs with
  | waiting quiet _ => exact quiet.answers
  | @cancelled early during late c m _ fault quiet drained rest =>
    have hcall : Answers request
        (⟨false, .asks c .cancel⟩ :: (during ++ [⟨true, .answers c fault⟩])) :=
      .call (.cancels c during fault) (drained.answers.append (.cons rfl .nil))
    have hall := quiet.answers.append (hcall.append rest.answers)
    simpa using hall

theorem Shape.counted (hs : Shape request ks n h k o) : Counted n h k := by
  cases hs with
  | waiting quiet _ => exact quiet.counted
  | cancelled quiet drained rest =>
    exact quiet.counted.append (.call (drained.counted.append (.cons rfl rest.counted)))

theorem Shape.ended_perm (hs : Shape request ks n h k o) : (ended h).Perm (begun h) := by
  cases hs with
  | waiting quiet _ => rw [quiet.ended_eq, quiet.begun_eq]
  | @cancelled early during late c m _ fault quiet drained rest =>
    rw [ended_cancellation, begun_cancellation, quiet.ended_eq, quiet.begun_eq]
    exact drained.ended_perm.append rest.ended_perm

/-- Each callback that runs has waited or is registered, and counts once. -/
theorem Shape.begun_subperm (hs : Shape request ks n h k o) :
    (begun h).Subperm (ks ++ registered h) := by
  cases hs with
  | waiting quiet _ =>
    rw [quiet.begun_eq]
    exact List.nil_subperm
  | @cancelled early during late c m _ fault quiet drained rest =>
    rw [begun_cancellation, registered_cancellation, quiet.begun_eq, List.nil_append,
      ← List.append_assoc, ← List.append_assoc, rest.begun_eq]
    exact drained.begun_subperm.append (.refl _)

/-- The token is cancelled from the first call on that cancels it. -/
theorem Shape.cancelled_iff (hs : Shape request ks n h k o) {before after : List Sight} {s : Sight}
    (hsplit : h = before ++ s :: after) :
    s.cancelled = true ↔ ∃ b c, ⟨b, .asks c .cancel⟩ ∈ before := by
  -- As long as no more has happened than what is early, neither side holds.
  have hearly {early : List Sight} {m : Nat} (quiet : Early n early m) (hsub : before ⊆ early)
      (hs : s.cancelled = false) :
      s.cancelled = true ↔ ∃ b c, ⟨b, .asks c .cancel⟩ ∈ before :=
    iff_of_false (by simp [hs]) fun ⟨b, c, hmem⟩ ↦ quiet.not_cancels b c (hsub hmem)
  cases hs with
  | waiting quiet _ =>
    subst hsplit
    exact hearly quiet (List.subset_append_left _ _) (quiet.uncancelled s (by simp))
  | @cancelled early during late c m _ fault quiet drained rest =>
    have hloud : ∀ s ∈ during ++ ⟨true, .answers c fault⟩ :: late, s.cancelled = true := by
      simpa [or_imp, forall_and] using ⟨drained.cancelled, rest.cancelled⟩
    rcases List.append_eq_append_iff.1 hsplit with ⟨more, rfl, htail⟩ | ⟨more, rfl, htail⟩
    · rcases more with _ | ⟨first, more⟩
      · obtain ⟨rfl, -⟩ := List.cons.inj htail
        exact hearly quiet (by simp) rfl
      · obtain ⟨rfl, hrest⟩ := List.cons.inj htail
        exact iff_of_true (hloud s (hrest ▸ by simp)) ⟨false, c, by simp⟩
    · rcases more with _ | ⟨first, more⟩
      · obtain ⟨rfl, -⟩ := List.cons.inj htail
        exact hearly quiet (by simp) rfl
      · obtain ⟨rfl, -⟩ := List.cons.inj htail
        exact hearly quiet (by simp) (quiet.uncancelled s (by simp))

/-- The first call that cancels the token, and what happens before, within and after it. -/
theorem Shape.first_cancel (hs : Shape request [] n h k o) {c : Nat}
    (hc : ⟨false, .asks c .cancel⟩ ∈ h) : ∃ before during fault after,
      h = before ++ ⟨false, .asks c .cancel⟩ :: (during ++ ⟨true, .answers c fault⟩ :: after) ∧
        (begun during).filter (· < c) <+: registered before ∧
        ∀ i < c, i ∉ begun after ∧ i ∉ ended after := by
  cases hs with
  | waiting quiet _ => exact absurd hc (quiet.not_cancels false c)
  | @cancelled early during late c' m _ fault quiet drained rest =>
    obtain rfl : c = c' := by
      have hdrained : ⟨false, .asks c .cancel⟩ ∉ during := fun hmem ↦
        Bool.false_ne_true (drained.cancelled _ hmem)
      have hrest : ⟨false, .asks c .cancel⟩ ∉ late := fun hmem ↦
        Bool.false_ne_true (rest.cancelled _ hmem)
      simpa [quiet.not_cancels false c, hdrained, hrest] using hc
    have hafter (i : Nat) (hi : i < c) : i ∉ begun late := by
      rw [rest.begun_eq]
      intro hmem
      have hlow := (rest.counted.bounds hmem).1
      have hdrained := drained.counted.1
      omega
    refine ⟨early, during, fault, late, rfl, ?_, fun i hi ↦ ⟨hafter i hi, ?_⟩⟩
    · exact drained.waiting_prefix (Nat.le_succ c) fun i hi ↦ (quiet.counted.bounds hi).2
    · rw [rest.ended_perm.mem_iff]
      exact hafter i hi

/-- A callback that begins does so on a token that is cancelled. -/
theorem Shape.cancelled_of_begins (hs : Shape request ks n h k o) {b : Bool} {i : Nat}
    (hmem : ⟨b, .begins i⟩ ∈ h) : b = true := by
  cases hs with
  | waiting quiet _ => exact absurd hmem (quiet.not_begins b i)
  | cancelled quiet drained rest =>
    simp only [List.mem_append, List.mem_cons, quiet.not_begins b i, Sight.mk.injEq, reduceCtorEq,
      and_false, false_or] at hmem
    exact hmem.elim (drained.cancelled _) (rest.cancelled _)

theorem Shape.eq_none_iff (hs : Shape request ks n h k o) :
    o = none ↔ ∃ b c, ⟨b, .asks c .cancel⟩ ∈ h := by
  cases hs with
  | waiting quiet _ => exact iff_of_false (by simp) fun ⟨b, c, hmem⟩ ↦ quiet.not_cancels b c hmem
  | @cancelled early during late c m _ fault quiet drained rest =>
    exact iff_of_true rfl ⟨false, c, by simp⟩

/-! ### Order -/

/-- Callbacks run in order. -/
structure Orderly (request : String) (h : List Sight) : Prop where
  /-- No two calls have the same number. -/
  counted : asked h = List.range (asked h).length
  /-- The token is cancelled from the first call on that cancels it. -/
  since : ∀ before s after, h = before ++ s :: after →
    (s.cancelled = true ↔ ∃ b c, ⟨b, .asks c .cancel⟩ ∈ before)
  /-- A call is answered as it should be: the check of a token by a fault just if it is cancelled, and the
  registration of a callback on a token that is cancelled when the callback has run. -/
  answered : Answers request h
  /-- No callback runs before the token is cancelled. -/
  notEarly : ∀ b i, ⟨b, .begins i⟩ ∈ h → b = true
  /-- Callbacks run that are registered, and none twice. -/
  once : (begun h).Nodup ∧ begun h ⊆ registered h
  /-- Callbacks that begin end. -/
  ended : (ended h).Perm (begun h)
  /-- Of the callbacks that were registered before the first call to cancel the token, those that run do so
  within this call, and in the order of registration. -/
  inOrder : ∀ c, ⟨false, .asks c .cancel⟩ ∈ h → ∃ before during fault after,
    h = before ++ ⟨false, .asks c .cancel⟩ :: (during ++ ⟨true, .answers c fault⟩ :: after) ∧
      (begun during).filter (· < c) <+: registered before ∧
      ∀ i < c, i ∉ begun after ∧ i ∉ Token.ended after

theorem Shape.orderly (hs : Shape request [] 0 h k o) : Orderly request h where
  counted := by
    have hasked := hs.counted.2
    rw [List.Ico.zero_bot] at hasked
    rw [hasked, List.length_range]
  since _ _ _ hsplit := hs.cancelled_iff hsplit
  answered := hs.answers
  notEarly _ _ hmem := hs.cancelled_of_begins hmem
  once := by
    have hnodup := (registered_sublist_asked h).nodup hs.counted.nodup
    obtain ⟨l, hperm, hsub⟩ := hs.begun_subperm
    exact ⟨hperm.nodup_iff.1 (hsub.nodup hnodup), hs.begun_subperm.subset⟩
  ended := hs.ended_perm
  inOrder _ hc := hs.first_cancel hc

/-- **The callbacks of a token run in order**, whatever is done with it, and whatever they themselves do
with it: a run leaves what is on record, and the record is orderly. -/
theorem callbacks_orderly (request : String) (r : Routine) :
    (run r (.new request)).1 = (course request r).trail ∧
      ((run r (.new request)).2.cancelled = true ↔
        ∃ b c, ⟨b, .asks c .cancel⟩ ∈ (course request r).seen) ∧
      Orderly request (course request r).seen := by
  have hshape := shape_watch request r 0 []
  rw [run_new]
  refine ⟨rfl, ?_, hshape.orderly⟩
  refine Iff.trans ?_ hshape.eq_none_iff
  cases (watch request r 0 []).2 <;> simp [ofWaiting]

end ModelServer.Token
