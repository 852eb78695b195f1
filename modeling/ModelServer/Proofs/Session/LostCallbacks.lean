import ModelServer.Proofs.Session.Callbacks

/-!
# Callbacks that are lost

A callback is registered to be run when its token is cancelled. That it fails concerns none of those that
are registered later: these run within the calls that register them. But of those that wait, all behind the
first that fails are lost: their run ends with it, and since the token has let go of them by then, they are
not run by any later call either. `callbacks_run_iff` says just which callbacks run; `failure_loses_callback`
is the smallest run in which one does not.
-/

namespace ModelServer

/-- What is done in turn, each part whatever became of those before it. -/
def Routine.inTurn (rs : List Routine) : Routine :=
  rs.foldr .attempt .done

namespace Token

variable {request : String} {h h' : List Sight} {ks : List Nat} {o : Option Waiting}
  {fault : Option Fault} {c i n m k : Nat}

/-- The callback waits for the token to be cancelled. -/
def Waits (h : List Sight) (i : Nat) : Prop :=
  ⟨false, .asks i .onCancel⟩ ∈ h

/-- The callback ends in a fault. -/
def Fails (h : List Sight) (i : Nat) : Prop :=
  ∃ f, ⟨true, .ends i (some f)⟩ ∈ h

theorem Fails.mem_ended (hf : Fails h i) : i ∈ ended h := by
  obtain ⟨f, hmem⟩ := hf
  exact List.mem_filterMap.2 ⟨_, hmem, rfl⟩

section Callback

variable (i : Nat) (during h : List Sight) (f : Option Fault) {j : Nat}

theorem mem_begun_callback :
    j ∈ begun (⟨true, .begins i⟩ :: (during ++ ⟨true, .ends i f⟩ :: h)) ↔
      j = i ∨ j ∈ begun during ∨ j ∈ begun h := by
  rw [begun_callback, List.mem_cons, List.mem_append]

theorem fails_callback :
    Fails (⟨true, .begins i⟩ :: (during ++ ⟨true, .ends i none⟩ :: h)) j ↔
      Fails during j ∨ Fails h j := by
  simp [Fails, exists_or]

end Callback

theorem Late.not_mem_begun (hl : Late request n h m) (hi : i < n) : i ∉ begun h := by
  rw [hl.begun_eq]
  exact fun hmem ↦ absurd (hl.counted.bounds hmem).1 (Nat.not_le.2 hi)

theorem Late.not_fails (hl : Late request n h m) (hi : i < n) : ¬Fails h i := by
  intro hf
  exact hl.not_mem_begun hi (hl.ended_perm.mem_iff.1 hf.mem_ended)

/-- Only those run that waited, or that are registered meanwhile. -/
theorem Drained.not_mem_begun (hd : Drained request ks n h fault m) (hi : i < n) (hks : i ∉ ks) :
    i ∉ begun h := by
  intro hmem
  rcases List.mem_append.1 (hd.begun_subperm.subset hmem) with hmem | hmem
  · exact hks hmem
  · exact absurd (hd.counted.bounds hmem).1 (Nat.not_le.2 hi)

theorem Drained.not_fails (hd : Drained request ks n h fault m) (hi : i < n) (hks : i ∉ ks) :
    ¬Fails h i := by
  intro hf
  exact hd.not_mem_begun hi hks (hd.ended_perm.mem_iff.1 hf.mem_ended)

theorem not_lt_first {first : Nat} {is : List Nat} (hbefore : ∀ j ∈ is, first < j) :
    ∀ j ∈ first :: is, ¬j < first :=
  List.forall_mem_cons.2 ⟨Nat.lt_irrefl _, fun j hj ↦ Nat.lt_asymm (hbefore j hj)⟩

/-- **Of those that wait, the ones run before which none fails.** -/
theorem Drained.mem_begun_iff (hd : Drained request ks n h fault m) (hc : c ≤ n)
    (hks : ∀ i ∈ ks, i < c) (hsorted : ks.Pairwise (· < ·)) (hi : i ∈ ks) :
    i ∈ begun h ↔ ∀ j ∈ ks, j < i → ¬Fails h j := by
  induction hd with
  | nil n => cases hi
  | @next first n m k is during h fault callback rest ih =>
    obtain ⟨hfirst, his⟩ := List.forall_mem_cons.1 hks
    obtain ⟨hbefore, hsorted⟩ := List.pairwise_cons.1 hsorted
    have hck : c ≤ k := hc.trans callback.counted.1
    have hfails (j : Nat) (hj : j < c) :
        Fails (⟨true, .begins first⟩ :: (during ++ ⟨true, .ends first none⟩ :: h)) j ↔ Fails h j := by
      rw [fails_callback, or_iff_right (callback.not_fails (hj.trans_le hc))]
    rcases List.mem_cons.1 hi with rfl | hi
    · exact iff_of_true List.mem_cons_self fun j hj hlt ↦ absurd hlt (not_lt_first hbefore j hj)
    · have hsucceeds : ¬Fails h first :=
        rest.not_fails (hfirst.trans_le hck) fun hmem ↦ Nat.lt_irrefl _ (hbefore first hmem)
      rw [mem_begun_callback, or_iff_right (hbefore i hi).ne',
        or_iff_right (callback.not_mem_begun ((his i hi).trans_le hc)), ih hck his hsorted hi,
        List.forall_mem_cons, hfails first hfirst, and_iff_right fun _ ↦ hsucceeds]
      exact forall₂_congr fun j hj ↦ by rw [hfails j (his j hj)]
  | @fault first n k is during f callback =>
    obtain ⟨hbefore, -⟩ := List.pairwise_cons.1 hsorted
    rcases List.mem_cons.1 hi with rfl | hi
    · exact iff_of_true List.mem_cons_self fun j hj hlt ↦ absurd hlt (not_lt_first hbefore j hj)
    · -- The first one fails, and with it ends what would have run the others.
      refine iff_of_false ?_ fun hall ↦
        hall first List.mem_cons_self (hbefore i hi) ⟨f, by simp⟩
      have hic := hks i (List.mem_cons_of_mem _ hi)
      rw [mem_begun_callback, or_iff_right (hbefore i hi).ne',
        or_iff_right (callback.not_mem_begun (hic.trans_le hc))]
      exact List.not_mem_nil

/-- A callback that is registered while the token is being cancelled runs. -/
theorem Drained.registered_subset (hd : Drained request ks n h fault m) :
    registered h ⊆ begun h := by
  induction hd with
  | nil n => exact List.Subset.refl _
  | @next i n m k is during h fault callback _ ih =>
    rw [registered_callback, begun_callback, callback.begun_eq]
    exact List.subset_cons_of_subset i (List.append_subset.2 ⟨List.subset_append_left _ _,
      List.Subset.trans ih (List.subset_append_right _ _)⟩)
  | @fault i n k is during f callback =>
    rw [registered_callback, begun_callback, callback.begun_eq]
    exact List.subset_cons_self _ _

/-- The callbacks that wait are those that are registered early. -/
theorem Early.mem_registered_iff (he : Early n h m) : i ∈ registered h ↔ Waits h i := by
  induction he with
  | nil n => simp [registered, Waits]
  | marks label _ ih => exact ih.trans (by simp [Waits])
  | @onCancel n m h _ ih =>
    show i ∈ n :: registered h ↔ _
    rw [List.mem_cons, ih]
    simp [Waits]
  | check _ ih => exact ih.trans (by simp [Waits])

theorem Early.pairwise_registered (he : Early n h m) : (registered h).Pairwise (· < ·) := by
  refine List.Pairwise.sublist (registered_sublist_asked h) ?_
  rw [he.counted.2]
  exact List.Ico.pairwise_lt n m

theorem Early.not_fails (he : Early n h m) : ¬Fails h i :=
  fun ⟨_, hmem⟩ ↦ nomatch he.quiet _ hmem

section Cancelled

variable {early during late : List Sight}

/-- What waits on a token that is cancelled then is what was registered early. -/
theorem waits_iff (quiet : Early n early c) (drained : Drained request ks (c + 1) during fault m)
    (rest : Late request m late k) :
    Waits (early ++ ⟨false, .asks c .cancel⟩ :: (during ++ ⟨true, .answers c fault⟩ :: late)) i ↔
      i ∈ registered early := by
  have hduring : ⟨false, .asks i .onCancel⟩ ∉ during := fun hmem ↦
    Bool.false_ne_true (drained.cancelled _ hmem)
  have hlate : ⟨false, .asks i .onCancel⟩ ∉ late := fun hmem ↦
    Bool.false_ne_true (rest.cancelled _ hmem)
  rw [quiet.mem_registered_iff]
  simp [Waits, hduring, hlate]

/-- What waits can fail only within the first call to cancel the token. -/
theorem fails_iff (quiet : Early n early c) (drained : Drained request ks (c + 1) during fault m)
    (rest : Late request m late k) (hi : i < c) :
    Fails (early ++ ⟨false, .asks c .cancel⟩ :: (during ++ ⟨true, .answers c fault⟩ :: late)) i ↔
      Fails during i := by
  have hearly : ¬Fails early i := quiet.not_fails
  have hlate : ¬Fails late i := rest.not_fails (by have := drained.counted.1; omega)
  simp only [Fails, not_exists] at hearly hlate
  simp [Fails, hearly, hlate]

theorem mem_begun_iff (quiet : Early n early c) :
    i ∈ begun (early ++ ⟨false, .asks c .cancel⟩ :: (during ++ ⟨true, .answers c fault⟩ :: late)) ↔
      i ∈ begun during ∨ i ∈ begun late := by
  rw [begun_cancellation, quiet.begun_eq, List.nil_append, List.mem_append]

end Cancelled

/-- **Which callbacks run:** all that are registered, but for those that wait behind one that fails. -/
theorem Shape.mem_begun_iff (hs : Shape request [] n h k none) (hi : i ∈ registered h) :
    i ∈ begun h ↔ (Waits h i → ∀ j < i, Waits h j → ¬Fails h j) := by
  cases hs with
  | @cancelled early during late c m _ fault quiet drained rest =>
    have hbounds (j : Nat) (hj : j ∈ registered early) : j < c := (quiet.counted.bounds hj).2
    simp only [waits_iff quiet drained rest, Token.mem_begun_iff quiet]
    by_cases hwaits : i ∈ registered early
    · have hlate : i ∉ begun late :=
        rest.not_mem_begun (by have := hbounds i hwaits; have := drained.counted.1; omega)
      rw [or_iff_left hlate,
        drained.mem_begun_iff (Nat.le_succ c) hbounds quiet.pairwise_registered hwaits,
        forall_prop_of_true hwaits]
      constructor
      · intro hall j hlt hj
        rw [fails_iff quiet drained rest (hbounds j hj)]
        exact hall j hj hlt
      · intro hall j hj hlt
        rw [← fails_iff quiet drained rest (hbounds j hj)]
        exact hall j hlt hj
    · refine iff_of_true ?_ fun hmem ↦ absurd hmem hwaits
      rw [registered_cancellation, List.mem_append, or_iff_right hwaits, List.mem_append] at hi
      exact hi.imp (fun h ↦ drained.registered_subset h) fun h ↦ rest.begun_eq ▸ h

/-- **Callbacks are lost behind a failure, and nowhere else.** Of a token that is cancelled in the end, a
callback that was registered at any time has run, and only once, unless it waited and one that was
registered before it, and waited too, failed. So all have run just if none that waits fails but the
last. -/
theorem callbacks_run_iff {r : Routine} (hc : (run r (.new request)).2.cancelled = true) :
    (run r (.new request)).1 = (course request r).trail ∧
      (begun (course request r).seen).Nodup ∧
      (∀ i ∈ registered (course request r).seen, i ∈ begun (course request r).seen ↔
        (Waits (course request r).seen i →
          ∀ j < i, Waits (course request r).seen j → ¬Fails (course request r).seen j)) ∧
      ((∀ i ∈ registered (course request r).seen, i ∈ begun (course request r).seen) ↔
        ∀ i j, Waits (course request r).seen i → Waits (course request r).seen j →
          Fails (course request r).seen j → i ≤ j) := by
  have hshape := shape_watch request r 0 []
  have hnone : (watch request r 0 []).2 = none := by
    rw [run_new] at hc
    rcases hlast : (watch request r 0 []).2 with _ | ws
    · rfl
    · rw [hlast] at hc
      cases hc
  rw [hnone] at hshape
  have hiff (i : Nat) (hi : i ∈ registered (course request r).seen) := hshape.mem_begun_iff hi
  refine ⟨by rw [run_new], hshape.orderly.once.1, hiff, fun hall i j hi hj hfails ↦ ?_,
    fun hlast i hi ↦ (hiff i hi).2 fun hwaits j hlt hj hfails ↦ ?_⟩
  · by_contra hlt
    have hregistered : i ∈ registered (course request r).seen := List.mem_filterMap.2 ⟨_, hi, rfl⟩
    exact (hiff i hregistered).1 (hall i hregistered) hi j (Nat.lt_of_not_le hlt) hj hfails
  · exact absurd (hlast i j hwaits hj hfails) (Nat.not_le.2 hlt)

/-- Two callbacks that wait, of which the first fails; the token is cancelled twice, and then a third
callback is registered. -/
def losing : Routine :=
  .inTurn [.onCancel (.note "first" (.fail (.plain .runtime "cb"))) .done,
    .onCancel (.note "second" .done) .done, .cancel .done, .cancel .done,
    .onCancel (.note "third" .done) .done]

theorem seen_losing : (course "r" losing).seen =
    [⟨false, .asks 0 .onCancel⟩, ⟨false, .answers 0 none⟩,
      ⟨false, .asks 1 .onCancel⟩, ⟨false, .answers 1 none⟩,
      ⟨false, .asks 2 .cancel⟩, ⟨true, .begins 0⟩, ⟨true, .marks "first"⟩,
      ⟨true, .ends 0 (some (.plain .runtime "cb"))⟩,
      ⟨true, .answers 2 (some (.plain .runtime "cb"))⟩,
      ⟨true, .asks 3 .cancel⟩, ⟨true, .answers 3 none⟩,
      ⟨true, .asks 4 .onCancel⟩, ⟨true, .begins 4⟩, ⟨true, .marks "third"⟩, ⟨true, .ends 4 none⟩,
      ⟨true, .answers 4 none⟩] :=
  rfl

/-- The third of them did not wait, and runs; the second waited behind the first. -/
theorem losing_runs_third : (run losing (.new "r")).2.cancelled = true ∧
    4 ∈ begun (course "r" losing).seen ∧ 1 ∉ begun (course "r" losing).seen := by
  have hcancelled : (run losing (.new "r")).2.cancelled = true := rfl
  obtain ⟨-, -, hiff, -⟩ := callbacks_run_iff hcancelled
  rw [seen_losing] at hiff ⊢
  refine ⟨hcancelled, (hiff 4 (by decide)).2 fun hwaits ↦ absurd hwaits (by simp [Waits]),
    fun hsecond ↦ ?_⟩
  exact (hiff 1 (by decide)).1 hsecond (by simp [Waits]) 0 (by decide) (by simp [Waits])
    ⟨.plain .runtime "cb", by simp⟩

/-- **A callback that fails keeps those from running that were registered after it**: the token is
cancelled in the end, and the second of its callbacks is never run. -/
theorem failure_loses_callback : (run losing (.new "r")).2.cancelled = true ∧
    (run losing (.new "r")).1.labels = ["first", "third"] ∧
    registered (course "r" losing).seen = [0, 1, 4] ∧ begun (course "r" losing).seen = [0, 4] :=
  ⟨rfl, rfl, rfl, rfl⟩

end Token

end ModelServer
