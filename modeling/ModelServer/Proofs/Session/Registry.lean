import Mathlib.Data.List.Nodup
import ModelServer.Proofs.Session.Tokens

/-!
# Runs of the registry

Requests come and go in any order: one is entered while others run, is cancelled before, while or after
it runs, is asked for, and is left, by its end or by a fault. `Registry.Move` is one of these, and
`Registry.after` what a sequence of them comes to, where beside the requests the scopes are kept that were
entered and not left, each with the token that it was given and with whether its request was cancelled
since. The scopes are what ought to be registered; nothing of the requests goes into them but the tokens
that `Requests.start` hands out.

A scope that is left takes its id out of the registry, whatever token is registered under it then.
`Registry.Sound` is the invariant that makes this right: what is registered under an id is the token of
the one scope of that id (`Sound.step`, `sound_after`), so a scope finds its own token when it is left,
and a scope that was refused has nothing to leave.
-/

namespace ModelServer

namespace Requests

variable {r : Requests} {id : String} {t : TokenId}

/-! ### One request -/

theorem isNothing_text (hid : id ≠ "") : RequestId.isNothing (.text id) = false := by
  show id.isEmpty = false
  simpa using hid

theorem start_of_live (hid : id ≠ "") (h : r.live? (.text id) = some t) :
    start (.text id) r = (.error (.alreadyRunning (.text id)), r) := by
  have hkey : keyOf (.text id) = .ok (.text id) := rfl
  have hlive : r.isLive (.text id) = true := by rw [isLive, h, Option.isSome_some]
  rw [start, isNothing_text hid, if_neg Bool.false_ne_true, hkey]
  exact if_pos hlive

/-- A request that is not running gets a token of its own, and nothing else changes. -/
theorem start_of_free (hid : id ≠ "") (h : r.live? (.text id) = none) :
    start (.text id) r =
      (.ok r.tokens.length,
        { r with
          tokens := r.tokens ++ [.new id]
          live := Dictionary.put (.text id) r.tokens.length r.live }) := by
  have hkey : keyOf (.text id) = .ok (.text id) := rfl
  have hfree : ¬r.isLive (.text id) = true := by rw [isLive, h]; exact Bool.false_ne_true
  rw [start, isNothing_text hid, if_neg Bool.false_ne_true, hkey]
  exact if_neg hfree

/-- Nothing runs without a name. -/
theorem start_nameless (r : Requests) : start (.text "") r = (.error anonymous, r) :=
  rfl

theorem beq_text (id other : String) :
    ((Key.text other : Key Empty) == .text id) = (other == id) := by
  rw [Bool.eq_iff_iff, beq_iff_eq, beq_iff_eq, Key.text.injEq]

theorem live?_put (r : Requests) (tokens : List Token) (id other : String) (t : TokenId) :
    ({ r with tokens, live := Dictionary.put (.text id) t r.live } : Requests).live? (.text other) =
      if other = id then some t else r.live? (.text other) := by
  show (Dictionary.put (.text id) t r.live).lookup (.text other) = _
  rw [Dictionary.lookup_put, beq_text]
  simp only [beq_iff_eq]
  rfl

theorem live?_finish (r : Requests) (id other : String) :
    (r.finish (.text id)).live? (.text other) =
      if other = id then none else r.live? (.text other) := by
  show (Dictionary.erase (.text id) r.live).lookup (.text other) = _
  rw [Dictionary.lookup_erase, beq_text]
  simp only [beq_iff_eq]
  rfl

theorem cancel_of_free (h : r.live? (.text id) = none) : cancel (.text id) r = (.ok false, r) := by
  have hkey : keyOf (.text id) = .ok (.text id) := rfl
  rw [cancel, hkey, h]

/-- The token of the request is cancelled, and nothing else changes. Callbacks could fail, so that none
are waiting is assumed. -/
theorem cancel_of_live (h : r.live? (.text id) = some t) (hquiet : (r.token t).waiting = []) :
    cancel (.text id) r =
      (.ok true, { r with tokens := r.tokens.set t { r.token t with cancelled := true } }) := by
  have hkey : keyOf (.text id) = .ok (.text id) := rfl
  have hcancel : (r.token t).cancel = (.empty, { r.token t with cancelled := true }) := by
    rcases htoken : r.token t with ⟨request, cancelled, waiting⟩
    obtain rfl : waiting = [] := by rw [htoken] at hquiet; exact hquiet
    cases cancelled <;> rfl
  have hchange : cancelToken t r =
      (.ok (), { r with tokens := r.tokens.set t { r.token t with cancelled := true } }) := by
    rw [cancelToken, onToken, hcancel]
    simp [Trail.empty]
  rw [cancel, hkey, h]
  dsimp only
  rw [hchange]

theorem contains_text (r : Requests) (id : String) :
    contains (.text id) r = (.ok (r.isLive (.text id)), r) :=
  rfl

end Requests

/-! ### Runs -/

/-- A scope that was entered and not left. -/
structure Scope where
  id : String
  token : TokenId
  /-- Its request was cancelled since the scope was entered. -/
  cancelled : Bool
  deriving DecidableEq

namespace Scope

/-- A scope whose request is cancelled, if it is the one of that id. -/
def cancel (id : String) (sc : Scope) : Scope :=
  if sc.id = id then { sc with cancelled := true } else sc

@[simp] theorem id_cancel (id : String) (sc : Scope) : (sc.cancel id).id = sc.id := by
  rw [cancel]
  split <;> rfl

@[simp] theorem token_cancel (id : String) (sc : Scope) :
    (sc.cancel id).token = sc.token := by
  rw [cancel]
  split <;> rfl

end Scope

/-- The requests of a server, and the scopes that ought to be registered there. -/
structure Registry where
  requests : Requests
  scopes : List Scope

namespace Registry

/-- What can be asked of the registry. -/
inductive Move where
  | enter (id : String)
  /-- The scope with that token is left, by its end or by a fault. -/
  | leave (token : TokenId)
  | cancel (id : String)
  | contains (id : String)

/-- What a move comes to. A scope that is refused is never there, and one that is left takes the entry
under its id with it. -/
def step (st : Registry) : Move → Registry
  | .enter id =>
    match Requests.start (.text id) st.requests with
    | (.ok t, r) => ⟨r, ⟨id, t, false⟩ :: st.scopes⟩
    | (.error _, r) => ⟨r, st.scopes⟩
  | .leave t =>
    match st.scopes.find? (·.token == t) with
    | some sc => ⟨st.requests.finish (.text sc.id), st.scopes.filter (·.token != t)⟩
    | none => st
  | .cancel id =>
    ⟨(Requests.cancel (.text id) st.requests).2, st.scopes.map (Scope.cancel id)⟩
  | .contains id => ⟨(Requests.contains (.text id) st.requests).2, st.scopes⟩

/-- What a sequence of moves comes to. -/
def after (moves : List Move) : Registry :=
  moves.foldl step ⟨.empty, []⟩

/-- What is registered is what ought to be, and every scope has a token of its own, which knows whether
its request was cancelled. -/
structure Sound (st : Registry) : Prop where
  registered : ∀ id t, st.requests.live? (.text id) = some t ↔
    ∃ sc ∈ st.scopes, sc.id = id ∧ sc.token = t
  nodup : (st.scopes.map Scope.token).Nodup
  named : ∀ sc ∈ st.scopes, sc.id ≠ ""
  made : ∀ sc ∈ st.scopes, sc.token < st.requests.tokens.length
  marked : ∀ sc ∈ st.scopes, st.requests.isCancelled sc.token = sc.cancelled
  quiet : ∀ t, (st.requests.token t).waiting = []

theorem sound_empty : Sound ⟨.empty, []⟩ where
  registered id t := by simp [Requests.live?, Requests.empty, Data.key?]
  nodup := List.nodup_nil
  named := by simp
  made := by simp
  marked := by simp
  quiet t := by simp [Requests.token, Requests.empty, Token.new]

namespace Sound

variable {st : Registry} (h : st.Sound)

include h

theorem live?_of_mem {sc : Scope} (hsc : sc ∈ st.scopes) :
    st.requests.live? (.text sc.id) = some sc.token :=
  (h.registered _ _).2 ⟨sc, hsc, rfl, rfl⟩

theorem live?_eq_none {id : String} :
    st.requests.live? (.text id) = none ↔ ∀ sc ∈ st.scopes, sc.id ≠ id := by
  constructor
  · rintro hnone sc hsc rfl
    rw [h.live?_of_mem hsc] at hnone
    cases hnone
  · intro hfree
    cases hlive : st.requests.live? (.text id) with
    | none => rfl
    | some t =>
      obtain ⟨sc, hsc, hid, -⟩ := (h.registered id t).1 hlive
      exact absurd hid (hfree sc hsc)

theorem isLive_eq (id : String) :
    st.requests.isLive (.text id) = st.scopes.any (·.id == id) := by
  rw [Bool.eq_iff_iff, Requests.isLive, Option.isSome_iff_exists, List.any_eq_true]
  constructor
  · rintro ⟨t, ht⟩
    obtain ⟨sc, hsc, hid, -⟩ := (h.registered id t).1 ht
    exact ⟨sc, hsc, beq_iff_eq.2 hid⟩
  · rintro ⟨sc, hsc, hid⟩
    exact ⟨sc.token, (h.registered id sc.token).2 ⟨sc, hsc, beq_iff_eq.1 hid, rfl⟩⟩

theorem eq_of_token {sc sc' : Scope} (hsc : sc ∈ st.scopes) (hsc' : sc' ∈ st.scopes)
    (ht : sc.token = sc'.token) : sc = sc' :=
  List.inj_on_of_nodup_map h.nodup hsc hsc' ht

theorem eq_of_id {sc sc' : Scope} (hsc : sc ∈ st.scopes) (hsc' : sc' ∈ st.scopes)
    (hid : sc.id = sc'.id) : sc = sc' := by
  have hsome := h.live?_of_mem hsc
  rw [hid, h.live?_of_mem hsc'] at hsome
  exact h.eq_of_token hsc hsc' (Option.some.inj hsome).symm

/-! ### What a move preserves -/

/-- To register a scope under an id that is free registers that scope and changes no other. -/
theorem registered_cons (added : Scope) (hfree : st.requests.live? (.text added.id) = none)
    (tokens : List Token) (id : String) (t : TokenId) :
    ({ st.requests with
        tokens
        live := Dictionary.put (.text added.id) added.token st.requests.live } : Requests).live?
      (.text id) = some t ↔ ∃ sc ∈ added :: st.scopes, sc.id = id ∧ sc.token = t := by
  rw [Requests.live?_put, List.exists_mem_cons_iff]
  split
  · next heq =>
    have hnone : ¬∃ sc ∈ st.scopes, sc.id = id ∧ sc.token = t := by
      rintro ⟨sc, hsc, hid, -⟩
      exact h.live?_eq_none.1 hfree sc hsc (hid.trans heq)
    rw [or_iff_left hnone, Option.some.injEq]
    exact ⟨fun ht ↦ ⟨heq.symm, ht⟩, And.right⟩
  · next hne =>
    rw [h.registered, or_iff_right]
    exact fun hadded ↦ hne hadded.1.symm

theorem enter (id : String) : (st.step (.enter id)).Sound := by
  rw [step]
  by_cases hid : id = ""
  · rw [hid, Requests.start_nameless]
    exact h
  cases hlive : st.requests.live? (.text id) with
  | some t =>
    rw [Requests.start_of_live hid hlive]
    exact h
  | none =>
    rw [Requests.start_of_free hid hlive]
    have hother : ∀ sc ∈ st.scopes, sc.token ≠ st.requests.tokens.length :=
      fun sc hsc ↦ Nat.ne_of_lt (h.made sc hsc)
    have htoken := Requests.token_append st.requests (.new id)
    refine ⟨h.registered_cons ⟨id, st.requests.tokens.length, false⟩ hlive _, ?_, ?_, ?_, ?_,
      fun t ↦ ?_⟩
    · refine List.nodup_cons.2 ⟨fun hmem ↦ ?_, h.nodup⟩
      obtain ⟨sc, hsc, ht⟩ := List.mem_map.1 hmem
      exact hother sc hsc ht
    · exact List.forall_mem_cons.2 ⟨hid, h.named⟩
    · dsimp only
      rw [List.length_append, List.length_singleton]
      exact List.forall_mem_cons.2
        ⟨Nat.lt_succ_self _, fun sc hsc ↦ Nat.lt_succ_of_lt (h.made sc hsc)⟩
    · refine List.forall_mem_cons.2 ⟨?_, fun sc hsc ↦ ?_⟩
      · exact congrArg Token.cancelled ((htoken _).trans (if_pos rfl))
      · exact (congrArg Token.cancelled ((htoken _).trans (if_neg (hother sc hsc)))).trans
          (h.marked sc hsc)
    · refine (congrArg Token.waiting (htoken t)).trans ?_
      split
      · rfl
      · exact h.quiet t

theorem leave (t : TokenId) : (st.step (.leave t)).Sound := by
  rw [step]
  cases hfind : st.scopes.find? (·.token == t) with
  | none => exact h
  | some sc =>
    have hsc : sc ∈ st.scopes := List.mem_of_find?_eq_some hfind
    have ht : sc.token = t := by simpa using List.find?_some hfind
    have hmem {sc' : Scope} :
        sc' ∈ st.scopes.filter (·.token != t) ↔ sc' ∈ st.scopes ∧ sc'.token ≠ t := by
      rw [List.mem_filter, bne_iff_ne]
    refine ⟨fun id t' ↦ ?_, ?_, fun sc' hsc' ↦ h.named sc' (hmem.1 hsc').1, ?_, ?_, h.quiet⟩
    · rw [Requests.live?_finish]
      split
      · next heq =>
        -- No other scope has this id, so none is left under it.
        refine iff_of_false nofun ?_
        rintro ⟨sc', hsc', hid, -⟩
        obtain ⟨hsc', hne⟩ := hmem.1 hsc'
        exact hne (h.eq_of_id hsc' hsc (hid.trans heq) ▸ ht)
      · next hne =>
        rw [h.registered]
        constructor
        · rintro ⟨sc', hsc', hid, ht'⟩
          refine ⟨sc', hmem.2 ⟨hsc', fun hsame ↦ hne ?_⟩, hid, ht'⟩
          rw [← hid, h.eq_of_token hsc' hsc (hsame.trans ht.symm)]
        · rintro ⟨sc', hsc', hsame⟩
          exact ⟨sc', (hmem.1 hsc').1, hsame⟩
    · exact h.nodup.sublist (List.filter_sublist.map _)
    · exact fun sc' hsc' ↦ h.made sc' (hmem.1 hsc').1
    · exact fun sc' hsc' ↦ h.marked sc' (hmem.1 hsc').1

theorem cancel (id : String) : (st.step (.cancel id)).Sound := by
  rw [step]
  cases hlive : st.requests.live? (.text id) with
  | none =>
    rw [Requests.cancel_of_free hlive]
    have hsame : st.scopes.map (Scope.cancel id) = st.scopes := by
      conv_rhs => rw [← List.map_id st.scopes]
      exact List.map_congr_left fun sc hsc ↦ if_neg (h.live?_eq_none.1 hlive sc hsc)
    rw [hsame]
    exact h
  | some t =>
    rw [Requests.cancel_of_live hlive (h.quiet t)]
    obtain ⟨sc, hsc, hid, ht⟩ := (h.registered id t).1 hlive
    have hlt : t < st.requests.tokens.length := ht ▸ h.made sc hsc
    have htoken := Requests.token_set st.requests t { st.requests.token t with cancelled := true }
    refine ⟨fun id' t' ↦ (h.registered id' t').trans ?_, ?_, List.forall_mem_map.2 fun sc' hsc' ↦ ?_,
      List.forall_mem_map.2 fun sc' hsc' ↦ ?_, List.forall_mem_map.2 fun sc' hsc' ↦ ?_, fun t' ↦ ?_⟩
    · simp [List.mem_map]
    · have htokens : st.scopes.map (Scope.token ∘ Scope.cancel id) = st.scopes.map Scope.token :=
        List.map_congr_left fun sc' _ ↦ Scope.token_cancel id sc'
      rw [List.map_map, htokens]
      exact h.nodup
    · rw [Scope.id_cancel]
      exact h.named sc' hsc'
    · dsimp only
      rw [Scope.token_cancel, List.length_set]
      exact h.made sc' hsc'
    · rw [Scope.token_cancel]
      refine (congrArg Token.cancelled (htoken _)).trans ?_
      by_cases hsame : sc'.id = id
      · have ht' : sc'.token = t := h.eq_of_id hsc' hsc (hsame.trans hid.symm) ▸ ht
        rw [if_pos ⟨ht', hlt⟩, Scope.cancel, if_pos hsame]
      · have ht' : sc'.token ≠ t := fun heq ↦
          hsame (h.eq_of_token hsc' hsc (heq.trans ht.symm) ▸ hid)
        rw [if_neg (ht' ·.1), Scope.cancel, if_neg hsame]
        exact h.marked sc' hsc'
    · refine (congrArg Token.waiting (htoken t')).trans ?_
      split
      · exact h.quiet t
      · exact h.quiet t'

theorem step (m : Move) : (st.step m).Sound := by
  cases m with
  | enter id => exact h.enter id
  | leave t => exact h.leave t
  | cancel id => exact h.cancel id
  | contains id => exact h

end Sound

/-- **The invariant holds after every sequence of moves.** -/
theorem sound_after (moves : List Move) : (after moves).Sound := by
  suffices hrun : ∀ st : Registry, st.Sound → (moves.foldl step st).Sound from hrun _ sound_empty
  induction moves with
  | nil => exact fun st h ↦ h
  | cons m rest ih => exact fun st h ↦ ih _ (h.step m)

/-! ### What the registry answers -/

/-- The registry answers as the scopes have it that were entered and not left. -/
structure Exact (st : Registry) : Prop where
  /-- An id is registered exactly while a scope of it is open, with the token of that scope. -/
  registered : ∀ id t, st.requests.live? (.text id) = some t ↔
    ∃ sc ∈ st.scopes, sc.id = id ∧ sc.token = t
  /-- There is at most one scope of an id, and no two scopes share a token. -/
  ids : (st.scopes.map Scope.id).Nodup
  tokens : (st.scopes.map Scope.token).Nodup
  contains : ∀ id, Requests.contains (.text id) st.requests =
    (.ok (st.scopes.any (·.id == id)), st.requests)
  /-- The token of a scope is cancelled exactly if its request was cancelled since it was entered. -/
  marked : ∀ sc ∈ st.scopes, st.requests.isCancelled sc.token = sc.cancelled
  /-- A request that runs cannot be entered again, and that it is refused changes nothing. -/
  refuses : ∀ sc ∈ st.scopes, Requests.start (.text sc.id) st.requests =
    (.error (.alreadyRunning (.text sc.id)), st.requests)
  /-- The work of a request that is refused is not begun, and nothing is left behind it. -/
  refusesWork : ∀ sc ∈ st.scopes, ∀ {H α : Type} (work : TokenId → Action H α) (s : Session H),
    s.requests = st.requests →
      Action.running (.text sc.id) work s = (.error (.alreadyRunning (.text sc.id)), s)
  /-- Any other is entered with a token that no scope has and that is not cancelled. -/
  enters : ∀ id, id ≠ "" → (∀ sc ∈ st.scopes, sc.id ≠ id) →
    ∃ t r, Requests.start (.text id) st.requests = (.ok t, r) ∧ r.isCancelled t = false ∧
      (∀ sc ∈ st.scopes, sc.token ≠ t) ∧ ∀ t', t' ≠ t → r.token t' = st.requests.token t'
  /-- To cancel a request that does not run does nothing. -/
  misses : ∀ id, (∀ sc ∈ st.scopes, sc.id ≠ id) →
    Requests.cancel (.text id) st.requests = (.ok false, st.requests)
  /-- To cancel one that runs marks its token and no other. -/
  cancels : ∀ sc ∈ st.scopes, ∃ r, Requests.cancel (.text sc.id) st.requests = (.ok true, r) ∧
    r.live = st.requests.live ∧ r.isCancelled sc.token = true ∧
      ∀ t, t ≠ sc.token → r.token t = st.requests.token t

theorem Sound.exact {st : Registry} (h : st.Sound) : st.Exact where
  registered := h.registered
  ids := by
    refine h.nodup.of_map _ |>.map_on fun sc hsc sc' hsc' hid ↦ h.eq_of_id hsc hsc' hid
  tokens := h.nodup
  contains id := by
    rw [Requests.contains_text, h.isLive_eq]
  marked := h.marked
  refuses sc hsc := Requests.start_of_live (h.named sc hsc) (h.live?_of_mem hsc)
  refusesWork sc hsc {H α} work s hs := by
    rw [Action.running, hs, Requests.start_of_live (h.named sc hsc) (h.live?_of_mem hsc), ← hs]
  enters id hid hfree := by
    refine ⟨_, _, Requests.start_of_free hid (h.live?_eq_none.2 hfree), ?_, fun sc hsc ↦
      Nat.ne_of_lt (h.made sc hsc), fun t' ht' ↦ ?_⟩
    · exact congrArg Token.cancelled
        ((Requests.token_append st.requests (.new id) _).trans (if_pos rfl))
    · exact (Requests.token_append st.requests (.new id) t').trans (if_neg ht')
  misses id hfree := Requests.cancel_of_free (h.live?_eq_none.2 hfree)
  cancels sc hsc := by
    refine ⟨_, Requests.cancel_of_live (h.live?_of_mem hsc) (h.quiet _), rfl, ?_, fun t ht ↦ ?_⟩
    · exact congrArg Token.cancelled
        ((Requests.token_set st.requests _ _ _).trans (if_pos ⟨rfl, h.made sc hsc⟩))
    · exact (Requests.token_set st.requests _ _ t).trans (if_neg (ht ·.1))

end Registry

end ModelServer
