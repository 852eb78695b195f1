import ModelServer.Proofs.Session.Frame

/-!
# Tokens that stay cancelled

A token is cancelled once and for all. `Requests.Lasting` says so of two states of the requests: what is
cancelled in the first is so in the second. A change of one token keeps to it unless it takes back that
the token is cancelled (`lasting_onToken`), and to cancel does not.

Tokens are numbered by their place in a list that only grows, so what is known of them comes down to what
an entry of that list is after one was changed (`token_set`) or one was added (`token_append`).
-/

namespace ModelServer

namespace Requests

variable {r r' : Requests} {t : TokenId}

/-! ### One token -/

theorem token_set (r : Requests) (id : TokenId) (changed : Token) (t : TokenId) :
    ({ r with tokens := r.tokens.set id changed } : Requests).token t =
      if t = id ∧ id < r.tokens.length then changed else r.token t := by
  rw [token, List.getElem?_set]
  by_cases hid : id = t
  · subst hid
    by_cases hlt : id < r.tokens.length
    · rw [if_pos rfl, if_pos hlt, if_pos ⟨rfl, hlt⟩, Option.getD_some]
    · rw [if_pos rfl, if_neg hlt, if_neg (hlt ·.2), token, List.getElem?_eq_none (Nat.not_lt.1 hlt)]
  · rw [if_neg hid, if_neg fun h ↦ hid h.1.symm, token]

theorem token_append (r : Requests) (added : Token) (t : TokenId) :
    ({ r with tokens := r.tokens ++ [added] } : Requests).token t =
      if t = r.tokens.length then added else r.token t := by
  rw [token]
  split
  · next ht => rw [ht, List.getElem?_concat_length, Option.getD_some]
  · next ht =>
    rcases Nat.lt_or_gt_of_ne ht with hlt | hgt
    · rw [List.getElem?_append_left hlt, token]
    · have hout : r.tokens.length ≤ t := Nat.le_of_lt hgt
      rw [token, List.getElem?_eq_none hout, List.getElem?_eq_none]
      rw [List.length_append, List.length_singleton]
      exact hgt

/-! ### What lasts -/

/-- Every token that is cancelled in `r` is cancelled in `r'`. -/
def Lasting (r r' : Requests) : Prop :=
  ∀ t, r.isCancelled t = true → r'.isCancelled t = true

theorem Lasting.refl (r : Requests) : r.Lasting r :=
  fun _ h ↦ h

theorem Lasting.trans {r'' : Requests} (h : r.Lasting r') (h' : r'.Lasting r'') : r.Lasting r'' :=
  fun t ht ↦ h' t (h t ht)

/-- A change of one token lasts if it does not take back that the token is cancelled. -/
theorem lasting_onToken (id : TokenId) {f : Token → Trail × Token}
    (hf : ∀ t : Token, t.cancelled = true → (f t).2.cancelled = true) (r : Requests) :
    r.Lasting (onToken id f r).2 := by
  intro t ht
  have hstate : (onToken id f r).2.token t =
      if t = id ∧ id < r.tokens.length then (f (r.token id)).2 else r.token t := by
    rw [← token_set, onToken]
    dsimp only
    cases (f (r.token id)).1.fault <;> rfl
  rw [isCancelled, hstate]
  split
  · next h => exact hf _ (h.1 ▸ ht)
  · exact ht

theorem lasting_cancelToken (id : TokenId) (r : Requests) : r.Lasting (cancelToken id r).2 := by
  refine lasting_onToken id (fun t ht ↦ ?_) r
  rw [Token.cancel, if_pos ht]
  exact ht

/-- To cancel a request is to cancel a token, or nothing. -/
theorem cancel_eq (id : RequestId) (r : Requests) :
    (cancel id r).2 = r ∨ ∃ t, (cancel id r).2 = (cancelToken t r).2 := by
  rw [cancel]
  cases keyOf id with
  | error f => exact .inl rfl
  | ok key =>
    cases r.live? id with
    | none => exact .inl rfl
    | some t =>
      dsimp only
      rcases hrun : cancelToken t r with ⟨result, r'⟩
      refine .inr ⟨t, ?_⟩
      rw [hrun]
      cases result <;> rfl

end Requests

/-! ### Sessions -/

variable {H α : Type}

/-- Every token that is cancelled in the session is cancelled in what becomes of it. -/
def Session.Lasting (s s' : Session H) : Prop :=
  s.requests.Lasting s'.requests

/-- That tokens stay cancelled has nothing to do with documents or with the token that is carried. -/
theorem frame_lasting : Frame (Session.Lasting (H := H)) :=
  ⟨fun _ ↦ .refl _, fun h h' ↦ h.trans h', fun _ _ ↦ .refl _, fun _ _ ↦ .refl _⟩

namespace Action

theorem moves_requests {change : Requests.Change α} (h : ∀ r : Requests, r.Lasting (change r).2) :
    (Action.requests (H := H) change).Moves Session.Lasting :=
  fun s ↦ h s.requests

end Action

end ModelServer
