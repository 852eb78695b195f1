import ModelServer.Proofs.Grammar.Cancellation
import ModelServer.Proofs.Session.Registry
import ModelServer.Server.Handlers

/-!
# Requests while they are answered

A table query is entered in the registry under its id as long as it is answered, and is taken out in
whatever way it ends. Between the two its collaborators are at work, and they may use the server
themselves: ask further queries, cancel requests, this one too. `Session.SameLive` is what they keep to,
and what the whole request keeps to then: the same ids are registered afterwards as before.
-/

namespace ModelServer

variable {H α : Type}

/-- The same requests are running in the session and in what becomes of it. -/
def Session.SameLive (s s' : Session H) : Prop :=
  ∀ id, s'.requests.isLive id = s.requests.isLive id

theorem frame_sameLive : Frame (Session.SameLive (H := H)) :=
  ⟨fun _ _ ↦ rfl, fun h h' id ↦ (h' id).trans (h id), fun _ _ _ ↦ rfl, fun _ _ _ ↦ rfl⟩

namespace Requests

/-- What a request does that starts: it is refused and nothing changes, or it runs, which it did not
before, and every other request runs as it did. -/
theorem start_cases (id : RequestId) (r : Requests) :
    (∃ f, start id r = (.error f, r)) ∨
      ∃ key t r', id.key? = some key ∧ r.isLive id = false ∧ start id r = (.ok t, r') ∧
        r'.live = Dictionary.put key t r.live := by
  rw [start]
  split
  · exact .inl ⟨_, rfl⟩
  · rw [keyOf]
    cases hkey : id.key? with
    | none => exact .inl ⟨_, rfl⟩
    | some key =>
      dsimp only
      split
      · exact .inl ⟨_, rfl⟩
      · next hfree => exact .inr ⟨key, _, _, rfl, Bool.eq_false_iff.2 hfree, rfl, rfl⟩

theorem isLive_of_live {r r' : Requests} {key : Key Empty} {t : TokenId}
    (h : r'.live = Dictionary.put key t r.live) (id : RequestId) :
    r'.isLive id = if id.key? = some key then true else r.isLive id := by
  rw [isLive, isLive, live?, live?, h]
  cases id.key? with
  | none => rfl
  | some k =>
    show ((Dictionary.put key t r.live).lookup k).isSome = _
    rw [Dictionary.lookup_put]
    simp only [beq_iff_eq, Option.some.injEq]
    split <;> rfl

theorem isLive_finish {id : RequestId} {key : Key Empty} (hkey : id.key? = some key) (r : Requests)
    (other : RequestId) :
    (r.finish id).isLive other = if other.key? = some key then false else r.isLive other := by
  rw [finish, hkey, isLive, isLive, live?, live?]
  cases other.key? with
  | none => rfl
  | some k =>
    show ((Dictionary.erase key r.live).lookup k).isSome = _
    rw [Dictionary.lookup_erase]
    simp only [beq_iff_eq, Option.some.injEq]
    split <;> rfl

/-- Requests with one key run together. -/
theorem isLive_of_key {id other : RequestId} (h : other.key? = id.key?) (r : Requests) :
    r.isLive other = r.isLive id := by
  rw [isLive, live?, h, ← live?, ← isLive]

/-- What is done to a token ends no request. -/
theorem live_onToken (id : TokenId) (f : Token → Trail × Token) (r : Requests) :
    (onToken id f r).2.live = r.live := by
  rw [onToken]
  dsimp only
  cases (f (r.token id)).1.fault <;> rfl

/-- To cancel a request does not end it. -/
theorem isLive_cancel (id : RequestId) (r : Requests) (other : RequestId) :
    (cancel id r).2.isLive other = r.isLive other := by
  have hlive : (cancel id r).2.live = r.live := by
    rcases cancel_eq id r with h | ⟨t, h⟩
    · rw [h]
    · rw [h, cancelToken, live_onToken]
  rw [isLive, live?, hlive, ← live?, ← isLive]

end Requests

/-- **When the work of a request has ended the same requests run as before**, whichever way it ended. -/
theorem Action.sameLive_running {work : TokenId → Action H α} (id : RequestId)
    (hwork : ∀ token, (work token).Moves Session.SameLive) :
    (running id work).Moves Session.SameLive := by
  intro s
  rw [running]
  rcases Requests.start_cases id s.requests with ⟨f, hstart⟩ | ⟨key, t, r, hkey, hfree, hstart, hlive⟩
  · rw [hstart]
    exact fun _ ↦ rfl
  · rw [hstart]
    intro other
    have hother := hwork t { s with requests := r } other
    show (Requests.finish id _).isLive other = _
    rw [Requests.isLive_finish hkey, hother, Requests.isLive_of_live hlive]
    split
    · next hsame => rw [Requests.isLive_of_key (hsame.trans hkey.symm), hfree]
    · rfl

namespace Server

variable {R : Session H → Session H → Prop}

/-- A request keeps to a frame if its collaborators do, and if to be running does. -/
theorem moves_executeTableRequest (hR : Frame R)
    (hrunning : ∀ (id : RequestId) (work : TokenId → Action H Result),
      (∀ token, (work token).Moves R) → (Action.running id work).Moves R)
    {server : Except Fault (Server H)} (hv : ∀ v, server = .ok v → v.Keeps R) (payload : Json) :
    (executeTableRequest server payload).Moves R := by
  refine hR.bind (hR.ofExcept _) fun ms ↦ ?_
  cases Api.TableRequest.reader (.record ms) with
  | bad issues => exact hR.pure _
  | ok r =>
    refine hR.bind ?_ fun result ↦ hR.pure _
    refine hR.bind (Frame.outcome (hrunning _ _ fun token ↦ ?_)) fun answered ↦ ?_
    · cases hserver : server with
      | error f => exact hR.fail f
      | ok v => exact moves_runTableQuery hR (hv v hserver) r token
    · split
      · exact hR.pure _
      · exact hR.pure _
      · exact hR.fail _

/-- To answer a table query leaves the same requests running, so a collaborator may ask for one. -/
theorem sameLive_executeTableRequest {server : Except Fault (Server H)}
    (hv : ∀ v, server = .ok v → v.Keeps Session.SameLive) (payload : Json) :
    (executeTableRequest server payload).Moves Session.SameLive :=
  moves_executeTableRequest frame_sameLive (fun id _ hwork ↦ Action.sameLive_running id hwork) hv
    payload

/-- Nor does it end a request to cancel it. -/
theorem sameLive_cancelRequest (payload : Json) :
    (cancelRequest payload : Action H Json).Moves Session.SameLive := by
  refine frame_sameLive.bind (frame_sameLive.ofExcept _) fun ms ↦ ?_
  cases Api.CancelRequest.reader (.record ms) with
  | bad issues => exact frame_sameLive.pure _
  | ok r =>
    refine frame_sameLive.bind (fun s id ↦ ?_) fun cancelled ↦ frame_sameLive.pure _
    exact Requests.isLive_cancel _ s.requests id

/-- **The registry is the map of the requests that run.** After any sequence of scopes that are entered
and left and of requests that are cancelled and asked for, it answers as the scopes have it that are
open. And a table query, whatever its collaborators do and however it ends, leaves the same requests
running that were running before. -/
theorem registry_exact :
    (∀ moves, (Registry.after moves).Exact) ∧
      ∀ {H : Type} (server : Except Fault (Server H)) (payload : Json) (s : Session H),
        (∀ v, server = .ok v → v.Keeps Session.SameLive) → ∀ id,
          (executeTableRequest server payload s).2.requests.isLive id = s.requests.isLive id :=
  ⟨fun moves ↦ (Registry.sound_after moves).exact,
    fun _ payload s hv id ↦ sameLive_executeTableRequest hv payload s id⟩

/-- A server whose executor cancels the request that it works for, asks for the same query again, and
fails. -/
def restless [Depths] (payload : Json) : Server Unit where
  collaborators :=
    { provider := DocumentProvider.provider
      planGenerator := some ⟨fun _ _ _ _ ↦ return .text "plan"⟩
      planExecutor := some ⟨fun _ _ _ ↦ do
        let _ ← cancelRequest payload
        let _ ← executeTableRequest (.error .tooDeep) payload
        .fail .tooDeep⟩
      testRunner := none
      executionServer := none
      platformExtensions := ⟨[], []⟩ }
  extensions := defaultExtensions

theorem keeps_restless [Depths] (payload : Json) : (restless payload).Keeps Session.SameLive where
  plans := by
    refine ⟨DocumentProvider.keeps frame_sameLive, fun g hg spec m p ext ↦ ?_⟩
    obtain rfl := Option.some.inj hg
    exact frame_sameLive.pure _
  executor k hk plan ps query := by
    obtain rfl := Option.some.inj hk
    refine frame_sameLive.bind (sameLive_cancelRequest payload) fun _ ↦ ?_
    have hnone : ∀ v : Server Unit, Except.error Fault.tooDeep = .ok v → v.Keeps Session.SameLive :=
      fun v hv ↦ by cases hv
    refine frame_sameLive.bind (sameLive_executeTableRequest hnone payload) fun _ ↦ ?_
    exact frame_sameLive.fail _
  executions x hx y hy := keeps_of_mem_defaultExtensions frame_sameLive hx hy

/-- A query of the function `f` in the document `a`, under the id `q`. -/
def queryOfF : Json :=
  .record [("request_id", .text "q"), ("uri", .text "a"), ("entity_path", .text "f")]

/-- A session in which another request runs, and the document with `f` is open. -/
def busySession : Session Unit :=
  ⟨.set .empty Executable.oneFunction.document [Executable.oneFunction],
    ⟨[.new "other"], [(.text "other", 0)], none, []⟩, ()⟩

open Depths in
/-- An id can be used again when its scope is left, and its new token is not cancelled though the old one
was. After a query that had itself cancelled and failed its id is free, and the other request still
runs. -/
theorem registry_after_restless_query :
    (Registry.after [.enter "q", .cancel "q", .leave 0, .enter "q", .enter "q"]).Exact ∧
      (Registry.after [.enter "q", .cancel "q", .leave 0, .enter "q", .enter "q"]).scopes =
        [⟨"q", 1, false⟩] ∧
      let s' := (executeTableRequest (.ok (restless queryOfF)) queryOfF busySession).2
      s'.requests.isCancelled 1 = true ∧ s'.requests.isLive (.text "q") = false ∧
        s'.requests.isLive (.text "other") = true := by
  have hkeeps : ∀ v, (.ok (restless queryOfF) : Except Fault (Server Unit)) = .ok v →
      v.Keeps Session.SameLive := by
    intro v hv
    obtain rfl := Except.ok.inj hv
    exact keeps_restless queryOfF
  have h := registry_exact.2 (.ok (restless queryOfF)) queryOfF busySession hkeeps
  exact ⟨registry_exact.1 _, by decide, by decide +kernel, h _, h _⟩

end Server

end ModelServer
