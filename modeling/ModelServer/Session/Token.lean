import ModelServer.Fault

/-!
# Cancellation tokens

Work that may be cancelled holds a token and looks at it now and then; nothing is interrupted. A token
is cancelled once and stays so. Callbacks that were registered before run when it is cancelled, in
order, until one of them fails; a callback registered later runs at once.

What a callback does is a `Routine`, a finite program that may use the token it is registered on, so
what happens when callbacks register callbacks is part of the definitions. Since a cancelled token
keeps no callbacks, running one never changes the token (`Routine.runCancelled` has no token to
change).
-/

namespace ModelServer

/-- What a callback, or other work that holds a token, does with it. -/
inductive Routine where
  | done
  /-- Leaves a mark that it came this far. -/
  | note (label : String) (next : Routine)
  | cancel (next : Routine)
  | onCancel (callback next : Routine)
  /-- Goes on only if the token is not cancelled. -/
  | check (next : Routine)
  | fail (fault : Fault)
  /-- Goes on whatever becomes of the body. -/
  | attempt (body next : Routine)
  deriving Repr

/-- The marks that routines left, and the fault that ended them, if one did. -/
structure Trail where
  labels : List String
  fault : Option Fault
  deriving Repr

namespace Trail

/-- Nothing happened. -/
def empty : Trail := ⟨[], none⟩

/-- Goes on, unless a fault has ended it. -/
def andThen (t : Trail) (next : Trail) : Trail :=
  match t.fault with
  | some _ => t
  | none => ⟨t.labels ++ next.labels, next.fault⟩

/-- Goes on even after a fault. -/
def ignoring (t : Trail) (next : Trail) : Trail :=
  ⟨t.labels ++ next.labels, next.fault⟩

end Trail

/-- What a routine does with a token that is cancelled already. -/
def Routine.runCancelled (request : String) : Routine → Trail
  | done => .empty
  | note label next => Trail.andThen ⟨[label], none⟩ (next.runCancelled request)
  | cancel next => next.runCancelled request
  | onCancel callback next =>
    (callback.runCancelled request).andThen (next.runCancelled request)
  | check _ => ⟨[], some (.cancelled request)⟩
  | fail fault => ⟨[], some fault⟩
  | attempt body next => (body.runCancelled request).ignoring (next.runCancelled request)

/-- A token: the request it stands for, whether it is cancelled, and the callbacks that wait. -/
structure Token where
  request : String
  cancelled : Bool
  waiting : List Routine
  deriving Repr, Inhabited

namespace Token

/-- A token that is not cancelled. -/
def new (request : String) : Token :=
  ⟨request, false, []⟩

/-- The callbacks of a token that is being cancelled run one after the other; a fault ends them. -/
def drain (request : String) : List Routine → Trail
  | [] => .empty
  | r :: rest => (r.runCancelled request).andThen (drain request rest)

/-- Cancels the token. Only the first time do callbacks run. -/
def cancel (t : Token) : Trail × Token :=
  if t.cancelled then (.empty, t)
  else (drain t.request t.waiting, { t with cancelled := true, waiting := [] })

/-- Registers a callback, or runs it if the token is cancelled. -/
def onCancel (callback : Routine) (t : Token) : Trail × Token :=
  if t.cancelled then (callback.runCancelled t.request, t)
  else (.empty, { t with waiting := t.waiting ++ [callback] })

/-- The fault that ends work whose token is cancelled. -/
def check (t : Token) : Except Fault Unit :=
  if t.cancelled then .error (.cancelled t.request) else .ok ()

/-- The text form of a token. -/
def describe (t : Token) : String :=
  "CancellationToken(" ++ Text.quoted t.request ++ ", cancelled=" ++
    (if t.cancelled then "True" else "False") ++ ")"

/-- What a routine does with a token, and what becomes of the token. -/
def run : Routine → Token → Trail × Token
  | .done, t => (.empty, t)
  | .note label next, t =>
    let (trail, t') := run next t
    (Trail.andThen ⟨[label], none⟩ trail, t')
  | .cancel next, t =>
    let (trail, t') := t.cancel
    match trail.fault with
    | some _ => (trail, t')
    | none =>
      let (trail', t'') := run next t'
      (trail.andThen trail', t'')
  | .onCancel callback next, t =>
    let (trail, t') := t.onCancel callback
    match trail.fault with
    | some _ => (trail, t')
    | none =>
      let (trail', t'') := run next t'
      (trail.andThen trail', t'')
  | .check next, t =>
    match t.check with
    | .error f => (⟨[], some f⟩, t)
    | .ok _ => run next t
  | .fail fault, t => (⟨[], some fault⟩, t)
  | .attempt body next, t =>
    let (trail, t') := run body t
    let (trail', t'') := run next t'
    (trail.ignoring trail', t'')

end Token

end ModelServer
