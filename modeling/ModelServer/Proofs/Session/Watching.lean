import ModelServer.Session.Token

/-!
# What is seen of a token

To say when a callback runs, and that it runs once, calls and callbacks have to be seen. `Token.course` is
the record of a run: which calls were made and how they were answered, which callbacks began and ended, and
at each of these moments whether the token was cancelled. Calls are numbered, and a callback goes by the
number of the call that registered it, so a callback that is registered twice is two callbacks here.

`Token.watch` keeps this record along the same recursion as `Token.run`, and `run_new` says that it is a
record of that run: the marks in it are those that the run leaves, and it ends in the same fault. What
makes the recursion simple is that a token that is cancelled is left alone by all that is done with it
(`run_of_cancelled`).

Routines are finite and do not look at what came of a call. This leaves nothing out: of work that decides
what to do next by what came of its calls, or that does another thing each time it is called, every run that
ends is the run of the routine that does just what was done.
-/

namespace ModelServer

namespace Token

/-! ### Records -/

/-- What a token is asked for. -/
inductive Ask where
  | onCancel
  | cancel
  | check
  deriving DecidableEq, Repr

/-- What happens to a token. Calls are numbered in the order in which they are made. -/
inductive Event where
  | asks (n : Nat) (ask : Ask)
  /-- The call of that number returns, or ends in a fault. -/
  | answers (n : Nat) (fault : Option Fault)
  /-- The callback begins that the call of that number registered. -/
  | begins (n : Nat)
  | ends (n : Nat) (fault : Option Fault)
  | marks (label : String)
  deriving Repr

/-- Something that happens, and whether the token is cancelled at that moment. -/
structure Sight where
  cancelled : Bool
  event : Event
  deriving Repr

/-- What is seen of a run: what happens, the fault that ends it, if one does, and the number that the next
call will have. -/
structure Course where
  seen : List Sight
  fault : Option Fault
  next : Nat
  deriving Repr

namespace Course

/-- Nothing happens. -/
def empty (n : Nat) : Course :=
  ⟨[], none, n⟩

/-- What is seen before. -/
def after (seen : List Sight) (c : Course) : Course :=
  { c with seen := seen ++ c.seen }

/-- Goes on, unless a fault has ended it. -/
def andThen (c : Course) (next : Nat → Course) : Course :=
  match c.fault with
  | some _ => c
  | none => (next c.next).after c.seen

/-- Goes on even after a fault. -/
def ignoring (c : Course) (next : Nat → Course) : Course :=
  (next c.next).after c.seen

/-- A callback that runs like this. -/
def ofCallback (n : Nat) (c : Course) : Course :=
  { c with seen := ⟨true, .begins n⟩ :: (c.seen ++ [⟨true, .ends n c.fault⟩]) }

/-- A call within which this happens. -/
def ofCall (before after : Bool) (n : Nat) (ask : Ask) (c : Course) : Course :=
  { c with seen := ⟨before, .asks n ask⟩ :: (c.seen ++ [⟨after, .answers n c.fault⟩]) }

end Course

end Token

open Token in
/-- What is seen of a routine that is run on a token that is cancelled already. -/
def Routine.watchCancelled (request : String) : Routine → Nat → Course
  | done, n => .empty n
  | note label next, n => (next.watchCancelled request n).after [⟨true, .marks label⟩]
  | cancel next, n =>
    (Course.ofCall true true n .cancel (.empty (n + 1))).andThen (next.watchCancelled request)
  | onCancel callback next, n =>
    (Course.ofCall true true n .onCancel
      (.ofCallback n (callback.watchCancelled request (n + 1)))).andThen (next.watchCancelled request)
  | check _, n => .ofCall true true n .check ⟨[], some (.cancelled request), n + 1⟩
  | fail fault, n => ⟨[], some fault, n⟩
  | attempt body next, n =>
    (body.watchCancelled request n).ignoring (next.watchCancelled request)

namespace Token

/-- Callbacks that wait, with the numbers of the calls that registered them. -/
abbrev Waiting := List (Nat × Routine)

/-- What is seen while callbacks run one after the other. -/
def drainWatched (request : String) : Waiting → Nat → Course
  | [], n => .empty n
  | (i, r) :: rest, n =>
    (Course.ofCallback i (r.watchCancelled request n)).andThen (drainWatched request rest)

/-- What is seen of a routine that is run on a token for whose cancellation those callbacks wait, and the
callbacks that wait then; `none` if the token was cancelled. -/
def watch (request : String) : Routine → Nat → Waiting → Course × Option Waiting
  | .done, n, ws => (.empty n, some ws)
  | .note label next, n, ws =>
    let (c, ws') := watch request next n ws
    (c.after [⟨false, .marks label⟩], ws')
  | .cancel next, n, ws =>
    ((Course.ofCall false true n .cancel (drainWatched request ws (n + 1))).andThen
      (next.watchCancelled request), none)
  | .onCancel callback next, n, ws =>
    let (c, ws') := watch request next (n + 1) (ws ++ [(n, callback)])
    (c.after [⟨false, .asks n .onCancel⟩, ⟨false, .answers n none⟩], ws')
  | .check next, n, ws =>
    let (c, ws') := watch request next (n + 1) ws
    (c.after [⟨false, .asks n .check⟩, ⟨false, .answers n none⟩], ws')
  | .fail fault, n, ws => (⟨[], some fault, n⟩, some ws)
  | .attempt body next, n, ws =>
    match watch request body n ws with
    | (c, some ws') =>
      let (d, ws'') := watch request next c.next ws'
      (d.after c.seen, ws'')
    | (c, none) => (c.ignoring (next.watchCancelled request), none)

/-- What is seen of a routine that is run on a new token. -/
def course (request : String) (r : Routine) : Course :=
  (watch request r 0 []).1

/-- A callback that is registered late runs before the call that registers it is answered, and one that
waits when the token is cancelled before that call is. -/
example : (course "r" (.onCancel (.onCancel .done .done) (.cancel (.attempt (.check .done) .done)))).seen =
    [⟨false, .asks 0 .onCancel⟩, ⟨false, .answers 0 none⟩, ⟨false, .asks 1 .cancel⟩,
      ⟨true, .begins 0⟩, ⟨true, .asks 2 .onCancel⟩, ⟨true, .begins 2⟩, ⟨true, .ends 2 none⟩,
      ⟨true, .answers 2 none⟩, ⟨true, .ends 0 none⟩, ⟨true, .answers 1 none⟩,
      ⟨true, .asks 3 .check⟩, ⟨true, .answers 3 (some (.cancelled "r"))⟩] :=
  rfl

/-! ### The record and the run -/

/-- The label of a mark. -/
def Sight.mark? (s : Sight) : Option String :=
  match s.event with
  | .marks label => some label
  | _ => none

/-- The marks and the fault on record. -/
def Course.trail (c : Course) : Trail :=
  ⟨c.seen.filterMap Sight.mark?, c.fault⟩

/-- The token for whose cancellation those callbacks wait, or the token that is cancelled. -/
def ofWaiting (request : String) : Option Waiting → Token
  | some ws => ⟨request, false, ws.map Prod.snd⟩
  | none => ⟨request, true, []⟩

theorem Course.trail_after (seen : List Sight) (c : Course) :
    (c.after seen).trail = ⟨seen.filterMap Sight.mark? ++ c.trail.labels, c.trail.fault⟩ := by
  rw [trail, after, List.filterMap_append]
  rfl

theorem Course.trail_andThen (c : Course) (next : Nat → Course) :
    (c.andThen next).trail = c.trail.andThen (next c.next).trail := by
  rcases c with ⟨seen, _ | f, n⟩
  · exact trail_after seen (next n)
  · rfl

/-- No mark is left by a call or a callback itself. -/
theorem filterMap_mark?_between {s s' : Sight} (hs : s.mark? = none) (hs' : s'.mark? = none)
    (seen : List Sight) :
    (s :: (seen ++ [s'])).filterMap Sight.mark? = seen.filterMap Sight.mark? := by
  rw [List.filterMap_cons_none hs, List.filterMap_append, List.filterMap_cons_none hs',
    List.filterMap_nil, List.append_nil]

theorem Course.trail_ofCall (before after : Bool) (n : Nat) (ask : Ask) (c : Course) :
    (ofCall before after n ask c).trail = c.trail := by
  rw [ofCall, trail, filterMap_mark?_between rfl rfl]
  rfl

theorem Course.trail_ofCallback (n : Nat) (c : Course) : (ofCallback n c).trail = c.trail := by
  rw [ofCallback, trail, filterMap_mark?_between rfl rfl]
  rfl

theorem trail_watchCancelled (request : String) (r : Routine) (n : Nat) :
    (r.watchCancelled request n).trail = r.runCancelled request := by
  induction r generalizing n with
  | done => rfl
  | note label next ih =>
    rw [Routine.watchCancelled, Course.trail_after, ih]
    rfl
  | cancel next ih =>
    rw [Routine.watchCancelled, Course.trail_andThen, Course.trail_ofCall, ih]
    rfl
  | onCancel callback next ihcallback ih =>
    rw [Routine.watchCancelled, Course.trail_andThen, Course.trail_ofCall, Course.trail_ofCallback,
      ihcallback, ih]
    rfl
  | check next => rfl
  | fail fault => rfl
  | attempt body next ihbody ih =>
    rw [Routine.watchCancelled, Course.ignoring, Course.trail_after, ih, Routine.runCancelled,
      ← ihbody n]
    rfl

theorem trail_drainWatched (request : String) (ws : Waiting) (n : Nat) :
    (drainWatched request ws n).trail = drain request (ws.map Prod.snd) := by
  induction ws generalizing n with
  | nil => rfl
  | cons w rest ih =>
    rw [drainWatched, Course.trail_andThen, Course.trail_ofCallback, trail_watchCancelled, ih]
    rfl

section Calls

variable (request : String) (callback : Routine) (ws : Waiting)

theorem cancel_ofWaiting_none :
    (ofWaiting request none).cancel = (.empty, ofWaiting request none) :=
  rfl

theorem cancel_ofWaiting_some : (ofWaiting request (some ws)).cancel =
    (drain request (ws.map Prod.snd), ofWaiting request none) :=
  rfl

theorem onCancel_ofWaiting_none : (ofWaiting request none).onCancel callback =
    (callback.runCancelled request, ofWaiting request none) :=
  rfl

theorem onCancel_ofWaiting_some (n : Nat) : (ofWaiting request (some ws)).onCancel callback =
    (.empty, ofWaiting request (some (ws ++ [(n, callback)]))) := by
  rw [ofWaiting, ofWaiting, List.map_append]
  rfl

end Calls

/-- A call, and what the routine does when it has returned. -/
theorem run_cancel (next : Routine) (t : Token) :
    run (.cancel next) t = match t.cancel.1.fault with
      | some _ => t.cancel
      | none => (t.cancel.1.andThen (run next t.cancel.2).1, (run next t.cancel.2).2) :=
  rfl

theorem run_onCancel (callback next : Routine) (t : Token) :
    run (.onCancel callback next) t = match (t.onCancel callback).1.fault with
      | some _ => t.onCancel callback
      | none => ((t.onCancel callback).1.andThen (run next (t.onCancel callback).2).1,
          (run next (t.onCancel callback).2).2) :=
  rfl

/-- **A token that is cancelled is left as it is**, whatever is done with it. -/
theorem run_of_cancelled (request : String) (r : Routine) :
    run r (ofWaiting request none) = (r.runCancelled request, ofWaiting request none) := by
  induction r with
  | done => rfl
  | note label next ih => rw [run, ih]; rfl
  | cancel next ih =>
    rw [run_cancel, cancel_ofWaiting_none, ih]
    rfl
  | onCancel callback next _ ih =>
    rw [run_onCancel, onCancel_ofWaiting_none, ih]
    dsimp only [Routine.runCancelled, Trail.andThen]
    cases (callback.runCancelled request).fault <;> rfl
  | check next => rfl
  | fail fault => rfl
  | attempt body next ihbody ih =>
    rw [run, ihbody]
    dsimp only
    rw [ih]
    rfl

/-- **A run is what is seen of it.** -/
theorem run_eq_watch (request : String) (r : Routine) (n : Nat) (ws : Waiting) :
    run r (ofWaiting request (some ws)) =
      ((watch request r n ws).1.trail, ofWaiting request (watch request r n ws).2) := by
  induction r generalizing n ws with
  | done => rfl
  | note label next ih =>
    rw [run, ih n ws, watch, Course.trail_after]
    rfl
  | cancel next ih =>
    rw [run_cancel, cancel_ofWaiting_some, run_of_cancelled, watch, Course.trail_andThen,
      Course.trail_ofCall, trail_drainWatched, trail_watchCancelled]
    dsimp only [Trail.andThen]
    cases (drain request (ws.map Prod.snd)).fault <;> rfl
  | onCancel callback next _ ih =>
    rw [run_onCancel, onCancel_ofWaiting_some request callback ws n, ih (n + 1), watch,
      Course.trail_after]
    rfl
  | check next ih =>
    rw [watch, Course.trail_after]
    exact ih (n + 1) ws
  | fail fault => rfl
  | attempt body next ihbody ih =>
    rw [run, ihbody n ws, watch]
    rcases watch request body n ws with ⟨c, _ | ws'⟩
    · dsimp only
      rw [run_of_cancelled, Course.ignoring, Course.trail_after, trail_watchCancelled]
      rfl
    · dsimp only
      rw [ih c.next ws', Course.trail_after]
      rfl

/-- **The record of a run on a new token is one of that run.** -/
theorem run_new (request : String) (r : Routine) :
    run r (.new request) =
      ((course request r).trail, ofWaiting request (watch request r 0 []).2) :=
  run_eq_watch request r 0 []

end Token

end ModelServer
