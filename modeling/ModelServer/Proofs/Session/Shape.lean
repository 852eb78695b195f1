import Mathlib.Data.List.Intervals
import Mathlib.Data.List.Perm.Subperm
import ModelServer.Proofs.Session.Watching

/-!
# The shape of what is seen of a token

What is seen of a token has one of two shapes (`Shape`). As long as it is not cancelled every call is
answered at once and no callback runs (`Early`). The first call to cancel it runs the callbacks that wait,
one after the other, until one of them fails (`Drained`); whatever happens within them, and after that
call, happens on a token that is cancelled (`Late`): calls are answered at once, but for the registration of
a callback, which runs first.

`shape_watch` is the one induction on what is done with a token. All that is said of calls and callbacks
here follows from the shape: how each call is answered (`Answers`), by what numbers it goes (`Counted`),
and which callbacks run and in what order (`Late.begun_eq`, `Drained.begun_subperm`,
`Drained.waiting_prefix`).
-/

namespace ModelServer.Token

/-! ### What a record tells -/

/-- The number of a call. -/
def Sight.asked? : Sight → Option Nat
  | ⟨_, .asks n _⟩ => some n
  | _ => none

/-- The number of a call that registers a callback. -/
def Sight.registered? : Sight → Option Nat
  | ⟨_, .asks n .onCancel⟩ => some n
  | _ => none

/-- The number of a callback that begins. -/
def Sight.begun? : Sight → Option Nat
  | ⟨_, .begins n⟩ => some n
  | _ => none

/-- The number of a callback that ends. -/
def Sight.ended? : Sight → Option Nat
  | ⟨_, .ends n _⟩ => some n
  | _ => none

/-- The calls, in order. -/
def asked (h : List Sight) : List Nat :=
  h.filterMap Sight.asked?

/-- The callbacks that are registered, in order. -/
def registered (h : List Sight) : List Nat :=
  h.filterMap Sight.registered?

/-- The callbacks that run, in the order in which they begin. -/
def begun (h : List Sight) : List Nat :=
  h.filterMap Sight.begun?

/-- The callbacks that have run, in the order in which they end. -/
def ended (h : List Sight) : List Nat :=
  h.filterMap Sight.ended?

variable {request : String} {h h' : List Sight} {ks : List Nat} {fault : Option Fault}
  {b : Bool} {c i n m k : Nat}

@[simp] theorem asked_append : asked (h ++ h') = asked h ++ asked h' :=
  List.filterMap_append

@[simp] theorem registered_append : registered (h ++ h') = registered h ++ registered h' :=
  List.filterMap_append

@[simp] theorem begun_append : begun (h ++ h') = begun h ++ begun h' :=
  List.filterMap_append

@[simp] theorem ended_append : ended (h ++ h') = ended h ++ ended h' :=
  List.filterMap_append

section Callback

variable (i : Nat) (during h : List Sight) (f : Option Fault)

/-- A callback that runs has begun before all that happens within it. -/
theorem begun_callback : begun (⟨true, .begins i⟩ :: (during ++ ⟨true, .ends i f⟩ :: h)) =
    i :: (begun during ++ begun h) :=
  congrArg (i :: ·) List.filterMap_append

theorem ended_callback : ended (⟨true, .begins i⟩ :: (during ++ ⟨true, .ends i f⟩ :: h)) =
    ended during ++ i :: ended h :=
  List.filterMap_append

theorem registered_callback : registered (⟨true, .begins i⟩ :: (during ++ ⟨true, .ends i f⟩ :: h)) =
    registered during ++ registered h :=
  List.filterMap_append

/-- A callback that runs ends if those do that run within it and after it. -/
theorem ended_perm_callback (hduring : (ended during).Perm (begun during))
    (hrest : (ended h).Perm (begun h)) :
    (ended (⟨true, .begins i⟩ :: (during ++ ⟨true, .ends i f⟩ :: h))).Perm
      (begun (⟨true, .begins i⟩ :: (during ++ ⟨true, .ends i f⟩ :: h))) := by
  rw [ended_callback, begun_callback]
  exact List.perm_middle.trans ((hduring.append hrest).cons i)

end Callback

section Cancellation

variable (early during late : List Sight) (c : Nat) (f : Option Fault)

/-- The call that cancels a token is no callback, nor does it register one. -/
theorem begun_cancellation :
    begun (early ++ ⟨false, .asks c .cancel⟩ :: (during ++ ⟨true, .answers c f⟩ :: late)) =
      begun early ++ (begun during ++ begun late) :=
  begun_append.trans (congrArg (begun early ++ ·) begun_append)

theorem ended_cancellation :
    ended (early ++ ⟨false, .asks c .cancel⟩ :: (during ++ ⟨true, .answers c f⟩ :: late)) =
      ended early ++ (ended during ++ ended late) :=
  ended_append.trans (congrArg (ended early ++ ·) ended_append)

theorem registered_cancellation :
    registered (early ++ ⟨false, .asks c .cancel⟩ :: (during ++ ⟨true, .answers c f⟩ :: late)) =
      registered early ++ (registered during ++ registered late) :=
  registered_append.trans (congrArg (registered early ++ ·) registered_append)

end Cancellation

/-- What one selection takes, another takes too. -/
theorem filterMap_sublist_filterMap {f g : Sight → Option Nat}
    (hfg : ∀ s i, f s = some i → g s = some i) (h : List Sight) :
    (h.filterMap f).Sublist (h.filterMap g) := by
  induction h with
  | nil => exact .slnil
  | cons s rest ih =>
    rw [List.filterMap_cons, List.filterMap_cons]
    cases hf : f s with
    | some i =>
      rw [hfg s i hf]
      exact ih.cons_cons i
    | none =>
      cases g s with
      | some i => exact ih.cons i
      | none => exact ih

/-- To register a callback is to make a call. -/
theorem registered_sublist_asked (h : List Sight) : (registered h).Sublist (asked h) := by
  refine filterMap_sublist_filterMap (fun s i hs ↦ ?_) h
  match s, hs with
  | ⟨_, .asks n .onCancel⟩, hs => exact hs

/-! ### The shape of a record -/

/-- What is seen of a token that is not cancelled, from call `n` on and up to call `m`. -/
inductive Early : Nat → List Sight → Nat → Prop
  | nil (n : Nat) : Early n [] n
  | marks {n m : Nat} {h : List Sight} (label : String) (rest : Early n h m) :
    Early n (⟨false, .marks label⟩ :: h) m
  | onCancel {n m : Nat} {h : List Sight} (rest : Early (n + 1) h m) :
    Early n (⟨false, .asks n .onCancel⟩ :: ⟨false, .answers n none⟩ :: h) m
  | check {n m : Nat} {h : List Sight} (rest : Early (n + 1) h m) :
    Early n (⟨false, .asks n .check⟩ :: ⟨false, .answers n none⟩ :: h) m

/-- What is seen of a token that is cancelled. -/
inductive Late (request : String) : Nat → List Sight → Nat → Prop
  | nil (n : Nat) : Late request n [] n
  | marks {n m : Nat} {h : List Sight} (label : String) (rest : Late request n h m) :
    Late request n (⟨true, .marks label⟩ :: h) m
  | onCancel {n m k : Nat} {during h : List Sight} (f : Option Fault)
      (callback : Late request (n + 1) during k) (rest : Late request k h m) :
    Late request n
      (⟨true, .asks n .onCancel⟩ :: ⟨true, .begins n⟩ ::
        (during ++ ⟨true, .ends n f⟩ :: ⟨true, .answers n f⟩ :: h)) m
  | cancel {n m : Nat} {h : List Sight} (rest : Late request (n + 1) h m) :
    Late request n (⟨true, .asks n .cancel⟩ :: ⟨true, .answers n none⟩ :: h) m
  | check {n m : Nat} {h : List Sight} (rest : Late request (n + 1) h m) :
    Late request n
      (⟨true, .asks n .check⟩ :: ⟨true, .answers n (some (.cancelled request))⟩ :: h) m

/-- What is seen while the callbacks of these numbers run one after the other, and the fault that ends
this, if one does. -/
inductive Drained (request : String) : List Nat → Nat → List Sight → Option Fault → Nat → Prop
  | nil (n : Nat) : Drained request [] n [] none n
  | next {i n m k : Nat} {is : List Nat} {during h : List Sight} {fault : Option Fault}
      (callback : Late request n during k) (rest : Drained request is k h fault m) :
    Drained request (i :: is) n (⟨true, .begins i⟩ :: (during ++ ⟨true, .ends i none⟩ :: h)) fault m
  | fault {i n k : Nat} {is : List Nat} {during : List Sight} (f : Fault)
      (callback : Late request n during k) :
    Drained request (i :: is) n (⟨true, .begins i⟩ :: (during ++ [⟨true, .ends i (some f)⟩])) (some f) k

/-- What is seen of a token for whose cancellation the callbacks of the numbers `ks` wait: all that is
early, and if the token is cancelled, what happens within the first call to cancel it, and what happens
then. -/
inductive Shape (request : String) (ks : List Nat) (n : Nat) :
    List Sight → Nat → Option Waiting → Prop
  | waiting {early : List Sight} {m : Nat} {ws : Waiting} (quiet : Early n early m)
      (hws : ws.map Prod.fst = ks ++ registered early) : Shape request ks n early m (some ws)
  | cancelled {early during late : List Sight} {c m k : Nat} {fault : Option Fault}
      (quiet : Early n early c)
      (drained : Drained request (ks ++ registered early) (c + 1) during fault m)
      (rest : Late request m late k) :
    Shape request ks n
      (early ++ ⟨false, .asks c .cancel⟩ :: (during ++ ⟨true, .answers c fault⟩ :: late)) k none

theorem Early.append (he : Early n h m) (he' : Early m h' k) : Early n (h ++ h') k := by
  induction he with
  | nil n => exact he'
  | marks label _ ih => exact .marks label (ih he')
  | onCancel _ ih => exact .onCancel (ih he')
  | check _ ih => exact .check (ih he')

theorem Late.append (hl : Late request n h m) (hl' : Late request m h' k) :
    Late request n (h ++ h') k := by
  induction hl with
  | nil n => exact hl'
  | marks label _ ih => exact .marks label (ih hl')
  | onCancel f callback _ _ ih =>
    rw [List.cons_append, List.cons_append, List.append_assoc]
    exact .onCancel f callback (ih hl')
  | cancel _ ih => exact .cancel (ih hl')
  | check _ ih => exact .check (ih hl')

/-! ### Runs have that shape -/

theorem Late.andThen {d : Course} {next : Nat → Course} (hd : Late request n d.seen d.next)
    (hnext : ∀ m, Late request m (next m).seen (next m).next) :
    Late request n (d.andThen next).seen (d.andThen next).next := by
  rcases d with ⟨seen, _ | f, m⟩
  · exact hd.append (hnext m)
  · exact hd

/-- **Whatever is done with a token that is cancelled, it looks like that.** -/
theorem late_watchCancelled (request : String) (r : Routine) (n : Nat) :
    Late request n (r.watchCancelled request n).seen (r.watchCancelled request n).next := by
  induction r generalizing n with
  | done => exact .nil n
  | note label next ih => exact .marks label (ih n)
  | cancel next ih => exact Late.andThen (.cancel (.nil (n + 1))) ih
  | onCancel callback next ihcallback ih =>
    refine Late.andThen ?_ ih
    have hcall := Late.onCancel (callback.watchCancelled request (n + 1)).fault (ihcallback (n + 1))
      (.nil _)
    simpa [Course.ofCall, Course.ofCallback] using hcall
  | check next => exact .check (.nil (n + 1))
  | fail fault => exact .nil n
  | attempt body next ihbody ih => exact (ihbody n).append (ih _)

theorem drained_drainWatched (request : String) (ws : Waiting) (n : Nat) :
    Drained request (ws.map Prod.fst) n (drainWatched request ws n).seen
      (drainWatched request ws n).fault (drainWatched request ws n).next := by
  induction ws generalizing n with
  | nil => exact .nil n
  | cons w rest ih =>
    rcases w with ⟨i, r⟩
    have hlate := late_watchCancelled request r n
    rw [drainWatched]
    rcases hcourse : r.watchCancelled request n with ⟨seen, _ | f, k⟩
    · rw [hcourse] at hlate
      have hnext := Drained.next (i := i) hlate (ih k)
      simpa [Course.andThen, Course.ofCallback, Course.after] using hnext
    · rw [hcourse] at hlate
      exact .fault f hlate

theorem Shape.of_some {ws : Waiting} (hs : Shape request ks n h m (some ws)) :
    Early n h m ∧ ws.map Prod.fst = ks ++ registered h := by
  cases hs with
  | waiting quiet hws => exact ⟨quiet, hws⟩

/-- What happens before, on a token that is not cancelled. -/
theorem Shape.after {early : List Sight} {o : Option Waiting} (quiet : Early n early m)
    (h' : Shape request (ks ++ registered early) m h k o) :
    Shape request ks n (early ++ h) k o := by
  cases h' with
  | waiting quiet' hws =>
    refine .waiting (quiet.append quiet') ?_
    rw [registered_append, ← List.append_assoc, hws]
  | cancelled quiet' drained rest =>
    rw [← List.append_assoc]
    refine .cancelled (quiet.append quiet') ?_ rest
    rwa [registered_append, ← List.append_assoc]

/-- What happens then, on a token that is cancelled. -/
theorem Shape.andThen (hs : Shape request ks n h m none) (hl : Late request m h' k) :
    Shape request ks n (h ++ h') k none := by
  cases hs with
  | cancelled quiet drained rest =>
    have hshape := Shape.cancelled quiet drained (rest.append hl)
    simpa using hshape

/-- **Whatever is done with a token, what is seen of it has that shape.** -/
theorem shape_watch (request : String) (r : Routine) (n : Nat) (ws : Waiting) :
    Shape request (ws.map Prod.fst) n (watch request r n ws).1.seen (watch request r n ws).1.next
      (watch request r n ws).2 := by
  induction r generalizing n ws with
  | done => exact .waiting (.nil n) (List.append_nil _).symm
  | note label next ih =>
    refine Shape.after (.marks label (.nil n)) ?_
    exact (List.append_nil (ws.map Prod.fst)).symm ▸ ih n ws
  | cancel next ih =>
    have hdrained := drained_drainWatched request ws (n + 1)
    have hlate := late_watchCancelled request next
    rw [watch]
    rw [← List.append_nil (ws.map Prod.fst)] at hdrained
    rcases hcourse : drainWatched request ws (n + 1) with ⟨seen, _ | f, m⟩ <;> rw [hcourse] at hdrained
    · have hcall := Shape.cancelled (.nil n) hdrained (.nil m)
      exact hcall.andThen (hlate m)
    · exact Shape.cancelled (.nil n) hdrained (.nil m)
  | onCancel callback next _ ih =>
    refine Shape.after (.onCancel (.nil (n + 1))) ?_
    have hnext := ih (n + 1) (ws ++ [(n, callback)])
    rwa [List.map_append] at hnext
  | check next ih =>
    refine Shape.after (.check (.nil (n + 1))) ?_
    exact (List.append_nil (ws.map Prod.fst)).symm ▸ ih (n + 1) ws
  | fail fault => exact .waiting (.nil n) (List.append_nil _).symm
  | attempt body next ihbody ih =>
    have hbody := ihbody n ws
    rw [watch]
    rcases hwatch : watch request body n ws with ⟨d, _ | ws'⟩
    · rw [hwatch] at hbody
      exact hbody.andThen (late_watchCancelled request next d.next)
    · rw [hwatch] at hbody
      obtain ⟨quiet, hws⟩ := hbody.of_some
      exact Shape.after quiet (hws ▸ ih d.next ws')

/-! ### Calls -/

/-- How a call is answered: at once, unless it runs callbacks. A token that is cancelled runs the callback
that is registered, and a token that is to be cancelled those that wait. -/
inductive Answered (request : String) : Bool → Nat → Ask → List Sight → Prop
  | waits (n : Nat) : Answered request false n .onCancel
    [⟨false, .asks n .onCancel⟩, ⟨false, .answers n none⟩]
  | runs (n : Nat) (during : List Sight) (f : Option Fault) : Answered request true n .onCancel
    (⟨true, .asks n .onCancel⟩ :: ⟨true, .begins n⟩ ::
      (during ++ [⟨true, .ends n f⟩, ⟨true, .answers n f⟩]))
  | cancels (n : Nat) (during : List Sight) (f : Option Fault) : Answered request false n .cancel
    (⟨false, .asks n .cancel⟩ :: (during ++ [⟨true, .answers n f⟩]))
  | again (n : Nat) : Answered request true n .cancel
    [⟨true, .asks n .cancel⟩, ⟨true, .answers n none⟩]
  | passes (n : Nat) : Answered request false n .check
    [⟨false, .asks n .check⟩, ⟨false, .answers n none⟩]
  | stops (n : Nat) : Answered request true n .check
    [⟨true, .asks n .check⟩, ⟨true, .answers n (some (.cancelled request))⟩]

/-- All calls on record are answered like this. -/
def Answers (request : String) (h : List Sight) : Prop :=
  ∀ b n ask, ⟨b, .asks n ask⟩ ∈ h → ∃ stretch, Answered request b n ask stretch ∧ stretch <:+: h

namespace Answers

theorem nil : Answers request [] :=
  fun _ _ _ hmem ↦ nomatch hmem

theorem append (ha : Answers request h) (ha' : Answers request h') : Answers request (h ++ h') := by
  intro b n ask hmem
  rcases List.mem_append.1 hmem with hmem | hmem
  · obtain ⟨stretch, hanswered, hin⟩ := ha b n ask hmem
    exact ⟨stretch, hanswered, hin.trans (List.prefix_append h h').isInfix⟩
  · obtain ⟨stretch, hanswered, hin⟩ := ha' b n ask hmem
    exact ⟨stretch, hanswered, hin.trans (List.suffix_append h h').isInfix⟩

/-- What is no call need not be answered. -/
theorem cons {s : Sight} (hs : s.asked? = none) (ha : Answers request h) : Answers request (s :: h) := by
  intro b n ask hmem
  rcases List.mem_cons.1 hmem with rfl | hmem
  · cases hs
  · obtain ⟨stretch, hanswered, hin⟩ := ha b n ask hmem
    exact ⟨stretch, hanswered, List.infix_cons hin⟩

theorem call {ask : Ask} (hanswered : Answered request b n ask (⟨b, .asks n ask⟩ :: h))
    (ha : Answers request h) : Answers request (⟨b, .asks n ask⟩ :: h) := by
  intro b' n' ask' hmem
  rcases List.mem_cons.1 hmem with heq | hmem
  · cases heq
    exact ⟨_, hanswered, List.infix_rfl⟩
  · obtain ⟨stretch, hanswered', hin⟩ := ha b' n' ask' hmem
    exact ⟨stretch, hanswered', List.infix_cons hin⟩

/-- A call that is answered at once. -/
theorem atOnce {b' : Bool} {ask : Ask} {f : Option Fault}
    (hanswered : Answered request b n ask [⟨b, .asks n ask⟩, ⟨b', .answers n f⟩])
    (ha : Answers request h) : Answers request (⟨b, .asks n ask⟩ :: ⟨b', .answers n f⟩ :: h) :=
  (call hanswered (cons rfl nil)).append ha

end Answers

theorem Early.answers (he : Early n h m) : Answers request h := by
  induction he with
  | nil n => exact .nil
  | marks label _ ih => exact .cons rfl ih
  | onCancel _ ih => exact .atOnce (.waits _) ih
  | check _ ih => exact .atOnce (.passes _) ih

theorem Late.answers (hl : Late request n h m) : Answers request h := by
  induction hl with
  | nil n => exact .nil
  | marks label _ ih => exact .cons rfl ih
  | @onCancel n m k during h f _ _ ihcallback ih =>
    have hinner : Answers request
        (⟨true, .begins n⟩ :: (during ++ [⟨true, .ends n f⟩, ⟨true, .answers n f⟩])) :=
      .cons rfl (ihcallback.append (.cons rfl (.cons rfl .nil)))
    have hcall := (Answers.call (.runs n during f) hinner).append ih
    simpa using hcall
  | cancel _ ih => exact .atOnce (.again _) ih
  | check _ ih => exact .atOnce (.stops _) ih

theorem Drained.answers (hd : Drained request ks n h fault m) : Answers request h := by
  induction hd with
  | nil n => exact .nil
  | next callback _ ih => exact .cons rfl (callback.answers.append (.cons rfl ih))
  | fault f callback => exact .cons rfl (callback.answers.append (.cons rfl .nil))

/-! ### Numbers of calls -/

/-- The calls on record are those from `n` up to `m`, in order. -/
def Counted (n : Nat) (h : List Sight) (m : Nat) : Prop :=
  n ≤ m ∧ asked h = List.Ico n m

namespace Counted

theorem nil (n : Nat) : Counted n [] n :=
  ⟨le_rfl, List.Ico.self_empty.symm⟩

theorem append (hc : Counted n h m) (hc' : Counted m h' k) : Counted n (h ++ h') k := by
  refine ⟨hc.1.trans hc'.1, ?_⟩
  rw [asked_append, hc.2, hc'.2, List.Ico.append_consecutive hc.1 hc'.1]

theorem cons {s : Sight} (hs : s.asked? = none) (hc : Counted n h m) : Counted n (s :: h) m := by
  refine ⟨hc.1, ?_⟩
  rw [asked, List.filterMap_cons_none hs]
  exact hc.2

theorem call {ask : Ask} (hc : Counted (n + 1) h m) : Counted n (⟨b, .asks n ask⟩ :: h) m := by
  refine ⟨(Nat.le_succ n).trans hc.1, ?_⟩
  show n :: asked h = List.Ico n m
  rw [hc.2]
  exact (List.Ico.eq_cons hc.1).symm

theorem nodup (hc : Counted n h m) : (asked h).Nodup := by
  rw [hc.2]
  exact List.Ico.nodup n m

theorem bounds (hc : Counted n h m) (hi : i ∈ registered h) : n ≤ i ∧ i < m := by
  have hasked := (registered_sublist_asked h).subset hi
  rwa [hc.2, List.Ico.mem] at hasked

end Counted

theorem Early.counted (he : Early n h m) : Counted n h m := by
  induction he with
  | nil n => exact .nil n
  | marks label _ ih => exact .cons rfl ih
  | onCancel _ ih | check _ ih => exact .call (.cons rfl ih)

theorem Late.counted (hl : Late request n h m) : Counted n h m := by
  induction hl with
  | nil n => exact .nil n
  | marks label _ ih => exact .cons rfl ih
  | onCancel f _ _ ihcallback ih =>
    exact .call (.cons rfl (ihcallback.append (.cons rfl (.cons rfl ih))))
  | cancel _ ih | check _ ih => exact .call (.cons rfl ih)

theorem Drained.counted (hd : Drained request ks n h fault m) : Counted n h m := by
  induction hd with
  | nil n => exact .nil n
  | next callback _ ih => exact .cons rfl (callback.counted.append (.cons rfl ih))
  | fault f callback => exact .cons rfl (callback.counted.append (.cons rfl (.nil _)))

/-! ### Callbacks -/

/-- What can be seen of a token that is not cancelled. -/
inductive Quiet : Sight → Prop
  | marks (label : String) : Quiet ⟨false, .marks label⟩
  | onCancel (n : Nat) : Quiet ⟨false, .asks n .onCancel⟩
  | check (n : Nat) : Quiet ⟨false, .asks n .check⟩
  | answers (n : Nat) : Quiet ⟨false, .answers n none⟩

theorem Early.quiet (he : Early n h m) : ∀ s ∈ h, Quiet s := by
  induction he with
  | nil n => exact List.forall_mem_nil _
  | marks label _ ih => exact List.forall_mem_cons.2 ⟨.marks label, ih⟩
  | onCancel _ ih =>
    exact List.forall_mem_cons.2 ⟨.onCancel _, List.forall_mem_cons.2 ⟨.answers _, ih⟩⟩
  | check _ ih => exact List.forall_mem_cons.2 ⟨.check _, List.forall_mem_cons.2 ⟨.answers _, ih⟩⟩

theorem Early.uncancelled (he : Early n h m) : ∀ s ∈ h, s.cancelled = false := by
  intro s hs
  cases he.quiet s hs <;> rfl

theorem Early.not_cancels (he : Early n h m) (b : Bool) (c : Nat) : ⟨b, .asks c .cancel⟩ ∉ h :=
  fun hmem ↦ nomatch he.quiet _ hmem

theorem Early.not_begins (he : Early n h m) (b : Bool) (i : Nat) : ⟨b, .begins i⟩ ∉ h :=
  fun hmem ↦ nomatch he.quiet _ hmem

theorem Early.begun_eq (he : Early n h m) : begun h = [] := by
  refine List.filterMap_eq_nil_iff.2 fun s hs ↦ ?_
  cases he.quiet s hs <;> rfl

theorem Early.ended_eq (he : Early n h m) : ended h = [] := by
  refine List.filterMap_eq_nil_iff.2 fun s hs ↦ ?_
  cases he.quiet s hs <;> rfl

theorem Late.cancelled (hl : Late request n h m) : ∀ s ∈ h, s.cancelled = true := by
  induction hl with
  | nil n => simp
  | marks label _ ih => simpa using ih
  | onCancel f _ _ ihcallback ih =>
    simpa [or_imp, forall_and] using ⟨ihcallback, ih⟩
  | cancel _ ih | check _ ih => simpa using ih

theorem Drained.cancelled (hd : Drained request ks n h fault m) : ∀ s ∈ h, s.cancelled = true := by
  induction hd with
  | nil n => simp
  | next callback _ ih => simpa [or_imp, forall_and] using ⟨callback.cancelled, ih⟩
  | fault f callback => simpa [or_imp, forall_and] using callback.cancelled

/-- **On a token that is cancelled every callback runs, and at once.** -/
theorem Late.begun_eq (hl : Late request n h m) : begun h = registered h := by
  induction hl with
  | nil n => rfl
  | marks label _ ih => exact ih
  | @onCancel n m k during h f _ _ ihcallback ih =>
    have hbegun := begun_callback n during (⟨true, .answers n f⟩ :: h) f
    have hregistered := registered_callback n during (⟨true, .answers n f⟩ :: h) f
    refine hbegun.trans (Eq.trans ?_ (congrArg (n :: ·) hregistered.symm))
    show n :: (begun during ++ begun h) = n :: (registered during ++ registered h)
    rw [ihcallback, ih]
  | cancel _ ih | check _ ih => exact ih

theorem Late.ended_perm (hl : Late request n h m) : (ended h).Perm (begun h) := by
  induction hl with
  | nil n => exact .refl _
  | marks label _ ih => exact ih
  | onCancel f _ _ ihcallback ih => exact ended_perm_callback _ _ _ f ihcallback ih
  | cancel _ ih | check _ ih => exact ih

theorem Drained.ended_perm (hd : Drained request ks n h fault m) : (ended h).Perm (begun h) := by
  induction hd with
  | nil n => exact .refl _
  | next callback _ ih => exact ended_perm_callback _ _ _ none callback.ended_perm ih
  | fault f callback => exact ended_perm_callback _ _ _ (some f) callback.ended_perm (.refl _)

/-- Those that run while the token is being cancelled have waited, or are registered then. -/
theorem Drained.begun_subperm (hd : Drained request ks n h fault m) :
    (begun h).Subperm (ks ++ registered h) := by
  induction hd with
  | nil n => exact List.nil_subperm
  | @next i n m k is during h fault callback _ ih =>
    rw [begun_callback, registered_callback, callback.begun_eq, List.cons_append]
    refine (List.subperm_cons i).2 ?_
    have hrest : (registered during ++ begun h).Subperm (registered during ++ (is ++ registered h)) :=
      (List.subperm_append_left _).2 ih
    refine hrest.trans (List.Perm.subperm ?_)
    rw [← List.append_assoc, ← List.append_assoc]
    exact List.perm_append_comm.append_right _
  | @fault i n k is during f callback =>
    rw [begun_callback, registered_callback, callback.begun_eq, List.cons_append]
    exact (List.subperm_cons i).2 (List.sublist_append_right is _).subperm

/-- **Those that have waited run in order**, and none is passed over before the last that runs. -/
theorem Drained.waiting_prefix (hd : Drained request ks n h fault m) (hc : c ≤ n)
    (hks : ∀ i ∈ ks, i < c) : (begun h).filter (· < c) <+: ks := by
  -- A callback that waited comes first, and those that run within it are too late to have waited.
  have hfirst {i n k : Nat} {during h : List Sight} (callback : Late request n during k) (hc : c ≤ n)
      (hi : i < c) (f : Option Fault) :
      (begun (⟨true, .begins i⟩ :: (during ++ ⟨true, .ends i f⟩ :: h))).filter (· < c) =
        i :: (begun h).filter (· < c) := by
    have hnew : (begun during).filter (· < c) = [] := by
      refine List.filter_eq_nil_iff.2 fun j hj ↦ ?_
      rw [callback.begun_eq] at hj
      simpa using hc.trans (callback.counted.bounds hj).1
    rw [begun_callback, List.filter_cons_of_pos (by simpa using hi), List.filter_append, hnew,
      List.nil_append]
  induction hd with
  | nil n => exact List.prefix_rfl
  | @next i n m k is during h fault callback _ ih =>
    obtain ⟨hi, his⟩ := List.forall_mem_cons.1 hks
    rw [hfirst callback hc hi]
    exact (List.prefix_cons_inj i).2 (ih (hc.trans callback.counted.1) his)
  | @fault i n k is during f callback =>
    obtain ⟨hi, -⟩ := List.forall_mem_cons.1 hks
    rw [hfirst callback hc hi]
    exact (List.prefix_cons_inj i).2 List.nil_prefix

end ModelServer.Token
