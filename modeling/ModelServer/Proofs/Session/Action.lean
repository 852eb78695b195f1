import ModelServer.Session.Action

/-!
# How actions run

An action takes a session to a value or a fault and to another session. The equations here say what
each way to put actions together does at a session, so that no later proof opens the definition of
`Action`.

Three properties of actions are used throughout, and they are kept apart on purpose:

* `Action.Returns` speaks of the values an action *may* end in. It is closed under going on with
  anything whatever (`Returns.bind`), so collaborators of which nothing is known do no harm to it.
* `Action.Fails` speaks of the faults an action may end in. Here every part of it has a say
  (`Fails.bind`).
* `Action.Always` says that an action ends in a value at every session, and never in a fault. Here
  what comes first must itself never fail (`Always.bind`), unless its end is taken as a value
  (`Always.of_outcome`).
-/

namespace ModelServer.Action

variable {H α β : Type}

/-! ### Equations -/

theorem pure_apply (a : α) (s : Session H) : (pure a : Action H α) s = (.ok a, s) := rfl

theorem bind_apply (x : Action H α) (f : α → Action H β) (s : Session H) :
    (x >>= f) s = match x s with
      | (.ok a, s') => f a s'
      | (.error e, s') => (.error e, s') := by
  show ExceptT.bind x f s = _
  rcases h : x s with ⟨r, s'⟩
  simp only [ExceptT.bind, ExceptT.mk, bind, StateT.bind, h]
  cases r <;> rfl

theorem bind_of_ok {x : Action H α} {s s' : Session H} {a : α} (h : x s = (.ok a, s'))
    (f : α → Action H β) : (x >>= f) s = f a s' := by
  rw [bind_apply, h]

theorem bind_of_error {x : Action H α} {s s' : Session H} {e : Fault} (h : x s = (.error e, s'))
    (f : α → Action H β) : (x >>= f) s = (.error e, s') := by
  rw [bind_apply, h]

/-- Work ends in a value if each part of it does. -/
theorem bind_eq_ok {x : Action H α} {f : α → Action H β} {s s' : Session H} {b : β} :
    (x >>= f) s = (.ok b, s') ↔ ∃ a s₁, x s = (.ok a, s₁) ∧ f a s₁ = (.ok b, s') := by
  constructor
  · intro h
    rcases hrun : x s with ⟨r, s₁⟩
    cases r with
    | ok a => exact ⟨a, s₁, rfl, (bind_of_ok hrun f).symm.trans h⟩
    | error e =>
      rw [bind_of_error hrun] at h
      cases h
  · rintro ⟨a, s₁, hx, hf⟩
    rw [bind_of_ok hx, hf]

theorem bind_ofExcept_apply (a : α) (f : α → Action H β) (s : Session H) :
    (Action.ofExcept (.ok a) >>= f) s = f a s :=
  bind_of_ok rfl f

theorem bind_workspace_apply (f : Workspace → Action H β) (s : Session H) :
    (Action.workspace >>= f) s = f s.workspace s :=
  bind_of_ok rfl f

theorem outcome_apply (x : Action H α) (s : Session H) : x.outcome s = (.ok (x s).1, (x s).2) :=
  rfl

theorem carrying_apply (token : TokenId) (work : Action H α) (s : Session H) :
    let p := work { s with requests := { s.requests with carried := some token } }
    Action.carrying token work s =
      (p.1, { p.2 with requests := p.2.requests.restore s.requests.carried }) :=
  rfl

/-! ### The values an action may end in -/

/-- Whenever the action ends in a value, `P` holds of it. Nothing is said of faults. -/
def Returns (x : Action H α) (P : α → Prop) : Prop :=
  ∀ ⦃s : Session H⦄ ⦃a : α⦄, (x s).1 = .ok a → P a

theorem Returns.pure {P : α → Prop} {a : α} (h : P a) : (Pure.pure a : Action H α).Returns P := by
  intro s b hb
  rw [pure_apply] at hb
  cases hb
  exact h

theorem Returns.fail {P : α → Prop} (f : Fault) : (Action.fail f : Action H α).Returns P :=
  fun _ _ hb ↦ nomatch hb

theorem Returns.ofExcept {P : α → Prop} {r : Except Fault α} (h : ∀ a, r = .ok a → P a) :
    (Action.ofExcept r : Action H α).Returns P := by
  cases r with
  | ok a => exact Returns.pure (h a rfl)
  | error f => exact Returns.fail f

theorem Returns.trivial (x : Action H α) : x.Returns fun _ ↦ True :=
  fun _ _ _ ↦ True.intro

theorem Returns.then {P : α → Prop} {Q : β → Prop} {x : Action H α} {f : α → Action H β}
    (hx : x.Returns P) (hf : ∀ a, P a → (f a).Returns Q) : (x >>= f).Returns Q := by
  intro s b hb
  rcases hrun : x s with ⟨r, s₁⟩
  cases r with
  | ok a =>
    rw [bind_of_ok hrun] at hb
    exact hf a (hx (congrArg Prod.fst hrun)) hb
  | error e =>
    rw [bind_of_error hrun] at hb
    cases hb

/-- What an action ends in is decided by what it does last. -/
theorem Returns.bind {Q : β → Prop} {x : Action H α} {f : α → Action H β}
    (hf : ∀ a, (f a).Returns Q) : (x >>= f).Returns Q :=
  (Returns.trivial x).then fun a _ ↦ hf a

/-- To carry a token does not change what work ends in. -/
theorem Returns.carrying {P : α → Prop} {work : Action H α} (h : work.Returns P)
    (token : TokenId) : (Action.carrying token work).Returns P := by
  intro s a ha
  rw [carrying_apply] at ha
  exact h ha

/-! ### The faults an action may end in -/

/-- Whenever the action ends in a fault, `F` holds of it. Nothing is said of values. -/
def Fails (x : Action H α) (F : Fault → Prop) : Prop :=
  ∀ ⦃s : Session H⦄ ⦃f : Fault⦄, (x s).1 = .error f → F f

theorem Fails.pure {F : Fault → Prop} (a : α) : (Pure.pure a : Action H α).Fails F :=
  fun _ _ h ↦ nomatch h

theorem Fails.fail {F : Fault → Prop} {f : Fault} (h : F f) : (Action.fail f : Action H α).Fails F :=
  fun _ _ hf ↦ Except.error.inj hf ▸ h

theorem Fails.ofExcept {F : Fault → Prop} {r : Except Fault α} (h : ∀ f, r = .error f → F f) :
    (Action.ofExcept r : Action H α).Fails F := by
  cases r with
  | ok a => exact Fails.pure a
  | error f => exact Fails.fail (h f rfl)

/-- A part is gone on from only with a value that it may end in. -/
theorem Fails.then {P : α → Prop} {F : Fault → Prop} {x : Action H α} {k : α → Action H β}
    (hx : x.Fails F) (hreturns : x.Returns P) (hk : ∀ a, P a → (k a).Fails F) : (x >>= k).Fails F := by
  intro s f hf
  rcases hrun : x s with ⟨r, s₁⟩
  cases r with
  | ok a =>
    rw [bind_of_ok hrun] at hf
    exact hk a (hreturns (congrArg Prod.fst hrun)) hf
  | error e =>
    rw [bind_of_error hrun] at hf
    exact Except.error.inj hf ▸ hx (congrArg Prod.fst hrun)

theorem Fails.bind {F : Fault → Prop} {x : Action H α} {k : α → Action H β} (hx : x.Fails F)
    (hk : ∀ a, (k a).Fails F) : (x >>= k).Fails F :=
  hx.then (Returns.trivial x) fun a _ ↦ hk a

/-- Work of which a fault is taken as a value fails by what is done then. -/
theorem Fails.outcome_bind {F G : Fault → Prop} {x : Action H α} {k : Except Fault α → Action H β}
    (hx : x.Fails F) (herror : ∀ e, F e → (k (.error e)).Fails G) (hok : ∀ a, (k (.ok a)).Fails G) :
    (x.outcome >>= k).Fails G := by
  intro s f hf
  rw [bind_of_ok (outcome_apply x s)] at hf
  rcases hrun : x s with ⟨r, s'⟩
  rw [hrun] at hf
  cases r with
  | ok a => exact hok a hf
  | error e => exact herror e (hx (congrArg Prod.fst hrun)) hf

/-- To carry a token does not change what work fails by. -/
theorem Fails.carrying {F : Fault → Prop} {work : Action H α} (h : work.Fails F) (token : TokenId) :
    (Action.carrying token work).Fails F := by
  intro s f hf
  rw [carrying_apply] at hf
  exact h hf

/-! ### Actions that never end in a fault -/

/-- At every session the action ends in a value, and `P` holds of that value. -/
def Always (x : Action H α) (P : α → Prop) : Prop :=
  ∀ s : Session H, ∃ a s', x s = (.ok a, s') ∧ P a

theorem Always.pure {P : α → Prop} {a : α} (h : P a) : (Pure.pure a : Action H α).Always P :=
  fun s ↦ ⟨a, s, rfl, h⟩

theorem Always.bind {P : α → Prop} {Q : β → Prop} {x : Action H α} {f : α → Action H β}
    (hx : x.Always P) (hf : ∀ a, P a → (f a).Always Q) : (x >>= f).Always Q := by
  intro s
  obtain ⟨a, s₁, ha, hPa⟩ := hx s
  rw [bind_of_ok ha]
  exact hf a hPa s₁

theorem Always.workspace : (Action.workspace : Action H Workspace).Always fun _ ↦ True :=
  fun s ↦ ⟨_, s, rfl, trivial⟩

theorem Always.modifyWorkspace (f : Workspace → Workspace) :
    (Action.modifyWorkspace f : Action H Unit).Always fun _ ↦ True :=
  fun _ ↦ ⟨_, _, rfl, trivial⟩

/-- An action that always ends in a value fails by nothing. -/
theorem Always.fails {P : α → Prop} {F : Fault → Prop} {x : Action H α} (h : x.Always P) : x.Fails F := by
  intro s f hf
  obtain ⟨a, s', hrun, -⟩ := h s
  rw [hrun] at hf
  cases hf

/-- **A fault that is taken as a value is none.** -/
theorem Always.of_outcome {P : α → Prop} {F : Fault → Prop} {Q : β → Prop} {x : Action H α}
    {f : Except Fault α → Action H β} (hx : x.Returns P) (hfails : x.Fails F)
    (hok : ∀ a, P a → (f (.ok a)).Always Q) (herror : ∀ e, F e → (f (.error e)).Always Q) :
    (x.outcome >>= f).Always Q := by
  intro s
  rw [bind_of_ok (outcome_apply x s)]
  rcases h : x s with ⟨r, s'⟩
  cases r with
  | ok a => exact hok a (hx (congrArg Prod.fst h)) s'
  | error e => exact herror e (hfails (congrArg Prod.fst h)) s'

end ModelServer.Action
