import Mathlib.Order.Basic
import ModelServer.Proofs.Session.Action
import ModelServer.Workspace.Provider

/-!
# Two runs side by side

To compare two ways to do a thing, or one way in two sessions, the two are run side by side.
`Action.Agrees R x y Q` says that wherever the two sessions stand in `R`, both actions end in the same,
be it a value or a fault, and leave sessions that stand in `Q`. What the sessions have in common is up to
the relations; what is done first must keep enough of it for what is done next (`Agrees.bind`).

The session may differ in anything that the relation does not speak of, and nothing that an action sees of
it can make a difference. So of whoever is called on the way it has to be assumed that they agree with
themselves, as it is for those who read documents (`ModelProvider.Agrees`).
-/

namespace ModelServer

variable {H α β : Type} {R Q S : Session H → Session H → Prop}

/-- In sessions that stand in `R` both actions end in the same, and they leave sessions that stand in
`Q`. -/
def Action.Agrees (R : Session H → Session H → Prop) (x y : Action H α)
    (Q : Session H → Session H → Prop) : Prop :=
  ∀ ⦃s t⦄, R s t → (x s).1 = (y t).1 ∧ Q (x s).2 (y t).2

namespace Action.Agrees

theorem pure (hRQ : R ≤ Q) (a : α) : Agrees R (Pure.pure a) (Pure.pure a) Q :=
  fun s t hst ↦ ⟨rfl, hRQ s t hst⟩

theorem fail (hRQ : R ≤ Q) (f : Fault) : Agrees R (Action.fail f : Action H α) (Action.fail f) Q :=
  fun s t hst ↦ ⟨rfl, hRQ s t hst⟩

theorem ofExcept (hRQ : R ≤ Q) (r : Except Fault α) :
    Agrees R (Action.ofExcept r) (Action.ofExcept r) Q := by
  cases r with
  | ok a => exact pure hRQ a
  | error f => exact fail hRQ f

/-- What is done first leaves the two where what is done next agrees; if it ends in a fault, that is
all. -/
theorem bind {x y : Action H α} {f g : α → Action H β} (hx : Agrees R x y Q) (hQS : Q ≤ S)
    (hf : ∀ a, Agrees Q (f a) (g a) S) : Agrees R (x >>= f) (y >>= g) S := by
  intro s t hst
  obtain ⟨hend, hQ⟩ := hx hst
  rcases hxs : x s with ⟨r, s₁⟩
  rcases hyt : y t with ⟨r', t₁⟩
  rw [hxs, hyt] at hend hQ
  obtain rfl : r = r' := hend
  cases r with
  | ok a =>
    rw [bind_of_ok hxs, bind_of_ok hyt]
    exact hf a hQ
  | error e =>
    rw [bind_of_error hxs, bind_of_error hyt]
    exact ⟨rfl, hQS _ _ hQ⟩

theorem outcome {x y : Action H α} (h : Agrees R x y Q) : Agrees R x.outcome y.outcome Q :=
  fun _ _ hst ↦ ⟨congrArg Except.ok (h hst).1, (h hst).2⟩

/-- A collaborator that is not there is missed in both. -/
theorem require_bind (hRQ : R ≤ Q) {name : String} {a? : Option α} {f g : α → Action H β}
    (hf : ∀ a ∈ a?, Agrees R (f a) (g a) Q) :
    Agrees R (Collaborators.require name a? >>= f) (Collaborators.require name a? >>= g) Q := by
  cases a? with
  | none => exact fail hRQ _
  | some a => exact hf a rfl

end Action.Agrees

/-! ### Reading documents -/

/-- To read documents in one of the sessions is to read them in the other. -/
structure ModelProvider.Agrees (R : Session H → Session H → Prop) (p : ModelProvider H) : Prop where
  parse : ∀ sec, Action.Agrees R (p.parse sec) (p.parse sec) R
  compile : ∀ {parse : Section → Action H Parsed},
    (∀ sec, Action.Agrees R (parse sec) (parse sec) R) →
      ∀ sections, Action.Agrees R (p.compile sections parse) (p.compile sections parse) R

/-- The provider that reads documents as JSON looks at nothing but what it reads. -/
theorem DocumentProvider.agrees [Depths] : (provider (H := H)).Agrees R where
  parse sec := .pure le_rfl _
  compile {parse} hparse sections := by
    have hfrom (elements : List Element) (forms : List (String × CompiledService)) :
        Action.Agrees R (compileFrom parse elements forms sections)
          (compileFrom parse elements forms sections) R := by
      induction sections generalizing elements forms with
      | nil => exact .pure le_rfl _
      | cons s rest ih =>
        rw [compileFrom]
        refine (hparse s).bind le_rfl fun p ↦ ?_
        cases p with
        | faulty f => exact .pure le_rfl _
        | elements es =>
          dsimp only
          cases addElements elements es with
          | error f => exact .pure le_rfl _
          | ok elements' => exact (Action.Agrees.ofExcept le_rfl _).bind le_rfl fun more ↦ ih _ _
    exact hfrom [] []

namespace Collaborators

variable {c : Collaborators H}

/-- The two sessions have the same workspace, and whatever is done to it in both makes no other
difference. -/
structure SameWorkspace (R : Session H → Session H → Prop) : Prop where
  eq : ∀ {s t}, R s t → s.workspace = t.workspace
  modify : ∀ {s t}, R s t → ∀ w, R { s with workspace := w } { t with workspace := w }

variable (hR : SameWorkspace R) (hp : c.provider.Agrees R)

include hR

omit c in
theorem SameWorkspace.bind_workspace {f g : Workspace → Action H α}
    (hf : ∀ w, Action.Agrees R (f w) (g w) R) :
    Action.Agrees R (Action.workspace >>= f) (Action.workspace >>= g) R := by
  intro s t hst
  rw [Action.bind_workspace_apply, Action.bind_workspace_apply, hR.eq hst]
  exact hf _ hst

omit c in
theorem SameWorkspace.modifyWorkspace (f : Workspace → Workspace) :
    Action.Agrees R (Action.modifyWorkspace f) (Action.modifyWorkspace f) R := by
  intro s t hst
  have hmodified := hR.modify hst (f t.workspace)
  refine ⟨rfl, ?_⟩
  show R { s with workspace := f s.workspace } { t with workspace := f t.workspace }
  rwa [hR.eq hst]

include hp

theorem agrees_parse (sec : Section) : Action.Agrees R (c.parse sec) (c.parse sec) R := by
  rw [parse]
  refine hR.bind_workspace fun w ↦ ?_
  cases w.parsed? sec with
  | some p => exact .pure le_rfl _
  | none =>
    refine (hp.parse sec).bind le_rfl fun p ↦ ?_
    exact (hR.modifyWorkspace _).bind le_rfl fun _ ↦ .pure le_rfl _

theorem agrees_compile : Action.Agrees R c.compile c.compile R := by
  rw [compile]
  refine hR.bind_workspace fun w ↦ ?_
  cases w.compiled with
  | some r => exact .pure le_rfl _
  | none =>
    refine (hp.compile (agrees_parse hR hp) _).bind le_rfl fun r ↦ ?_
    exact (hR.modifyWorkspace _).bind le_rfl fun _ ↦ .pure le_rfl _

end Collaborators

end ModelServer
