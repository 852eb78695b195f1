import Mathlib.Data.List.Forall2

/-!
# Work that ends well

Most of what may fail is made of steps, mapped or repeated, and what is known of its result comes from the
steps that it went through. Here is what each way to put steps together says of a result that is there.
-/

namespace ModelServer

variable {ε α β : Type}

/-- Two steps end well exactly if both do. -/
theorem bind_eq_ok_iff {x : Except ε α} {f : α → Except ε β} {b : β} :
    x >>= f = .ok b ↔ ∃ a, x = .ok a ∧ f a = .ok b := by
  cases x with
  | error e =>
    refine ⟨fun h ↦ ?_, fun ⟨_, h, _⟩ ↦ ?_⟩
    · cases h
    · cases h
  | ok a => exact ⟨fun h ↦ ⟨a, rfl, h⟩, fun ⟨_, ha, h⟩ ↦ Except.ok.inj ha ▸ h⟩

/-- What a mapped step gives is the image of what the step gave. -/
theorem map_eq_ok_iff {x : Except ε α} {f : α → β} {b : β} :
    x.map f = .ok b ↔ ∃ a, x = .ok a ∧ f a = b := by
  cases x with
  | error e =>
    refine ⟨fun h ↦ ?_, fun ⟨_, h, _⟩ ↦ ?_⟩
    · cases h
    · cases h
  | ok a =>
    exact ⟨fun h ↦ ⟨a, rfl, Except.ok.inj h⟩, fun ⟨_, ha, h⟩ ↦
      congrArg Except.ok (Except.ok.inj ha ▸ h)⟩

/-- A mapped step fails as the step does. -/
theorem map_eq_error_iff {x : Except ε α} {f : α → β} {e : ε} : x.map f = .error e ↔ x = .error e := by
  cases x with
  | error e' => exact ⟨fun h ↦ congrArg _ (Except.error.inj h), fun h ↦ congrArg _ (Except.error.inj h)⟩
  | ok a =>
    refine ⟨fun h ↦ ?_, fun h ↦ ?_⟩
    · cases h
    · cases h

theorem eq_ok_of_toOption {x : Except ε α} {a : α} (h : x.toOption = some a) : x = .ok a := by
  cases x with
  | error e => cases h
  | ok b => exact congrArg _ (Option.some.inj h)

/-- What is in the result of a traversal came of an item. -/
theorem exists_of_mem_mapM {f : α → Except ε β} {xs : List α} {ys : List β} (h : xs.mapM f = .ok ys)
    {y : β} (hy : y ∈ ys) : ∃ x ∈ xs, f x = .ok y := by
  induction xs generalizing ys with
  | nil =>
    cases h
    exact absurd hy List.not_mem_nil
  | cons x rest ih =>
    rw [List.mapM_cons] at h
    obtain ⟨z, hz, h⟩ := bind_eq_ok_iff.1 h
    obtain ⟨zs, hzs, h⟩ := bind_eq_ok_iff.1 h
    cases h
    rcases List.mem_cons.1 hy with rfl | hy
    · exact ⟨x, List.mem_cons_self, hz⟩
    · obtain ⟨x', hx', hy⟩ := ih hzs hy
      exact ⟨x', List.mem_cons_of_mem _ hx', hy⟩

/-- A traversal ends well if every item does. -/
theorem mapM_eq_ok {f : α → Except ε β} {g : α → β} {xs : List α} (h : ∀ x ∈ xs, f x = .ok (g x)) :
    xs.mapM f = .ok (xs.map g) := by
  induction xs with
  | nil => rfl
  | cons x rest ih =>
    obtain ⟨hfirst, hrest⟩ := List.forall_mem_cons.1 h
    rw [List.mapM_cons, hfirst, ih hrest]
    rfl

/-- A traversal of which every item ends well ends in what the items do, in order. -/
theorem exists_mapM_eq_ok {f : α → Except ε β} {R : α → β → Prop} {xs : List α}
    (h : ∀ x ∈ xs, ∃ y, f x = .ok y ∧ R x y) : ∃ ys, xs.mapM f = .ok ys ∧ List.Forall₂ R xs ys := by
  induction xs with
  | nil => exact ⟨[], rfl, .nil⟩
  | cons x rest ih =>
    obtain ⟨hfirst, hrest⟩ := List.forall_mem_cons.1 h
    obtain ⟨y, hy, hxy⟩ := hfirst
    obtain ⟨ys, hys, hall⟩ := ih hrest
    rw [List.mapM_cons, hy, hys]
    exact ⟨y :: ys, rfl, .cons hxy hall⟩

/-- A traversal with items that fail ends as one of these. -/
theorem mapM_eq_error {f : α → Except ε β} {xs : List α} (h : ∃ x ∈ xs, ∃ e, f x = .error e) :
    ∃ x ∈ xs, ∃ e, f x = .error e ∧ xs.mapM f = .error e := by
  induction xs with
  | nil =>
    obtain ⟨x, hx, -⟩ := h
    exact absurd hx List.not_mem_nil
  | cons x rest ih =>
    rw [List.mapM_cons]
    cases hfirst : f x with
    | error e => exact ⟨x, List.mem_cons_self, e, hfirst, rfl⟩
    | ok b =>
      obtain ⟨y, hy, e, hfails⟩ := h
      have hne : y ≠ x := by
        rintro rfl
        rw [hfirst] at hfails
        cases hfails
      have hrest : y ∈ rest := (List.mem_cons.1 hy).resolve_left hne
      obtain ⟨y, hy, e, hfails, hrun⟩ := ih ⟨y, hrest, e, hfails⟩
      rw [hrun]
      exact ⟨y, List.mem_cons_of_mem _ hy, e, hfails, rfl⟩

/-- A traversal that fails does so by an item. -/
theorem exists_of_mapM_eq_error {f : α → Except ε β} {xs : List α} {e : ε} (h : xs.mapM f = .error e) :
    ∃ x ∈ xs, f x = .error e := by
  by_cases hfails : ∃ x ∈ xs, ∃ e, f x = .error e
  · obtain ⟨x, hx, e', he, hrun⟩ := mapM_eq_error hfails
    exact ⟨x, hx, Except.error.inj (hrun.symm.trans h) ▸ he⟩
  · have hall : ∀ x ∈ xs, ∃ y, f x = .ok y ∧ True := by
      intro x hx
      cases hy : f x with
      | ok y => exact ⟨y, rfl, trivial⟩
      | error e => exact absurd ⟨x, hx, e, hy⟩ hfails
    obtain ⟨ys, hys, -⟩ := exists_mapM_eq_ok hall
    rw [hys] at h
    cases h

end ModelServer
