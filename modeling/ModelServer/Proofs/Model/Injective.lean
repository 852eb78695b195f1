import Mathlib.Data.List.Basic
import Mathlib.Data.Option.Basic
import ModelServer.Model.Element

/-!
# Placing parts loses nothing

The parts of an element are placed in a document by one function for each kind of part, which is written
out field by field. If different places go to different places, different parts go to different parts:
no field is left out, and none stands in for another. For expressions this is an induction along the
tree; for all other parts it is read off their fields.

Bindings are missing here, and so is what holds them. Placing puts their options in order, and so does
lose something.
-/

namespace ModelServer

variable {σ τ : Type} {f : σ → τ}

/-! ### Expressions -/

mutual

theorem Expression.eq_of_map (hf : f.Injective) : (e d : Expression σ) → e.map f = d.map f → e = d
  | .node _ _ _ cs, .node _ _ _ ds, h => by
    obtain ⟨rfl, hsource, rfl, hchildren⟩ := Expression.node.inj h
    rw [Option.map_injective hf hsource, Expression.eq_of_mapList hf cs ds hchildren]

theorem Expression.eq_of_mapList (hf : f.Injective) : (es ds : List (Expression σ)) →
    Expression.mapList f es = Expression.mapList f ds → es = ds
  | [], [], _ => rfl
  | e :: es, d :: ds, h => by
    obtain ⟨hfirst, hrest⟩ := List.cons.inj h
    rw [Expression.eq_of_map hf e d hfirst, Expression.eq_of_mapList hf es ds hrest]

end

variable (hf : f.Injective)

include hf

/-! ### Pointers -/

theorem StereotypePointer.map_injective : (map f).Injective := by
  rintro ⟨_, _, _⟩ ⟨_, _, _⟩ h
  simp only [map, mk.injEq] at h
  obtain ⟨rfl, rfl, hsource⟩ := h
  rw [Option.map_injective hf hsource]

theorem TaggedValue.map_injective : (map f).Injective := by
  rintro ⟨_, _, _, _⟩ ⟨_, _, _, _⟩ h
  simp only [map, mk.injEq] at h
  obtain ⟨rfl, rfl, rfl, hsource⟩ := h
  rw [Option.map_injective hf hsource]

theorem ElementPointer.map_injective : (map f).Injective := by
  rintro ⟨_, _⟩ ⟨_, _⟩ h
  simp only [map, mk.injEq] at h
  obtain ⟨rfl, hsource⟩ := h
  rw [Option.map_injective hf hsource]

/-! ### Lambdas -/

theorem Expression.map_injective : (map f).Injective :=
  fun e d h ↦ eq_of_map hf e d h

theorem Expression.mapList_injective : (mapList f).Injective :=
  fun es ds h ↦ eq_of_mapList hf es ds h

theorem Lambda.map_injective : (map f).Injective := by
  rintro ⟨_, _, _⟩ ⟨_, _, _⟩ h
  simp only [map, mk.injEq] at h
  obtain ⟨rfl, hbody, hsource⟩ := h
  rw [Expression.mapList_injective hf hbody, Option.map_injective hf hsource]

/-! ### Runtimes -/

theorem EngineRuntime.map_injective : (map f).Injective := by
  rintro ⟨_, _⟩ ⟨_, _⟩ h
  simp only [map, mk.injEq] at h
  obtain ⟨hmappings, hconnections⟩ := h
  have hpointers := (ElementPointer.map_injective hf).list_map
  rw [hpointers hmappings, hpointers hconnections]

theorem RuntimeValue.map_injective : (map f).Injective := by
  rintro (p | r) (q | t) h
  · rw [ElementPointer.map_injective hf (pointer.inj h)]
  · cases h
  · cases h
  · rw [EngineRuntime.map_injective hf (engine.inj h)]

/-! ### Tests -/

theorem TestCase.map_injective : (map f).Injective := by
  rintro ⟨_, _⟩ ⟨_, _⟩ h
  simp only [map, mk.injEq] at h
  obtain ⟨rfl, hsource⟩ := h
  rw [Option.map_injective hf hsource]

theorem TestSuite.map_injective : (map f).Injective := by
  rintro ⟨_, _, _⟩ ⟨_, _, _⟩ h
  simp only [map, mk.injEq] at h
  obtain ⟨rfl, htests, hsource⟩ := h
  rw [(TestCase.map_injective hf).list_map htests, Option.map_injective hf hsource]

theorem LegacyTest.map_injective : (map f).Injective := by
  rintro ⟨_, _⟩ ⟨_, _⟩ h
  simp only [map, mk.injEq] at h
  obtain ⟨rfl, hsource⟩ := h
  rw [Option.map_injective hf hsource]

/-! ### What is declared besides -/

theorem ProfileEntry.map_injective : (map f).Injective := by
  rintro ⟨_, _⟩ ⟨_, _⟩ h
  simp only [map, mk.injEq] at h
  obtain ⟨rfl, hsource⟩ := h
  rw [Option.map_injective hf hsource]

theorem Assertion.map_injective : (map f).Injective := by
  rintro ⟨_, _⟩ ⟨_, _⟩ h
  simp only [map, mk.injEq] at h
  obtain ⟨rfl, hassertion⟩ := h
  rw [Option.map_injective (Expression.map_injective hf) hassertion]

theorem PostValidation.map_injective : (map f).Injective := by
  rintro ⟨_, _, _⟩ ⟨_, _, _⟩ h
  simp only [map, mk.injEq] at h
  obtain ⟨rfl, hparameters, hassertions⟩ := h
  rw [Expression.mapList_injective hf hparameters,
    (Assertion.map_injective hf).list_map hassertions]

theorem Header.map_injective : (map f).Injective := by
  rintro ⟨_, _, _, _⟩ ⟨_, _, _, _⟩ h
  simp only [map, mk.injEq] at h
  obtain ⟨rfl, hsource, hstereotypes, htagged⟩ := h
  rw [Option.map_injective hf hsource, (StereotypePointer.map_injective hf).list_map hstereotypes,
    (TaggedValue.map_injective hf).list_map htagged]

theorem Profile.map_injective : (map f).Injective := by
  rintro ⟨_, _⟩ ⟨_, _⟩ h
  simp only [map, mk.injEq] at h
  obtain ⟨hstereotypes, htags⟩ := h
  have hentries := (ProfileEntry.map_injective hf).list_map
  rw [hentries hstereotypes, hentries htags]

theorem Function.map_injective : (map f).Injective := by
  rintro ⟨_, _⟩ ⟨_, _⟩ h
  simp only [map, mk.injEq] at h
  obtain ⟨hfunc, hsuites⟩ := h
  rw [Option.map_injective (Lambda.map_injective hf) hfunc,
    (TestSuite.map_injective hf).list_map hsuites]

end ModelServer
