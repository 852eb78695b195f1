import Mathlib.Data.List.ReduceOption
import ModelServer.Proofs.Model.Places
import ModelServer.Proofs.Workspace.Exactness
import ModelServer.Reference

/-!
# What references lead to

A reference leads to the place of what its target names: of an element, or of an entry that a profile
declares. `Target.StandsAt` says what that is without speaking of models, and a reference that resolves
against a model leads there, to an element that the model has under that path
(`Reference.standsAt_of_resolve`). In a project that compiles this is an element of one of its sections, and
the place is one in the section's document (`Reference.declared_of_resolve`).

To find the first reference at a position is to look through those that are there, the absent ones left
out (`Reference.find?_eq`); and where a stream comes from several sources it makes no difference whether
they are asked one after the other or together (`Reference.findSome?_find?`).
-/

namespace ModelServer

/-! ### Targets -/

/-- The path of the element that a target is, or in which it is declared. -/
def Target.path : Target → String
  | element path => path
  | stereotype profile _ => profile
  | tag profile _ => profile

/-- What the target names stands there: it is the element, or an entry that the element declares. -/
inductive Target.StandsAt (e : Element) (l : Location) : Target → Prop
  | element (source : e.source = some l) : StandsAt e l (.element e.path)
  | stereotype {p : Profile Location} {entry : ProfileEntry Location}
      (profile : e.profile? = some p) (declared : entry ∈ p.stereotypes)
      (source : entry.source = some l) : StandsAt e l (.stereotype e.path entry.name)
  | tag {p : Profile Location} {entry : ProfileEntry Location} (profile : e.profile? = some p)
      (declared : entry ∈ p.tags) (source : entry.source = some l) :
      StandsAt e l (.tag e.path entry.name)

/-- What is named stands somewhere in the element. -/
theorem Target.StandsAt.mem_locations {t : Target} {e : Element} {l : Location}
    (h : t.StandsAt e l) : l ∈ e.locations := by
  have hcontent {p : Profile Location} (hp : e.profile? = some p) :
      e.content.locations = p.places := by
    rw [Element.profile?] at hp
    split at hp
    · next heq =>
      obtain rfl := Option.some.inj hp
      rw [heq, Content.locations]
    · cases hp
  rw [Element.locations]
  cases h with
  | element source =>
    refine List.mem_append_left _ ?_
    simp [Header.places, show e.header.source = some l from source]
  | stereotype profile declared source =>
    rw [hcontent profile]
    refine List.mem_append_right _ (List.mem_append_left _ (List.mem_flatMap.2 ⟨_, declared, ?_⟩))
    simp [ProfileEntry.places, source]
  | tag profile declared source =>
    rw [hcontent profile]
    refine List.mem_append_right _ (List.mem_append_right _ (List.mem_flatMap.2 ⟨_, declared, ?_⟩))
    simp [ProfileEntry.places, source]

namespace Profile

variable {entries : List (ProfileEntry Location)} {name : String} {l : Location}

/-- The entry of a profile that is found has the name that was looked for. -/
theorem exists_of_sourceOf (h : sourceOf entries name = some l) :
    ∃ entry ∈ entries, entry.name = name ∧ entry.source = some l := by
  obtain ⟨entry, hfind, hsource⟩ := Option.bind_eq_some_iff.1 h
  exact ⟨entry, List.mem_of_find?_eq_some hfind, by simpa using List.find?_some hfind, hsource⟩

end Profile

namespace Reference

/-- **A reference that resolves leads to what its target names.** -/
theorem standsAt_of_resolve {r : Reference} {m : CompiledModel} {l : Location}
    (hpath : ∀ path e, m.element? path = some e → e.path = path) (h : r.resolve m = some l) :
    ∃ e, m.element? r.target.path = some e ∧ r.target.StandsAt e l := by
  obtain ⟨place, t⟩ := r
  cases t with
  | element path =>
    obtain ⟨e, he, hsource⟩ := Option.bind_eq_some_iff.1 h
    obtain rfl := hpath _ _ he
    exact ⟨e, he, .element hsource⟩
  | stereotype profile value =>
    obtain ⟨p, hp, hsource⟩ := Option.bind_eq_some_iff.1 h
    obtain ⟨e, he, hprofile⟩ := Option.bind_eq_some_iff.1 hp
    obtain ⟨entry, hentry, rfl, hplace⟩ := Profile.exists_of_sourceOf hsource
    obtain rfl := hpath _ _ he
    exact ⟨e, he, .stereotype hprofile hentry hplace⟩
  | tag profile tag =>
    obtain ⟨p, hp, hsource⟩ := Option.bind_eq_some_iff.1 h
    obtain ⟨e, he, hprofile⟩ := Option.bind_eq_some_iff.1 hp
    obtain ⟨entry, hentry, rfl, hplace⟩ := Profile.exists_of_sourceOf hsource
    obtain rfl := hpath _ _ he
    exact ⟨e, he, .tag hprofile hentry hplace⟩

/-- **What a reference leads to is declared in the project**, in the document that is told. -/
theorem declared_of_resolve {r : Reference} {sections : List Section} {m : CompiledModel}
    (hm : Compiled.ofSections sections = .model m) {l : Location} (h : r.resolve m = some l) :
    ∃ sec ∈ sections, ∃ e ∈ sec.parse.toList, l.document = sec.document.id ∧
      r.target.StandsAt e l := by
  have hexact := Compiled.exact_ofSections sections
  obtain ⟨e, he, hstands⟩ := standsAt_of_resolve
    (fun path e he ↦ ((hexact.found m hm path e).1 he).2) h
  obtain ⟨sec, hsec, hmem⟩ := List.mem_flatMap.1 ((hexact.found m hm _ e).1 he).1
  refine ⟨sec, hsec, e, hmem, ?_, hstands⟩
  -- The element was placed in the document of its section, and so was all that stands in it.
  cases hes : sec.parse with
  | faulty f =>
    rw [hes] at hmem
    cases hmem
  | elements es =>
    rw [hes] at hmem
    obtain ⟨c, -, rfl⟩ := Section.parse_eq_elements_iff.1 hes
    obtain ⟨d, -, rfl⟩ := List.mem_map.1 hmem
    obtain ⟨i, -, rfl⟩ := Declaration.mem_places_of_toElement hstands.mem_locations
    rfl

/-! ### The first reference at a position -/

variable {document : String} {p : Position}

/-- Absent references are passed over. -/
theorem find?_eq (rs : List (Option Reference)) :
    find? document p rs = rs.reduceOption.find? (covers document p) := by
  induction rs with
  | nil => rfl
  | cons r rest ih =>
    cases r with
    | none => exact ih
    | some r =>
      rw [find?, List.findSome?_cons, ← find?, List.reduceOption_cons_of_some, List.find?_cons, ih,
        Option.filter]
      cases covers document p r <;> rfl

/-- It makes no difference whether sources are asked one after the other or together. -/
theorem findSome?_find? {α : Type} (references : α → List (Option Reference)) (as : List α) :
    (as.findSome? fun a ↦ find? document p (references a)) =
      find? document p (as.flatMap references) := by
  induction as with
  | nil => rfl
  | cons a rest ih =>
    have happend : find? document p (references a ++ rest.flatMap references) =
        (find? document p (references a)).or (find? document p (rest.flatMap references)) :=
      List.findSome?_append
    rw [List.findSome?_cons, List.flatMap_cons, happend, ih]
    cases find? document p (references a) <;> rfl

end Reference

end ModelServer
