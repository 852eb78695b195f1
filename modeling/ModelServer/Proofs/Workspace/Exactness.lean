import ModelServer.Proofs.Dictionary
import ModelServer.Proofs.Workspace.Compilation

/-!
# When a project compiles, and why it does not

`Compiled.ofSections` stops at the first thing that is wrong. Sections are *clean* when nothing is: each
parses, and no path is declared twice in all of them. `FaultAt` says what it is to come upon a fault in a
section behind clean ones, and does not mention what stands behind the section.

Compiling goes through clean sections without loss (`compilation_append`), so all that has to be looked at
is one section behind clean ones. A list of sections is clean or has a first fault
(`clean_or_exists_faultAt`), and what compiling comes to is known in both cases: the model, of which every
field is told (`ofSections_of_clean`), or that fault (`ofSections_of_faultAt`). `Compiled.Exact` puts
this together.
-/

namespace ModelServer

/-- The elements that the sections declare, in order. -/
def elementsOf (sections : List Section) : List Element :=
  sections.flatMap fun s ↦ s.parse.toList

/-- The compiled forms of the services that the sections declare, by their paths. -/
def formsOf (sections : List Section) : List (String × CompiledService) :=
  sections.flatMap fun s ↦ s.forms.map fun f ↦ (f.path, f)

/-- The paths that the sections declare, in order. -/
def pathsOf (sections : List Section) : List String :=
  (elementsOf sections).map Element.path

theorem elementsOf_append (before after : List Section) :
    elementsOf (before ++ after) = elementsOf before ++ elementsOf after :=
  List.flatMap_append

theorem elementsOf_cons {s : Section} {es : List Element} (h : s.parse = .elements es)
    (rest : List Section) : elementsOf (s :: rest) = es ++ elementsOf rest := by
  rw [elementsOf, List.flatMap_cons, h]
  rfl

/-- Nothing is wrong with the sections: each parses, and no path is declared twice. -/
structure Clean (sections : List Section) : Prop where
  parses : ∀ s ∈ sections, ∃ es, s.parse = .elements es
  nodup : (pathsOf sections).Nodup

theorem Clean.nil : Clean [] :=
  ⟨fun _ h ↦ absurd h List.not_mem_nil, List.nodup_nil⟩

/-- Behind clean sections a section has a fault: it does not parse, or it declares an element whose path
was declared before, in those sections or in itself, and until then none was. -/
inductive FaultAt (before : List Section) (sec : Section) : CompileFault → Prop
  | unparsed {f : CompileFault} (clean : Clean before) (parse : sec.parse = .faulty f) : FaultAt before sec f
  | duplicate {earlier later : List Element} {e : Element} (clean : Clean before)
      (parse : sec.parse = .elements (earlier ++ e :: later))
      (nodup : (pathsOf before ++ earlier.map Element.path).Nodup)
      (declared : e.path ∈ pathsOf before ++ earlier.map Element.path) :
      FaultAt before sec ⟨"Duplicate element: " ++ e.path, e.source, false⟩

namespace DocumentProvider

variable {seen : List Element}

/-! ### Elements behind others -/

theorem any_path_iff {e : Element} :
    seen.any (·.path == e.path) = true ↔ e.path ∈ seen.map Element.path := by
  simp [List.any_eq_true, List.mem_map]

/-- Elements are let in one after the other as long as their paths are new. -/
theorem addElements_append {es : List Element} (rest : List Element)
    (hn : ((seen ++ es).map Element.path).Nodup) :
    addElements seen (es ++ rest) = addElements (seen ++ es) rest := by
  induction es generalizing seen with
  | nil => rw [List.nil_append, List.append_nil]
  | cons e es ih =>
    have hnew : ¬seen.any (·.path == e.path) = true := by
      rw [any_path_iff]
      intro hmem
      rw [List.map_append, List.nodup_append] at hn
      exact hn.2.2 e.path hmem e.path List.mem_cons_self rfl
    rw [List.append_cons seen] at hn ⊢
    rw [List.cons_append, addElements, if_neg hnew, ih hn]

theorem addElements_of_nodup {es : List Element} (hn : ((seen ++ es).map Element.path).Nodup) :
    addElements seen es = .ok (seen ++ es) := by
  have h := addElements_append [] hn
  rwa [List.append_nil, addElements] at h

/-- The first element whose path was declared before is where adding stops. -/
theorem addElements_of_mem {earlier later : List Element} {e : Element}
    (hn : ((seen ++ earlier).map Element.path).Nodup)
    (he : e.path ∈ (seen ++ earlier).map Element.path) :
    addElements seen (earlier ++ e :: later) =
      .error ⟨"Duplicate element: " ++ e.path, e.source, false⟩ := by
  rw [addElements_append _ hn, addElements, if_pos (any_path_iff.2 he)]

/-- Among elements behind others all paths are new, or there is a first that is not. -/
theorem nodup_or_exists_duplicate (es : List Element) (hn : (seen.map Element.path).Nodup) :
    ((seen ++ es).map Element.path).Nodup ∨
      ∃ earlier e later, es = earlier ++ e :: later ∧
        ((seen ++ earlier).map Element.path).Nodup ∧
        e.path ∈ (seen ++ earlier).map Element.path := by
  induction es using List.reverseRecOn with
  | nil => exact .inl (by rwa [List.append_nil])
  | append_singleton es e ih =>
    rcases ih with hes | ⟨earlier, d, later, rfl, hearlier, hd⟩
    · by_cases he : e.path ∈ (seen ++ es).map Element.path
      · exact .inr ⟨es, e, [], rfl, hes, he⟩
      · refine .inl ?_
        rw [← List.append_assoc, List.map_append, List.map_singleton]
        exact List.nodup_append.2 ⟨hes, List.nodup_singleton _, by
          rintro a ha b hb rfl
          exact he (List.mem_singleton.1 hb ▸ ha)⟩
    · exact .inr ⟨earlier, d, later ++ [e], by rw [List.append_assoc, List.cons_append], hearlier, hd⟩

/-! ### Sections behind others -/

/-- The compiled forms that the sections add to those there are. -/
def addForms (forms : List (String × CompiledService)) (sections : List Section) :
    List (String × CompiledService) :=
  (formsOf sections).foldl (fun d e ↦ Dictionary.put e.1 e.2 d) forms

theorem addForms_cons (forms : List (String × CompiledService)) (s : Section)
    (rest : List Section) :
    addForms forms (s :: rest) =
      addForms ((s.forms.map fun f ↦ (f.path, f)).foldl (fun d e ↦ Dictionary.put e.1 e.2 d) forms)
        rest := by
  rw [addForms, addForms, formsOf, List.flatMap_cons, List.foldl_append, ← formsOf]

/-- **Compiling goes through clean sections without loss.** -/
theorem compilation_append {before : List Section}
    (hparses : ∀ s ∈ before, ∃ es, s.parse = .elements es)
    (hn : ((seen ++ elementsOf before).map Element.path).Nodup)
    (forms : List (String × CompiledService)) (after : List Section) :
    compilation seen forms (before ++ after) =
      compilation (seen ++ elementsOf before) (addForms forms before) after := by
  induction before generalizing seen forms with
  | nil =>
    rw [elementsOf, List.flatMap_nil, List.append_nil]
    rfl
  | cons s rest ih =>
    obtain ⟨⟨es, hes⟩, hrest⟩ := List.forall_mem_cons.1 hparses
    rw [elementsOf_cons hes, ← List.append_assoc] at hn ⊢
    have hfirst : ((seen ++ es).map Element.path).Nodup := by
      rw [List.map_append] at hn
      exact (List.nodup_append.1 hn).1
    rw [List.cons_append, compilation, hes]
    dsimp only
    rw [addElements_of_nodup hfirst]
    dsimp only
    rw [ih hrest hn, addForms_cons]

end DocumentProvider

/-! ### Clean, or a first fault -/

/-- **Sections are clean, or there is a first fault in them.** -/
theorem clean_or_exists_faultAt (sections : List Section) :
    Clean sections ∨
      ∃ before sec after f, sections = before ++ sec :: after ∧ FaultAt before sec f := by
  induction sections using List.reverseRecOn with
  | nil => exact .inl .nil
  | append_singleton rest sec ih =>
    rcases ih with hclean | ⟨before, d, after, f, rfl, hf⟩
    · cases hes : sec.parse with
      | faulty f => exact .inr ⟨rest, sec, [], f, rfl, .unparsed hclean hes⟩
      | elements es =>
        rcases DocumentProvider.nodup_or_exists_duplicate es hclean.nodup with
          hn | ⟨earlier, e, later, rfl, hn, he⟩
        · refine .inl ⟨fun s hs ↦ ?_, ?_⟩
          · rcases List.mem_append.1 hs with hs | hs
            · exact hclean.parses s hs
            · exact ⟨es, List.mem_singleton.1 hs ▸ hes⟩
          · rwa [pathsOf, elementsOf_append, elementsOf_cons hes, elementsOf, elementsOf,
              List.flatMap_nil, List.append_nil, ← elementsOf]
        · rw [List.map_append] at hn he
          exact .inr ⟨rest, sec, [], _, rfl, .duplicate hclean hes hn he⟩
    · exact .inr ⟨before, d, after ++ [sec], f, by rw [List.append_assoc, List.cons_append], hf⟩

namespace Compiled

variable {sections before : List Section} {sec : Section} {f : CompileFault}

theorem ofSections_append (h : Clean before) (after : List Section) :
    ofSections (before ++ after) =
      DocumentProvider.compilation (elementsOf before) (DocumentProvider.addForms [] before) after := by
  have hn : ((([] : List Element) ++ elementsOf before).map Element.path).Nodup := h.nodup
  have happend := DocumentProvider.compilation_append h.parses hn [] after
  rwa [List.nil_append] at happend

/-- **The first fault is what is told**, whatever comes after it. -/
theorem ofSections_of_faultAt (h : FaultAt before sec f) (after : List Section) :
    ofSections (before ++ sec :: after) = .faulty f := by
  cases h with
  | unparsed clean parse => rw [ofSections_append clean, DocumentProvider.compilation, parse]
  | duplicate clean parse nodup declared =>
    rw [pathsOf, ← List.map_append] at nodup declared
    rw [ofSections_append clean, DocumentProvider.compilation, parse]
    dsimp only
    rw [DocumentProvider.addElements_of_mem nodup declared]

end Compiled

/-! ### The model of a project -/

/-- The element is a service. -/
def Element.isService (e : Element) : Bool :=
  e.service?.isSome

/-- The declarations that have a compiled form are those of services. -/
theorem Declaration.map_path_compiled (document : String) (ds : List Declaration) :
    (ds.filterMap (compiled? document)).map (·.path) =
      ((ds.map (toElement document)).filter (·.isService)).map Element.path := by
  induction ds with
  | nil => rfl
  | cons d rest ih =>
    cases d with
    | service h _ _ => exact congrArg (List.cons h.path) ih
    | mapping | runtime | profile | function => exact ih

theorem Section.map_path_forms (s : Section) :
    s.forms.map (·.path) = (s.parse.toList.filter (·.isService)).map Element.path := by
  cases hc : s.content with
  | ok c =>
    rw [forms, hc, parse_of_content hc]
    exact Declaration.map_path_compiled _ _
  | error f =>
    have hforms : s.forms = [] := by rw [forms, hc]
    rw [hforms]
    cases hes : s.parse with
    | faulty f => rfl
    | elements es =>
      obtain ⟨c, hcontent, -⟩ := parse_eq_elements_iff.1 hes
      rw [hc] at hcontent
      cases hcontent

/-- **The compiled forms are those of the services, under their paths.** -/
theorem map_fst_formsOf (sections : List Section) :
    (formsOf sections).map Prod.fst =
      ((elementsOf sections).filter (·.isService)).map Element.path := by
  induction sections with
  | nil => rfl
  | cons s rest ih =>
    rw [formsOf, List.flatMap_cons, ← formsOf, elementsOf, List.flatMap_cons, ← elementsOf,
      List.map_append, ih, List.map_map, List.filter_append, List.map_append, ← s.map_path_forms]
    rfl

theorem Clean.nodup_forms {sections : List Section} (h : Clean sections) :
    ((formsOf sections).map Prod.fst).Nodup := by
  rw [map_fst_formsOf]
  exact h.nodup.sublist (List.filter_sublist.map _)

/-- To place a service changes nothing of its lambda but the places. -/
theorem Service.func_map {σ τ : Type} (f : σ → τ) (s : Service σ) :
    (s.map f).execution.bind (·.func) = (s.execution.bind (·.func)).map (·.map f) := by
  rw [Service.map]
  rcases s.execution with _ | ⟨func, b⟩ | ⟨func, key, variants⟩ <;> rfl

/-- The compiled form of a service has the lambda of the element's execution. -/
theorem Declaration.compiled?_service (document : String) (h : Header Interval)
    (s : Service Interval) (conditions : List (PostValidation Interval)) :
    let e := (service h s conditions).toElement document
    (service h s conditions).compiled? document =
      some ⟨e.path, (e.service?.bind (·.execution)).bind (·.func),
        conditions.map (·.map (Location.mk document))⟩ := by
  intro e
  have hpath : e.path = h.path := rfl
  have hfunc : (e.service?.bind (·.execution)).bind (·.func) =
      (s.execution.bind (·.func)).map (·.map (Location.mk document)) :=
    s.func_map (Location.mk document)
  rw [hpath, hfunc]
  rfl

namespace Compiled

variable {sections : List Section}

/-- **The model of clean sections**: each path is that of its own element, and each service has its
form. -/
theorem ofSections_of_clean (h : Clean sections) :
    ofSections sections =
      .model ⟨(elementsOf sections).map fun e ↦ (e.path, e), formsOf sections⟩ := by
  have hkeys : (((elementsOf sections).map fun e ↦ (e.path, e)).map Prod.fst).Nodup := by
    rw [List.map_map]
    exact h.nodup
  have hforms : DocumentProvider.addForms [] sections = formsOf sections :=
    Dictionary.ofList_of_nodup h.nodup_forms
  have happend := ofSections_append h []
  rw [List.append_nil] at happend
  rw [happend, DocumentProvider.compilation, hforms, CompiledModel.ofElements,
    Dictionary.ofList_of_nodup hkeys]

/-- What the sections compile to is just what it should be. -/
structure Exact (sections : List Section) (r : Compiled) : Prop where
  /-- There is a model exactly if every section parses and no path is declared twice. -/
  succeeds : (∃ m, r = .model m) ↔
    (∀ s ∈ sections, ∃ es, s.parse = .elements es) ∧ (pathsOf sections).Nodup
  /-- What is told is the first fault, and what stands behind its section has no part in it. -/
  fails : ∀ f, r = .faulty f ↔
    ∃ before sec after, sections = before ++ sec :: after ∧ FaultAt before sec f
  /-- There is a model or a fault. -/
  answers : r ≠ .nothing
  /-- The model knows the declared elements by their paths, and nothing else. -/
  elements : ∀ m, r = .model m → m.elements = (elementsOf sections).map fun e ↦ (e.path, e)
  found : ∀ m, r = .model m → ∀ path e,
    m.element? path = some e ↔ e ∈ elementsOf sections ∧ e.path = path
  /-- It has compiled forms of the services, and of nothing else. -/
  forms : ∀ m, r = .model m → m.forms.map Prod.fst =
    ((elementsOf sections).filter (·.isService)).map Element.path
  /-- The form of a service has the lambda of its parsed execution and the conditions that the
  declaration lists. -/
  form : ∀ m, r = .model m → ∀ s ∈ sections, ∀ c, s.content = .ok c → ∀ h service conditions,
    Declaration.service h service conditions ∈ c.declarations →
      ∃ e ∈ elementsOf sections,
        e = (Declaration.service h service conditions).toElement s.document.id ∧
        m.form? e.path = some ⟨e.path, (e.service?.bind (·.execution)).bind (·.func),
          conditions.map (·.map (Location.mk s.document.id))⟩

theorem exists_model_iff : (∃ m, ofSections sections = .model m) ↔ Clean sections := by
  refine ⟨?_, fun h ↦ ⟨_, ofSections_of_clean h⟩⟩
  rintro ⟨m, hm⟩
  rcases clean_or_exists_faultAt sections with hclean | ⟨before, sec, after, f, rfl, hf⟩
  · exact hclean
  · rw [ofSections_of_faultAt hf] at hm
    cases hm

theorem eq_faulty_iff {f : CompileFault} : ofSections sections = .faulty f ↔
    ∃ before sec after, sections = before ++ sec :: after ∧ FaultAt before sec f := by
  constructor
  · intro h
    rcases clean_or_exists_faultAt sections with hclean | ⟨before, sec, after, f', rfl, hf⟩
    · rw [ofSections_of_clean hclean] at h
      cases h
    · rw [ofSections_of_faultAt hf] at h
      cases h
      exact ⟨before, sec, after, rfl, hf⟩
  · rintro ⟨before, sec, after, rfl, hf⟩
    exact ofSections_of_faultAt hf after

theorem eq_of_model {m : CompiledModel} (h : ofSections sections = .model m) :
    m = ⟨(elementsOf sections).map fun e ↦ (e.path, e), formsOf sections⟩ := by
  rw [ofSections_of_clean (exists_model_iff.1 ⟨m, h⟩)] at h
  exact (Compiled.model.inj h).symm

/-- **What sections compile to is exact.** -/
theorem exact_ofSections (sections : List Section) : Exact sections (ofSections sections) where
  succeeds := exists_model_iff.trans ⟨fun h ↦ ⟨h.parses, h.nodup⟩, fun h ↦ ⟨h.1, h.2⟩⟩
  fails _ := eq_faulty_iff
  answers := ofSections_ne_nothing
  elements m hm := by rw [eq_of_model hm]
  found m hm path e := by
    have hclean := exists_model_iff.1 ⟨m, hm⟩
    have hkeys : (((elementsOf sections).map fun e ↦ (e.path, e)).map Prod.fst).Nodup := by
      rw [List.map_map]
      exact hclean.nodup
    rw [CompiledModel.element?, eq_of_model hm, Dictionary.lookup_eq_some_iff_mem hkeys]
    constructor
    · intro h
      obtain ⟨d, hd, heq⟩ := List.mem_map.1 h
      cases heq
      exact ⟨hd, rfl⟩
    · rintro ⟨he, rfl⟩
      exact List.mem_map_of_mem he
  forms m hm := by rw [eq_of_model hm, map_fst_formsOf]
  form m hm s hs c hc h service conditions hd := by
    have hclean := exists_model_iff.1 ⟨m, hm⟩
    refine ⟨(Declaration.service h service conditions).toElement s.document.id, ?_, rfl, ?_⟩
    · rw [elementsOf, List.mem_flatMap]
      exact ⟨s, hs, Section.parse_of_content hc ▸ List.mem_map_of_mem hd⟩
    · have hform := Declaration.compiled?_service s.document.id h service conditions
      rw [CompiledModel.form?, eq_of_model hm, Dictionary.lookup_eq_some_iff_mem hclean.nodup_forms,
        formsOf, List.mem_flatMap]
      refine ⟨s, hs, ?_⟩
      rw [Section.forms, hc]
      exact List.mem_map.2 ⟨_, List.mem_filterMap.2 ⟨_, hd, hform⟩, rfl⟩

end Compiled

end ModelServer
