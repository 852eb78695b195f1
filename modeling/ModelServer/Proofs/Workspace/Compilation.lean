import Mathlib.Data.List.Nodup
import Mathlib.Data.List.Pairwise
import ModelServer.Proofs.Except
import ModelServer.Workspace.Provider

/-!
# What a list of sections compiles to

The provider compiles the sections one by one and asks for each section's parse on the way, so it can
use what is remembered. `Compiled.ofSections` is what it should come to: a function of the sections
alone, with every section parsed afresh. That the provider, asking whatever memory is sound, comes to
exactly this is `Workspace.Sound.compileFrom` elsewhere; here is what the function says.

It gives a model only if every section parses and all paths are different (`parses_of_ofSections`,
`nodup_of_ofSections`). The second is where a path comes to stand for one element of the whole
project, and rests on `addElements` alone: it never lets a path in twice
(`nodup_of_addElements`), and lets in all it is given (`eq_append_of_addElements`).
-/

namespace ModelServer

theorem Parsed.of_element? {p : Parsed} {path : String} {e : Element}
    (h : p.element? path = some e) : e ∈ p.toList ∧ e.path = path :=
  ⟨List.mem_of_find?_eq_some h, by simpa using List.find?_some h⟩

namespace Section

/-- The compiled forms of the services that the section declares; none if it does not parse. -/
def forms (s : Section) : List CompiledService :=
  match s.content with
  | .ok c => c.declarations.filterMap (Declaration.compiled? s.document.id)
  | .error _ => []

/-- A section parses to elements exactly if it has content, and these are what it declares. -/
theorem parse_eq_elements_iff {s : Section} {es : List Element} :
    s.parse = .elements es ↔
      ∃ c, s.content = .ok c ∧ es = c.declarations.map (Declaration.toElement s.document.id) := by
  rw [parse, content]
  cases s.body with
  | unreadable message => simp
  | value v => cases h : SectionContent.reader v <;> simp [h, eq_comm]

theorem parse_of_content {s : Section} {c : SectionContent} (h : s.content = .ok c) :
    s.parse = .elements (c.declarations.map (Declaration.toElement s.document.id)) :=
  parse_eq_elements_iff.2 ⟨c, h, rfl⟩

/-- Where a section parses its forms can be had. -/
theorem compiledForms_of_parse {s : Section} {es : List Element} (h : s.parse = .elements es) :
    s.compiledForms = .ok (s.forms.map fun f ↦ (f.path, f)) := by
  obtain ⟨c, hc, -⟩ := parse_eq_elements_iff.1 h
  rw [compiledForms, forms, hc]
  rfl

/-- What the section declares; nothing if it does not parse. -/
def declarations (s : Section) : List Declaration :=
  match s.content with
  | .ok c => c.declarations
  | .error _ => []

/-- What is posted of the section: a record for each declaration, fields that are null left out. -/
def posted (s : Section) : List Json :=
  s.declarations.map fun d ↦ d.toJson.dropNulls

/-- Where a section parses it can be written out. -/
theorem records_of_parse {s : Section} {es : List Element} (h : s.parse = .elements es) :
    s.records = .ok s.posted := by
  obtain ⟨c, hc, -⟩ := parse_eq_elements_iff.1 h
  rw [records, posted, declarations, hc]
  rfl

theorem records_of_faulty {s : Section} {f : CompileFault} (h : s.parse = .faulty f) :
    ∃ fault, s.records = .error fault := by
  cases hc : s.content with
  | ok c =>
    rw [parse_of_content hc] at h
    cases h
  | error fault => exact ⟨fault, by rw [records, hc]; rfl⟩

end Section

namespace DocumentProvider

/-- **A project of which every section parses can be written out**, section by section. -/
theorem recordsOf_of_parses {sections : List Section}
    (h : ∀ s ∈ sections, ∃ es, s.parse = .elements es) :
    recordsOf sections = .ok (sections.flatMap Section.posted) := by
  have hall : ∀ s ∈ sections, s.records = .ok s.posted := by
    intro s hs
    obtain ⟨es, hes⟩ := h s hs
    exact Section.records_of_parse hes
  rw [recordsOf, mapM_eq_ok hall]
  rfl

/-- A section that does not parse keeps the whole project from being written out. -/
theorem recordsOf_of_not_parses {sections : List Section}
    (h : ¬∀ s ∈ sections, ∃ es, s.parse = .elements es) : ∃ fault, recordsOf sections = .error fault := by
  obtain ⟨s, hs, hfaulty⟩ : ∃ s ∈ sections, ∃ fault, s.records = .error fault := by
    by_contra hn
    refine h fun s hs ↦ ?_
    cases hparse : s.parse with
    | elements es => exact ⟨es, rfl⟩
    | faulty f => exact absurd ⟨s, hs, Section.records_of_faulty hparse⟩ hn
  obtain ⟨-, -, fault, -, hfault⟩ := mapM_eq_error ⟨s, hs, hfaulty⟩
  exact ⟨fault, by rw [recordsOf, hfault]; rfl⟩

/-! ### Elements are let in once -/

theorem eq_append_of_addElements {seen es all : List Element}
    (h : addElements seen es = .ok all) : all = seen ++ es := by
  fun_induction addElements seen es with
  | case1 seen => exact (Except.ok.inj h).symm.trans (List.append_nil seen).symm
  | case2 => cases h
  | case3 seen e rest _ ih => rw [ih h, List.append_assoc, List.singleton_append]

theorem nodup_of_addElements {seen es all : List Element}
    (hn : (seen.map Element.path).Nodup) (h : addElements seen es = .ok all) :
    (all.map Element.path).Nodup := by
  fun_induction addElements seen es with
  | case1 seen => exact Except.ok.inj h ▸ hn
  | case2 => cases h
  | case3 seen e rest hnew ih =>
    refine ih ?_ h
    have hnot : e.path ∉ seen.map Element.path := by
      intro hmem
      obtain ⟨d, hd, hde⟩ := List.mem_map.1 hmem
      exact hnew (List.any_eq_true.2 ⟨d, hd, beq_iff_eq.2 hde⟩)
    rw [List.map_append, List.map_singleton]
    exact List.nodup_append.2 ⟨hn, List.nodup_singleton _, by
      rintro a ha b hb rfl
      exact hnot (List.mem_singleton.1 hb ▸ ha)⟩

/-! ### Compiling as a function of the sections -/

/-- What the sections compile to behind those in which `elements` and `forms` were found. -/
def compilation (elements : List Element) (forms : List (String × CompiledService)) :
    List Section → Compiled
  | [] => .model (.ofElements elements forms)
  | s :: rest =>
    match s.parse with
    | .faulty f => .faulty f
    | .elements es =>
      match addElements elements es with
      | .error f => .faulty f
      | .ok elements' =>
        compilation elements'
          ((s.forms.map fun f ↦ (f.path, f)).foldl (fun d e ↦ Dictionary.put e.1 e.2 d) forms) rest

variable {elements : List Element} {forms : List (String × CompiledService)}
  {sections : List Section} {m : CompiledModel}

theorem parses_of_compilation (h : compilation elements forms sections = .model m) :
    ∀ s ∈ sections, ∃ es, s.parse = .elements es := by
  fun_induction compilation elements forms sections with
  | case1 => exact fun s hs ↦ absurd hs List.not_mem_nil
  | case2 | case3 => cases h
  | case4 elements forms s rest es hes elements' _ ih =>
    exact List.forall_mem_cons.2 ⟨⟨es, hes⟩, ih h⟩

theorem nodup_of_compilation (hn : (elements.map Element.path).Nodup)
    (h : compilation elements forms sections = .model m) :
    ((elements ++ sections.flatMap fun s ↦ s.parse.toList).map Element.path).Nodup := by
  fun_induction compilation elements forms sections with
  | case1 elements forms => rwa [List.flatMap_nil, List.append_nil]
  | case2 | case3 => cases h
  | case4 elements forms s rest es hes elements' hadd ih =>
    have hall := ih (nodup_of_addElements hn hadd) h
    rw [eq_append_of_addElements hadd, List.append_assoc] at hall
    rw [List.flatMap_cons, hes]
    exact hall

end DocumentProvider

/-- What the project of those sections compiles to. -/
def Compiled.ofSections (sections : List Section) : Compiled :=
  DocumentProvider.compilation [] [] sections

namespace Compiled

variable {sections : List Section} {m : CompiledModel}

/-- In a project that compiles every section parses. -/
theorem parses_of_ofSections (h : ofSections sections = .model m) {s : Section}
    (hs : s ∈ sections) : ∃ es, s.parse = .elements es :=
  DocumentProvider.parses_of_compilation h s hs

/-- **In a project that compiles no path is declared twice**, in whatever sections. -/
theorem nodup_of_ofSections (h : ofSections sections = .model m) :
    ((sections.flatMap fun s ↦ s.parse.toList).map Element.path).Nodup := by
  have hnil : (([] : List Element).map Element.path).Nodup := List.nodup_nil
  exact DocumentProvider.nodup_of_compilation hnil h

/-- Where no path is declared twice, the section that declares an element is the one that is found by
its path, and the element is the one that is found in it. -/
theorem find?_of_nodup {sections : List Section}
    (hn : ((sections.flatMap fun s ↦ s.parse.toList).map Element.path).Nodup) {sec : Section}
    (hsec : sec ∈ sections) {e : Element} (he : e ∈ sec.parse.toList) :
    sections.find? (fun s ↦ (s.parse.element? e.path).isSome) = some sec ∧
      sec.parse.element? e.path = some e ∧
      ∀ s ∈ sections, ∀ d ∈ s.parse.toList, d.path = e.path → s = sec ∧ d = e := by
  rw [List.map_flatMap, List.nodup_flatMap] at hn
  obtain ⟨hone, hpairs⟩ := hn
  have hunique : ∀ s ∈ sections, ∀ d ∈ s.parse.toList, d.path = e.path → s = sec ∧ d = e := by
    intro s hs d hd hpath
    obtain rfl : s = sec := by
      -- Of two sections that both declared the path the lists of paths would not be disjoint.
      by_contra hne
      have : Std.Symm (Function.onFun List.Disjoint fun s : Section ↦ s.parse.toList.map Element.path) :=
        ⟨fun _ _ h _ ha hb ↦ h hb ha⟩
      have hdisjoint := hpairs.forall hs hsec hne
      exact hdisjoint (List.mem_map_of_mem hd) (hpath ▸ List.mem_map_of_mem he)
    exact ⟨rfl, List.inj_on_of_nodup_map (hone s hs) hd he hpath⟩
  have helement : sec.parse.element? e.path = some e := by
    cases h : sec.parse.element? e.path with
    | none => exact absurd (beq_self_eq_true e.path) (List.find?_eq_none.1 h e he)
    | some d =>
      obtain ⟨hd, hpath⟩ := Parsed.of_element? h
      rw [(hunique sec hsec d hd hpath).2]
  refine ⟨?_, helement, hunique⟩
  cases h : sections.find? fun s ↦ (s.parse.element? e.path).isSome with
  | none =>
    refine absurd ?_ (List.find?_eq_none.1 h sec hsec)
    rw [helement]
    rfl
  | some s =>
    have hsome : (s.parse.element? e.path).isSome = true := by simpa using List.find?_some h
    obtain ⟨d, hd⟩ := Option.isSome_iff_exists.1 hsome
    obtain ⟨hmem, hpath⟩ := Parsed.of_element? hd
    rw [(hunique s (List.mem_of_find?_eq_some h) d hmem hpath).1]

/-- Compiling gives a model or says why there is none. -/
theorem ofSections_ne_nothing : ofSections sections ≠ .nothing := by
  suffices h : ∀ elements forms, DocumentProvider.compilation elements forms sections ≠ .nothing from
    h [] []
  intro elements forms
  fun_induction DocumentProvider.compilation elements forms sections with
  | case1 | case2 | case3 => exact nofun
  | case4 _ _ _ _ _ _ _ _ ih => exact ih

end Compiled

end ModelServer
