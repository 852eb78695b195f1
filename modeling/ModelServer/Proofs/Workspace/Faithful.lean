import ModelServer.Proofs.Model.Ordered
import ModelServer.Proofs.Workspace.Exactness
import ModelServer.Proofs.Workspace.RoundTrip

/-!
# What was parsed tells what was written

Of a section only its elements and the compiled forms of its services are known after it was parsed and
compiled. They tell what the section declares, but for the order in which options stand
(`Section.declarations_of_parsed`), and so they tell the records that the section is posted as, but for
the order of members (`Section.records_determined`).

The proviso is about options: of two names that become one when they are written the later counts, and
which one that is cannot be told any more.
-/

namespace ModelServer

namespace Declaration

/-- Services have a compiled form, and nothing else has. -/
theorem isSome_compiled? (document : String) (d : Declaration) :
    (d.compiled? document).isSome = (d.toElement document).isService := by
  cases d <;> rfl

/-- Declarations are told, one by one, by their elements and the compiled forms of the services among
them. -/
theorem map_ordered_of_placed {document : String} {ds ds' : List Declaration}
    (helements : ds.map (toElement document) = ds'.map (toElement document))
    (hforms : ds.filterMap (compiled? document) = ds'.filterMap (compiled? document)) :
    ds.map ordered = ds'.map ordered := by
  induction ds generalizing ds' with
  | nil => rw [List.map_eq_nil_iff.1 helements.symm]
  | cons d rest ih =>
    obtain ⟨d', rest', rfl, hd, hrest⟩ := List.map_eq_cons_iff.1 helements.symm
    have hsome : (d.compiled? document).isSome = (d'.compiled? document).isSome := by
      rw [isSome_compiled?, isSome_compiled?, hd]
    -- Where one of the two is a service so is the other, and their forms stand at the same place.
    have hboth : d.compiled? document = d'.compiled? document ∧
        rest.filterMap (compiled? document) = rest'.filterMap (compiled? document) := by
      cases hc : d.compiled? document with
      | none =>
        rw [hc] at hsome
        have hc' : d'.compiled? document = none :=
          Option.isNone_iff_eq_none.1 (Option.isSome_eq_false_iff.1 hsome.symm)
        rw [List.filterMap_cons_none hc, List.filterMap_cons_none hc'] at hforms
        exact ⟨hc'.symm, hforms⟩
      | some c =>
        rw [hc] at hsome
        obtain ⟨c', hc'⟩ := Option.isSome_iff_exists.1 hsome.symm
        rw [List.filterMap_cons_some hc, List.filterMap_cons_some hc'] at hforms
        obtain ⟨rfl, hrest⟩ := List.cons.inj hforms
        exact ⟨hc'.symm, hrest⟩
    have hfirst := (ordered_eq_iff document).2 ⟨hd.symm, hboth.1⟩
    rw [List.map_cons, List.map_cons, hfirst, ih hrest.symm hboth.2]

end Declaration

namespace Section

variable {s s' : Section} {es : List Element}

/-- **What was parsed tells what was declared**, but for the order of options. -/
theorem declarations_of_parsed (hid : s.document.id = s'.document.id) (hp : s.parse = .elements es)
    (hp' : s'.parse = .elements es) (hforms : s.compiledForms = s'.compiledForms) :
    ∃ c c', s.content = .ok c ∧ s'.content = .ok c' ∧
      c.declarations.map Declaration.ordered = c'.declarations.map Declaration.ordered := by
  rw [compiledForms_of_parse hp, compiledForms_of_parse hp'] at hforms
  -- Forms are listed with their paths, which they have themselves.
  have hpairs : (fun f : CompiledService ↦ (f.path, f)).Injective := fun _ _ h ↦ (Prod.mk.inj h).2
  have hforms : s.forms = s'.forms := hpairs.list_map (Except.ok.inj hforms)
  obtain ⟨c, hc, rfl⟩ := parse_eq_elements_iff.1 hp
  obtain ⟨c', hc', helements⟩ := parse_eq_elements_iff.1 hp'
  rw [forms_of_content hc, forms_of_content hc', hid] at hforms
  rw [hid] at helements
  exact ⟨c, c', hc, hc', Declaration.map_ordered_of_placed helements hforms⟩

/-- What is posted is told by the declarations with their options in order, if the names of options stay
different. -/
theorem map_ordered_records {document : String} {ds : List Declaration}
    (h : ∀ e ∈ ds.map (Declaration.toElement document), ∀ b ∈ e.bindings, b.Separate) :
    (ds.map fun d ↦ d.toJson.dropNulls).map Data.ordered =
      (ds.map Declaration.ordered).map fun d ↦ d.toJson.dropNulls.ordered := by
  rw [List.map_map, List.map_map]
  refine List.map_congr_left fun d hd ↦ ?_
  refine (Declaration.alike_toJson fun b hb ↦ ?_).ordered
  rw [← Binding.separate_map (Location.mk document)]
  refine h _ (List.mem_map_of_mem hd) _ ?_
  rw [Declaration.bindings_toElement]
  exact List.mem_map_of_mem hb

/-- **What was parsed tells what is posted.** Of two sections of one document that parse to the same
elements, and whose services have the same compiled forms, the declarations are the same but for the
order of options. If no binding has two names of options that become one when they are written, what the
two are posted as is the same but for the order of members. -/
theorem records_determined (hid : s.document.id = s'.document.id) (hp : s.parse = .elements es)
    (hp' : s'.parse = .elements es) (hforms : s.compiledForms = s'.compiledForms) :
    (∃ c c', s.content = .ok c ∧ s'.content = .ok c' ∧
      c.declarations.map Declaration.ordered = c'.declarations.map Declaration.ordered) ∧
    ∃ rs rs', s.records = .ok rs ∧ s'.records = .ok rs' ∧
      ((∀ e ∈ es, ∀ b ∈ e.bindings, b.Separate) → rs.map Data.ordered = rs'.map Data.ordered) := by
  obtain ⟨c, c', hc, hc', hsame⟩ := declarations_of_parsed hid hp hp' hforms
  refine ⟨⟨c, c', hc, hc', hsame⟩, _, _, records_of_content hc, records_of_content hc',
    fun hseparate ↦ ?_⟩
  have helements := Parsed.elements.inj (hp.symm.trans (parse_of_content hc))
  have helements' := Parsed.elements.inj (hp'.symm.trans (parse_of_content hc'))
  rw [map_ordered_records (helements ▸ hseparate), map_ordered_records (helements' ▸ hseparate), hsame]

/-! ### Two options -/

/-- The declaration of a service that runs with those options. -/
def serviceWith (options : List (String × String)) : Declaration :=
  .service ⟨"m::S", none, [], []⟩
    ⟨"", "", some (.single none ⟨none, none, none, options⟩), [], none⟩ []

/-- A section that declares a service with two options and nothing else, as one would write it. -/
def withTwoOptions (o p : String × String) : Section :=
  ⟨⟨"file:///model.json", "", 0, 0⟩, 0, "Service", .value (.record
    [("grammar", .text "Service"), ("elements", .list [.record
      [("kind", .text "service"), ("path", .text "m::S"), ("execution", .record
        [("kind", .text "single"),
         ("execution_options", .record [(o.1, .text o.2), (p.1, .text p.2)])])]])])⟩

theorem content_withTwoOptions (o p : String × String) :
    (withTwoOptions o p).content = .ok ⟨"Service", [serviceWith [o, p]]⟩ :=
  rfl

/-- The order of the two options is lost. -/
theorem parse_withTwoOptions_swap {o p : String × String} (h : o.1 ≠ p.1) :
    (withTwoOptions p o).parse = (withTwoOptions o p).parse := by
  have hordered : (serviceWith [p, o]).ordered = (serviceWith [o, p]).ordered := by
    have hsort := Dictionary.sort_of_perm (by simpa using h.symm) (List.Perm.swap o p [])
    simp only [serviceWith, Declaration.ordered, Service.ordered, Option.map_some, Execution.ordered,
      Binding.ordered, hsort]
  have hparse := parse_of_content (content_withTwoOptions o p)
  have helement := ((Declaration.ordered_eq_iff (withTwoOptions o p).document.id).1 hordered).1
  rw [hparse, parse_of_content (content_withTwoOptions p o)]
  exact congrArg (fun e ↦ Parsed.elements [e]) helement

theorem compiledForms_withTwoOptions (o p : String × String) :
    (withTwoOptions o p).compiledForms = .ok [("m::S", ⟨"m::S", none, []⟩)] :=
  compiledForms_of_parse (parse_of_content (content_withTwoOptions o p))

theorem separate_serviceWith_iff (document : String) (options : List (String × String)) :
    (∀ e ∈ [serviceWith options].map (Declaration.toElement document), ∀ b ∈ e.bindings, b.Separate) ↔
      (options.map fun o ↦ Text.repaired o.1).Nodup := by
  have hbindings : (serviceWith options).bindings = [⟨none, none, none, options⟩] := rfl
  simp only [List.map_singleton, List.mem_singleton, forall_eq, Declaration.bindings_toElement,
    hbindings, Binding.separate_map]
  rfl

theorem records_of_swapped_options : ∃ es rs rs',
    (withTwoOptions ("a", "x") ("b", "y")).parse = .elements es ∧
      (withTwoOptions ("b", "y") ("a", "x")).parse = .elements es ∧
      (withTwoOptions ("a", "x") ("b", "y")).records = .ok rs ∧
      (withTwoOptions ("b", "y") ("a", "x")).records = .ok rs' ∧
      rs.map Data.ordered = rs'.map Data.ordered := by
  have hparse := parse_of_content (content_withTwoOptions ("a", "x") ("b", "y"))
  have hparse' := (parse_withTwoOptions_swap (by decide)).trans hparse
  have hforms := (compiledForms_withTwoOptions ("a", "x") ("b", "y")).trans
    (compiledForms_withTwoOptions ("b", "y") ("a", "x")).symm
  have hid : (withTwoOptions ("a", "x") ("b", "y")).document.id =
      (withTwoOptions ("b", "y") ("a", "x")).document.id := rfl
  obtain ⟨-, rs, rs', hrs, hrs', hsame⟩ := records_determined hid hparse hparse' hforms
  have hseparate := (separate_serviceWith_iff (withTwoOptions ("a", "x") ("b", "y")).document.id
    [("a", "x"), ("b", "y")]).2 (by decide)
  exact ⟨_, rs, rs', hparse, hparse', hrs, hrs', hsame hseparate⟩

/-- An option under a name that is not whole. -/
def brokenOption (surrogate : Nat) (text : String) : String × String :=
  (.ofList (Text.standIn surrogate), text)

/-- **Options whose names become one are not told.** -/
theorem records_not_determined : ∃ es rs rs',
    (withTwoOptions (brokenOption 0xD800 "x") (brokenOption 0xD801 "y")).parse = .elements es ∧
      (withTwoOptions (brokenOption 0xD801 "y") (brokenOption 0xD800 "x")).parse = .elements es ∧
      (withTwoOptions (brokenOption 0xD800 "x") (brokenOption 0xD801 "y")).compiledForms =
        (withTwoOptions (brokenOption 0xD801 "y") (brokenOption 0xD800 "x")).compiledForms ∧
      (withTwoOptions (brokenOption 0xD800 "x") (brokenOption 0xD801 "y")).records = .ok rs ∧
      (withTwoOptions (brokenOption 0xD801 "y") (brokenOption 0xD800 "x")).records = .ok rs' ∧
      rs.map Data.ordered ≠ rs'.map Data.ordered := by
  have hc := content_withTwoOptions (brokenOption 0xD800 "x") (brokenOption 0xD801 "y")
  have hc' := content_withTwoOptions (brokenOption 0xD801 "y") (brokenOption 0xD800 "x")
  have hparse := parse_withTwoOptions_swap (o := brokenOption 0xD800 "x") (p := brokenOption 0xD801 "y")
    (by decide)
  refine ⟨_, _, _, parse_of_content hc, hparse.trans (parse_of_content hc), ?_, records_of_content hc,
    records_of_content hc', fun h ↦ ?_⟩
  · rw [compiledForms_withTwoOptions, compiledForms_withTwoOptions]
  · -- Down to the one name that both options have, where each section keeps the later of the two.
    have hservice := (Data.ordered_record_eq_iff (by decide) (by decide)).1 (List.cons.inj h).1
      "execution"
    have hexecution := (Data.ordered_record_eq_iff (by decide) (by decide)).1
      (Option.some.inj hservice) "execution_options"
    have hoptions := (Data.ordered_record_eq_iff (by decide +kernel) (by decide +kernel)).1
      (Option.some.inj hexecution) (Text.repaired (.ofList (Text.standIn 0xD800)))
    exact absurd (Data.text.inj (Option.some.inj hoptions)) (by decide)

end Section

end ModelServer
