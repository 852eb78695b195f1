import ModelServer.Proofs.Model.Edits
import ModelServer.Proofs.Server.Execution
import ModelServer.Proofs.Workspace.Parsing
import ModelServer.Proofs.Workspace.RoundTrip

/-!
# Edited sections parse alike

What a schema does not see is not seen by parsing either. Whatever bodies are made of each other by edits, in
any number and one way or the other (`EqvGen`), they are all refused or all parse, and those that parse give
the same elements and the same compiled forms (`Section.parse_of_edits`). So nobody has to care in which
order members are written, and members of later versions of the schema are passed over.

Nothing is said of why a body is refused: the issues are told in the order of what a record declares, but
where a kind is not known the tag is told as it is written.
-/

namespace ModelServer

open Schema Vocabulary RecordKind

variable {v v' : Json}

/-- The grammar that a body names is not edited. -/
theorem grammarOf_of_edit (h : vocabulary.Edit (.record .content) v v') : grammarOf v = grammarOf v' := by
  obtain ⟨ms, ms', rfl, rfl⟩ | ⟨vs, vs', rfl, rfl, -⟩ := h.cases
  · have hgrammar := h.bind_text? "grammar" fun k hk ↦ by
      cases hk
      decide
    exact congrArg (·.getD "") hgrammar
  · rfl

/-- Bodies that are edited into each other hold the same, but for the order of options. -/
theorem content_of_edits (h : Relation.EqvGen (vocabulary.Edit (.record .content)) v v') :
    grammarOf v = grammarOf v' ∧ (SectionContent.reader v).value?.map SectionContent.ordered =
      (SectionContent.reader v').value?.map SectionContent.ordered := by
  -- The induction is on how the edits are put together.
  induction h with
  | rel v v' h => exact ⟨grammarOf_of_edit h, SectionContent.respects_reader v v' h⟩
  | refl => exact ⟨rfl, rfl⟩
  | symm _ _ _ ih => exact ⟨ih.1.symm, ih.2.symm⟩
  | trans _ _ _ _ _ ih ih' => exact ⟨ih.1.trans ih'.1, ih.2.trans ih'.2⟩

/-- Declarations that are the same but for the order of options declare the same elements. -/
theorem map_toElement_of_ordered {ds ds' : List Declaration} (document : String)
    (h : ds.map Declaration.ordered = ds'.map Declaration.ordered) :
    ds.map (Declaration.toElement document) = ds'.map (Declaration.toElement document) ∧
      ds.filterMap (Declaration.compiled? document) = ds'.filterMap (Declaration.compiled? document) := by
  have helements (ds : List Declaration) : (ds.map Declaration.ordered).map (Declaration.toElement document) =
      ds.map (Declaration.toElement document) := by
    rw [List.map_map]
    exact List.map_congr_left fun d _ ↦ d.toElement_ordered document
  have hforms (ds : List Declaration) :
      (ds.map Declaration.ordered).filterMap (Declaration.compiled? document) =
        ds.filterMap (Declaration.compiled? document) := by
    rw [List.filterMap_map]
    exact List.filterMap_congr fun d _ ↦ d.compiled?_ordered document
  rw [← helements ds, h, helements, ← hforms ds, h, hforms]
  exact ⟨rfl, rfl⟩

/-- A section whose body is refused does not parse. -/
theorem Section.parse_of_refused {s : Section} (hs : s.body = .value v)
    (h : (SectionContent.reader v).value? = none) : ∃ f, s.parse = .faulty f := by
  cases hes : s.parse with
  | faulty f => exact ⟨f, rfl⟩
  | elements es =>
    obtain ⟨c, hc, -⟩ := parse_eq_elements_iff.1 hes
    obtain ⟨w, hw, hread⟩ := content_eq_ok_iff.1 hc
    obtain rfl : v = w := SectionBody.value.inj (hs.symm.trans hw)
    cases h.symm.trans (Checked.value?_eq_some_iff.2 hread)

/-- **Members that a schema does not declare and the order of members count for nothing.** Two sections of
one document whose bodies are edited into each other name the same grammar and are both refused, or both
parse to the same elements and have the same compiled forms; and then the options of every binding stand in
the order of their names. -/
theorem Section.parse_of_edits {s s' : Section} (hs : s.body = .value v) (hs' : s'.body = .value v')
    (hid : s.document.id = s'.document.id)
    (h : Relation.EqvGen (vocabulary.Edit (.record .content)) v v') :
    grammarOf v = grammarOf v' ∧
      ((∃ f f', s.parse = .faulty f ∧ s'.parse = .faulty f') ∨
        ∃ es forms, s.parse = .elements es ∧ s'.parse = .elements es ∧
          s.compiledForms = .ok forms ∧ s'.compiledForms = .ok forms ∧
          ∀ e ∈ es, ∀ service, e.service? = some service → ∀ x, service.execution = some x →
            ∀ b ∈ x.bindings, b.options.Pairwise fun o o' ↦ Text.inOrder o.1 o'.1 = true) := by
  obtain ⟨hgrammar, hcontent⟩ := content_of_edits h
  refine ⟨hgrammar, ?_⟩
  cases hc : (SectionContent.reader v).value? with
  | none =>
    rw [hc, Option.map_none, eq_comm, Option.map_eq_none_iff] at hcontent
    obtain ⟨f, hf⟩ := parse_of_refused hs hc
    obtain ⟨f', hf'⟩ := parse_of_refused hs' hcontent
    exact .inl ⟨f, f', hf, hf'⟩
  | some c =>
    rw [hc, Option.map_some, eq_comm, Option.map_eq_some_iff] at hcontent
    obtain ⟨c', hc', hordered⟩ := hcontent
    have hcontent : s.content = .ok c :=
      content_eq_ok_iff.2 ⟨v, hs, Checked.value?_eq_some_iff.1 hc⟩
    have hcontent' : s'.content = .ok c' :=
      content_eq_ok_iff.2 ⟨v', hs', Checked.value?_eq_some_iff.1 hc'⟩
    obtain ⟨-, hds⟩ := SectionContent.mk.inj hordered
    obtain ⟨helements, hforms⟩ := map_toElement_of_ordered s.document.id hds
    have hp := parse_of_content hcontent
    have hp' := parse_of_content hcontent'
    rw [← hid, helements] at hp'
    have hfs := compiledForms_of_parse hp
    have hfs' := compiledForms_of_parse hp'
    rw [forms_of_content hcontent', ← hid, hforms, ← forms_of_content hcontent] at hfs'
    refine .inr ⟨_, _, hp, hp', hfs, hfs', fun e he service hservice x hx b hb ↦ ?_⟩
    have hmem : e ∈ s.parse.toList := by
      rw [hp]
      exact he
    exact pairwise_options hmem hservice hx hb

/-! ### A service with two options -/

/-- A body that declares a service which runs as those members say. -/
def runningAs (ms : Members) : Json :=
  .record [("grammar", .text "Service"), ("elements", .list [.record
    [("kind", .text "service"), ("path", .text "m::S"), ("execution", .record ms)]])]

/-- The execution of a service is edited where it stands. -/
theorem edit_runningAs {ms ms' : Members}
    (h : vocabulary.Edit (.union [("single", .single), ("multi", .multi)]) (.record ms) (.record ms')) :
    vocabulary.Edit (.record .content) (runningAs ms) (runningAs ms') := by
  let service (ms : Members) : Json :=
    .record [("kind", .text "service"), ("path", .text "m::S"), ("execution", .record ms)]
  have hservice : vocabulary.Edit (.union elements) (service ms) (service ms') :=
    @Edit.member _ _ _ [("kind", .text "service"), ("path", .text "m::S")] [] "execution" _ _ h
  have hlist : vocabulary.Edit (.list (.union elements)) (.list [service ms]) (.list [service ms']) :=
    @Edit.item _ _ _ [] [] _ _ hservice
  exact @Edit.member _ _ _ [("grammar", .text "Service")] [] "elements" _ _ hlist

namespace Section

/-- A section with that body and nothing else. -/
def running (ms : Members) : Section :=
  ⟨⟨"file:///model.json", "", 0, 0⟩, 0, "Service", .value (runningAs ms)⟩

/-- An execution with these options. -/
def withOptions (options : Members) : Members :=
  [("kind", .text "single"), ("execution_options", .record options)]

/-- **Options in another order, and a member that is not declared.** -/
theorem parse_of_reordered_options : ∃ es, es ≠ [] ∧
    (running (withOptions [("b", .text "1"), ("a", .text "2")])).parse = .elements es ∧
    (running (withOptions [("a", .text "2"), ("b", .text "1")] ++ [("note", .null)])).parse =
      .elements es := by
  let options : Members := [("b", .text "1"), ("a", .text "2")]
  let options' : Members := [("a", .text "2"), ("b", .text "1")]
  have hpermute : vocabulary.Edit (.record .content) (runningAs (withOptions options))
      (runningAs (withOptions options')) :=
    edit_runningAs (@Edit.member _ _ _ [("kind", .text "single")] [] "execution_options" _ _
      (.permute (by decide) (.swap _ _ _)))
  have hadd : vocabulary.Edit (.record .content) (runningAs (withOptions options'))
      (runningAs (withOptions options' ++ [("note", .null)])) :=
    edit_runningAs (@Edit.add _ _ _ (withOptions options') [] .single "note" .null rfl (by decide))
  have hparse := parse_of_content (s := running (withOptions options)) rfl
  obtain ⟨-, ⟨f, -, hf, -⟩ | ⟨es, -, hes, hes', -⟩⟩ :=
    @parse_of_edits _ _ (running (withOptions options))
      (running (withOptions options' ++ [("note", .null)])) rfl rfl rfl
      (.trans _ _ _ (.rel _ _ hpermute) (.rel _ _ hadd))
  · cases hparse.symm.trans hf
  · have helements := Parsed.elements.inj (hparse.symm.trans hes)
    exact ⟨es, helements ▸ List.cons_ne_nil _ _, hes, hes'⟩

end Section

end ModelServer
