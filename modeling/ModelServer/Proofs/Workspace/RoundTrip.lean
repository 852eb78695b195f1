import ModelServer.Proofs.Json.Denoted
import ModelServer.Proofs.Model.Declarations
import ModelServer.Proofs.Workspace.Compilation

/-!
# A section is read back from its records

What a section is posted as, the records of its elements, can stand as the elements of a section
again (`Section.ofRecords`). This says what such a section comes to. It always parses, compiles to
the services that the first section compiles to, and is posted as the same records, so nothing is
lost that an execution server is sent. It parses to the same elements exactly if no surrogate stands
alone in the name of an option, since such a name is posted repaired (`Section.records_read_back`).

The section is taken to stand for a value in which no record has a name twice, as every section of
every document does (`Document.distinct_of_mem_sections`).
-/

namespace ModelServer

open Schema

/-- The section stands for a value in which no record has a name twice, or for none. -/
def Section.Distinct (s : Section) : Prop :=
  ∀ v, s.body = .value v → v.Distinct

/-- **In the sections of a document no record has a name twice.** -/
theorem Document.distinct_of_mem_sections [Depths] {d : Document}
    {parts : List (String × SectionBody)}
    (hparts : splitSections d.text = .ok parts) {s : Section} (hs : s ∈ d.sections parts) :
    s.Distinct := by
  obtain ⟨⟨part, index⟩, hmem, rfl⟩ := List.mem_map.1 hs
  have hpart : part ∈ parts := List.fst_mem_of_mem_zipIdx hmem
  intro v hv
  rw [splitSections] at hparts
  cases hread : Json.read d.text with
  | error f =>
    rw [hread] at hparts
    dsimp only at hparts
    split at hparts
    · cases hparts
    · cases hparts
      obtain rfl := List.mem_singleton.1 hpart
      cases hv
  | ok w =>
    rw [hread] at hparts
    cases hparts
    rw [sectionsOf] at hpart
    split at hpart
    · next items hitems =>
      obtain ⟨item, hitem, rfl⟩ := List.mem_map.1 hpart
      cases hv
      have hlist := (Json.denoted_of_read hread).distinct.of_member? hitems
      exact Data.distinct_list_iff.1 hlist _ hitem
    · obtain rfl := List.mem_singleton.1 hpart
      cases hv

namespace SectionContent

theorem readable_declarations {c : SectionContent} (h : Readable reader c) :
    ∀ d ∈ c.declarations, Readable Declaration.reader d := by
  obtain ⟨ms, hd, hms⟩ := readable_record h
  obtain ⟨_, ds, h₁, hds, rfl⟩ := Checked.seq_eq_ok.1 hms
  obtain ⟨_, -, rfl⟩ := Checked.map_eq_ok.1 h₁
  exact readable_of_listField hd hds

/-- What a section holds is read back from the records of its elements, under whatever grammar. -/
theorem reader_of_records {c : SectionContent} (h : Readable reader c) (grammar : String) :
    reader (.record [("grammar", .text grammar),
      ("elements", .list (c.declarations.map fun d ↦ d.toJson.dropNulls))]) =
      .ok ⟨grammar, c.declarations.map Declaration.repaired⟩ := by
  have hds : Reads (list Declaration.reader) (.list (c.declarations.map (·.toJson)))
      (c.declarations.map Declaration.repaired) :=
    reads_list_map fun d hd ↦ Declaration.reads_toJson (readable_declarations h d hd)
  -- The records have lost their nulls already, so the list of them is read as it stands.
  have hlist : list Declaration.reader
      (.list (c.declarations.map fun d ↦ d.toJson.dropNulls)) =
      .ok (c.declarations.map Declaration.repaired) := by
    have hgives := hds.2
    rw [Data.dropNulls, Data.dropNullsList_eq_map, List.map_map] at hgives
    exact hgives
  refine Checked.seq_eq_ok.2 ⟨mk grammar, _, ?_, fieldOr_eq_ok.2 (.inl ⟨_, rfl, hlist⟩), rfl⟩
  exact Checked.map_eq_ok.2 ⟨grammar, field_eq_ok.2 ⟨_, rfl, rfl⟩, rfl⟩

end SectionContent

namespace Section

/-- The section of a document that declares elements by their records. -/
def ofRecords (document : Document) (index : Nat) (grammar : String) (records : List Json) :
    Section :=
  ⟨document, index, grammar,
    .value (.record [("grammar", .text grammar), ("elements", .list records)])⟩

variable {s : Section} {c : SectionContent}

/-- What a section holds was read. -/
theorem readable_of_content (hd : s.Distinct) (hc : s.content = .ok c) :
    Readable SectionContent.reader c := by
  rw [content] at hc
  cases hbody : s.body with
  | unreadable message =>
    rw [hbody] at hc
    cases hc
  | value v =>
    rw [hbody] at hc
    cases hread : SectionContent.reader v with
    | ok c' =>
      simp only [hread] at hc
      exact ⟨v, hd v hbody, hread.trans (congrArg Checked.ok (Except.ok.inj hc))⟩
    | bad issues =>
      simp only [hread] at hc
      cases hc

/-- The options that a section declares are dictionaries. -/
theorem nodup_of_content (hd : s.Distinct) (hc : s.content = .ok c) :
    ∀ d ∈ c.declarations, ∀ b ∈ d.bindings, (b.options.map Prod.fst).Nodup := by
  intro d hmem
  have hreadable := SectionContent.readable_declarations (readable_of_content hd hc) d hmem
  exact Declaration.nodup_of_readable hreadable

theorem records_of_content (hc : s.content = .ok c) :
    s.records = .ok (c.declarations.map fun d ↦ d.toJson.dropNulls) := by
  rw [records, hc]
  rfl

theorem forms_of_content (hc : s.content = .ok c) :
    s.forms = c.declarations.filterMap (Declaration.compiled? s.document.id) := by
  rw [forms, hc]

theorem content_ofRecords (hd : s.Distinct) (hc : s.content = .ok c) (index : Nat)
    (grammar : String) :
    (ofRecords s.document index grammar
      (c.declarations.map fun d ↦ d.toJson.dropNulls)).content =
      .ok ⟨grammar, c.declarations.map Declaration.repaired⟩ := by
  have hreader := SectionContent.reader_of_records (readable_of_content hd hc) grammar
  simp only [content, ofRecords, hreader]

/-! ### What repairing changes -/

/-- The records are those of the repaired declarations as well. -/
theorem records_repaired (ds : List Declaration) :
    ((ds.map Declaration.repaired).map fun d ↦ d.toJson.dropNulls) =
      ds.map fun d ↦ d.toJson.dropNulls := by
  rw [List.map_map]
  refine List.map_congr_left fun d _ ↦ ?_
  show d.repaired.toJson.dropNulls = d.toJson.dropNulls
  rw [d.toJson_repaired]

theorem compiled_repaired (document : String) (ds : List Declaration) :
    (ds.map Declaration.repaired).filterMap (Declaration.compiled? document) =
      ds.filterMap (Declaration.compiled? document) := by
  rw [List.filterMap_map]
  refine List.filterMap_congr fun d _ ↦ ?_
  exact d.compiled?_repaired document

/-- **Repairing changes an element exactly if the name of an option is not whole.** -/
theorem elements_repaired_iff (document : String) {ds : List Declaration}
    (hn : ∀ d ∈ ds, ∀ b ∈ d.bindings, (b.options.map Prod.fst).Nodup) :
    (ds.map Declaration.repaired).map (Declaration.toElement document) =
        ds.map (Declaration.toElement document) ↔
      ∀ e ∈ ds.map (Declaration.toElement document), ∀ b ∈ e.bindings, b.Whole := by
  constructor
  · -- If nothing changes, the elements are those of repaired declarations, and these are whole.
    intro hsame e he b hb
    rw [← hsame] at he
    obtain ⟨d', hd', rfl⟩ := List.mem_map.1 he
    obtain ⟨d, -, rfl⟩ := List.mem_map.1 hd'
    rw [Declaration.bindings_toElement, Declaration.bindings_repaired] at hb
    obtain ⟨b', hb', rfl⟩ := List.mem_map.1 hb
    obtain ⟨b, -, rfl⟩ := List.mem_map.1 hb'
    exact (Binding.whole_map _ _).2 b.whole_repaired
  · -- If the names are whole there is nothing to repair.
    intro hwhole
    have hsame : ∀ d ∈ ds, d.repaired = id d := by
      intro d hd
      refine Declaration.repaired_of_whole (hn d hd) fun b hb ↦ ?_
      have hmem : b.map (Location.mk document) ∈ (d.toElement document).bindings := by
        rw [Declaration.bindings_toElement]
        exact List.mem_map_of_mem hb
      exact (Binding.whole_map _ b).1 (hwhole _ (List.mem_map_of_mem hd) _ hmem)
    rw [List.map_congr_left hsame, List.map_id]

/-! ### The round trip -/

/-- **A section that parses is read back from its records**, wherever in its document they stand: it
compiles to the same services and is written as the same records, and parses to the same elements
exactly if every name of an option is whole. -/
theorem records_read_back {es : List Element} (hd : s.Distinct) (hp : s.parse = .elements es) :
    ∃ rs forms, s.records = .ok rs ∧ s.compiledForms = .ok forms ∧
      ∀ index, ∃ es',
        (ofRecords s.document index s.grammar rs).parse = .elements es' ∧
        (ofRecords s.document index s.grammar rs).compiledForms = .ok forms ∧
        (ofRecords s.document index s.grammar rs).records = .ok rs ∧
        (es' = es ↔ ∀ e ∈ es, ∀ b ∈ e.bindings, b.Whole) := by
  obtain ⟨c, hc, rfl⟩ := parse_eq_elements_iff.1 hp
  refine ⟨_, _, records_of_content hc, compiledForms_of_parse hp, fun index ↦ ?_⟩
  have hcontent := content_ofRecords hd hc index s.grammar
  have hparse := parse_of_content hcontent
  have hforms : (ofRecords s.document index s.grammar
      (c.declarations.map fun d ↦ d.toJson.dropNulls)).forms = s.forms := by
    rw [forms_of_content hcontent, forms_of_content hc]
    exact compiled_repaired s.document.id c.declarations
  refine ⟨_, hparse, ?_, ?_, elements_repaired_iff s.document.id (nodup_of_content hd hc)⟩
  · rw [compiledForms_of_parse hparse, hforms]
  · rw [records_of_content hcontent, records_repaired]

/-- The declaration of a service that runs with one option of that name. -/
def oneOption (name : String) : Declaration :=
  .service ⟨"m::S", none, [], []⟩
    ⟨"", "", some (.single none ⟨none, none, none, [(name, "x")]⟩), [], none⟩ []

/-- A section that declares `oneOption` and nothing else, as one would write it. -/
def withOption (name : String) : Section :=
  ⟨⟨"file:///model.json", "", 0, 0⟩, 0, "Service", .value (.record
    [("grammar", .text "Service"), ("elements", .list [.record
      [("kind", .text "service"), ("path", .text "m::S"), ("execution", .record
        [("kind", .text "single"), ("execution_options", .record [(name, .text "x")])])]])])⟩

theorem content_withOption (name : String) :
    (withOption name).content = .ok ⟨"Service", [oneOption name]⟩ :=
  rfl

theorem distinct_withOption (name : String) : (withOption name).Distinct := by
  intro v hv
  cases hv
  simp [Data.distinct_record_iff, Data.distinct_list_iff, Data.Distinct.text]

theorem whole_oneOption_iff (document name : String) :
    (∀ e ∈ [oneOption name].map (Declaration.toElement document), ∀ b ∈ e.bindings, b.Whole) ↔
      Text.isWhole name = true := by
  have hbindings : (oneOption name).bindings = [⟨none, none, none, [(name, "x")]⟩] := rfl
  simp only [List.map_singleton, List.mem_singleton, forall_eq, Declaration.bindings_toElement,
    hbindings, Binding.whole_map]
  simp [Binding.Whole]

theorem option_read_back : ∃ es rs,
    (withOption "timeout").parse = .elements es ∧ (withOption "timeout").records = .ok rs ∧
      (ofRecords (withOption "timeout").document 0 "Service" rs).parse = .elements es := by
  have hparse := parse_of_content (content_withOption "timeout")
  obtain ⟨rs, forms, hrs, -, hback⟩ := records_read_back (distinct_withOption "timeout") hparse
  obtain ⟨es', hes', -, -, hsame⟩ := hback 0
  have hwhole := (whole_oneOption_iff "file:///model.json" "timeout").2 (by decide)
  exact ⟨_, rs, hparse, hrs, hsame.2 hwhole ▸ hes'⟩

/-- **A name that is not whole is not read back.** -/
theorem broken_option_not_read_back : ∃ es rs,
    (withOption (.ofList (Text.standIn 0xD800))).Distinct ∧
      (withOption (.ofList (Text.standIn 0xD800))).parse = .elements es ∧
      (withOption (.ofList (Text.standIn 0xD800))).records = .ok rs ∧
      (ofRecords (withOption (.ofList (Text.standIn 0xD800))).document 0 "Service" rs).parse ≠
        .elements es := by
  have hd := distinct_withOption (.ofList (Text.standIn 0xD800))
  have hc := content_withOption (.ofList (Text.standIn 0xD800))
  refine ⟨_, _, hd, parse_of_content hc, records_of_content hc, fun hsame ↦ ?_⟩
  have hparse := parse_of_content (content_ofRecords hd hc 0 "Service")
  have helements := Parsed.elements.inj (hparse.symm.trans hsame)
  have hwhole := (elements_repaired_iff _ (nodup_of_content hd hc)).1 helements
  exact absurd ((whole_oneOption_iff _ _).1 hwhole) (by decide)

end Section

end ModelServer
