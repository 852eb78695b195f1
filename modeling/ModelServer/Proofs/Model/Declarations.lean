import ModelServer.Model.Declaration
import ModelServer.Proofs.Model.Options

/-!
# Declarations are read back

A declaration that was read is read back as its repaired form (`Declaration.reads_toJson`), which
differs from it in the names of options only. What holds of one declaration holds of all that a
section declares, and its name of a grammar is a text like any other
(`SectionContent.reader_of_records`).

What compiling takes of a service knows nothing of options, so repairing does not change it
(`Declaration.compiled?_repaired`).
-/

namespace ModelServer

open Schema

/-- What a service may run against. -/
def Service.bindings {σ : Type} (s : Service σ) : List (Binding σ) :=
  s.execution.toList.flatMap Execution.bindings

/-- What the element may run against, if it is a service. -/
def Element.bindings (e : Element) : List (Binding Location) :=
  e.service?.toList.flatMap Service.bindings

namespace Declaration

/-- What the declared element may run against, if it is a service. -/
def bindings : Declaration → List (Binding Interval)
  | service _ s _ => s.bindings
  | _ => []

theorem bindings_toElement (document : String) (d : Declaration) :
    (d.toElement document).bindings = d.bindings.map (·.map (Location.mk document)) := by
  cases d with
  | service h s vs =>
    obtain ⟨pattern, documentation, execution, suites, legacyTest⟩ := s
    cases execution with
    | none => rfl
    | some e =>
      show [_].flatMap _ = ([e].flatMap Execution.bindings).map _
      simp only [Service.map, Service.bindings, Option.map_some, Option.toList_some,
        List.flatMap_singleton, Execution.bindings_map]
  | _ => rfl

/-- The declaration as it is once it was written. -/
def repaired : Declaration → Declaration
  | service h s vs => service h { s with execution := s.execution.map Execution.repaired } vs
  | d => d

theorem bindings_repaired (d : Declaration) :
    d.repaired.bindings = d.bindings.map Binding.repaired := by
  cases d with
  | service h s vs =>
    obtain ⟨pattern, documentation, execution, suites, legacyTest⟩ := s
    cases execution with
    | none => rfl
    | some e => simp only [repaired, bindings, Service.bindings, Option.map_some,
        Option.toList_some, List.flatMap_singleton, Execution.bindings_repaired]
  | _ => rfl

theorem repaired_of_whole {d : Declaration}
    (hn : ∀ b ∈ d.bindings, (b.options.map Prod.fst).Nodup) (hw : ∀ b ∈ d.bindings, b.Whole) :
    d.repaired = d := by
  cases d with
  | service h s vs =>
    obtain ⟨pattern, documentation, execution, suites, legacyTest⟩ := s
    cases execution with
    | none => rfl
    | some e =>
      have hmem : ∀ b ∈ e.bindings, b ∈ [e].flatMap Execution.bindings :=
        fun b hb ↦ List.mem_flatMap.2 ⟨e, List.mem_singleton_self e, hb⟩
      have he : e.repaired = e :=
        Execution.repaired_of_whole (fun b hb ↦ hn b (hmem b hb)) fun b hb ↦ hw b (hmem b hb)
      rw [repaired, Option.map_some, he]
  | _ => rfl

theorem toJson_repaired (d : Declaration) : d.repaired.toJson = d.toJson := by
  cases d with
  | service h s vs =>
    obtain ⟨pattern, documentation, execution, suites, legacyTest⟩ := s
    cases execution with
    | none => rfl
    | some e => simp only [repaired, toJson, header, bodyMembers, Option.map_some,
        Execution.toJson_repaired]
  | _ => rfl

theorem compiled?_repaired (document : String) (d : Declaration) :
    d.repaired.compiled? document = d.compiled? document := by
  cases d with
  | service h s vs =>
    obtain ⟨pattern, documentation, execution, suites, legacyTest⟩ := s
    cases execution with
    | none => rfl
    | some e => simp only [repaired, compiled?, Option.map_some, Option.bind_some,
        Execution.func_repaired]
  | _ => rfl

/-! ### What a declaration that was read is made of -/

/-- What the declaration declares, as it is named where it is written down. -/
def kindName : Declaration → String
  | service _ _ _ => "service"
  | mapping _ => "mapping"
  | runtime _ _ => "runtime"
  | profile _ _ => "profile"
  | function _ _ => "function"

/-- Each part of the declaration was read from its field among the members. -/
inductive ReadFrom (ms : Members) : Declaration → Prop
  | service {h : Header Interval} {s : Service Interval} {vs : List (PostValidation Interval)}
      (header : Header.fields ms = .ok h)
      (execution : fieldOr "execution" (nullable Execution.reader) none ms = .ok s.execution)
      (suites : suitesField ms = .ok s.suites)
      (legacyTest : fieldOr "legacy_test" (nullable LegacyTest.reader) none ms = .ok s.legacyTest)
      (conditions : fieldOr "post_validations" (list PostValidation.reader) [] ms = .ok vs) :
      ReadFrom ms (.service h s vs)
  | mapping {h : Header Interval} (header : Header.fields ms = .ok h) : ReadFrom ms (.mapping h)
  | runtime {h : Header Interval} {r : EngineRuntime Interval} (header : Header.fields ms = .ok h)
      (runtime : EngineRuntime.fields ms = .ok r) : ReadFrom ms (.runtime h r)
  | profile {h : Header Interval} {p : Profile Interval} (header : Header.fields ms = .ok h)
      (stereotypes : fieldOr "stereotype_entries" (list ProfileEntry.reader) [] ms =
        .ok p.stereotypes)
      (tags : fieldOr "tag_entries" (list ProfileEntry.reader) [] ms = .ok p.tags) :
      ReadFrom ms (.profile h p)
  | function {h : Header Interval} {f : Function Interval} (header : Header.fields ms = .ok h)
      (func : Execution.funcField ms = .ok f.func) (suites : suitesField ms = .ok f.suites) :
      ReadFrom ms (.function h f)

theorem ReadFrom.fields {ms : Members} {d : Declaration} (h : d.ReadFrom ms) :
    Header.fields ms = .ok d.header := by
  cases h <;> assumption

theorem of_serviceReader {v : Json} {d : Declaration} (h : serviceReader v = .ok d) :
    ∃ ms, v = .record ms ∧ d.kindName = "service" ∧ d.ReadFrom ms := by
  obtain ⟨ms, rfl, hms⟩ := record_eq_ok.1 h
  obtain ⟨_, vs, h₂, hvs, rfl⟩ := Checked.seq_eq_ok.1 hms
  obtain ⟨_, s, h₁, hs, rfl⟩ := Checked.seq_eq_ok.1 h₂
  obtain ⟨header, hheader, rfl⟩ := Checked.map_eq_ok.1 h₁
  -- The fields of a service alone, from the last to the first.
  obtain ⟨_, legacyTest, hb₅, hlegacy, rfl⟩ := Checked.seq_eq_ok.1 hs
  obtain ⟨_, suites, hb₄, hsuites, rfl⟩ := Checked.seq_eq_ok.1 hb₅
  obtain ⟨_, execution, hb₃, hexecution, rfl⟩ := Checked.seq_eq_ok.1 hb₄
  obtain ⟨_, _, hb₂, -, rfl⟩ := Checked.seq_eq_ok.1 hb₃
  obtain ⟨_, _, hb₁, -, rfl⟩ := Checked.seq_eq_ok.1 hb₂
  obtain ⟨_, -, rfl⟩ := Checked.map_eq_ok.1 hb₁
  exact ⟨ms, rfl, rfl, .service hheader hexecution hsuites hlegacy hvs⟩

theorem of_mappingReader {v : Json} {d : Declaration} (h : mappingReader v = .ok d) :
    ∃ ms, v = .record ms ∧ d.kindName = "mapping" ∧ d.ReadFrom ms := by
  obtain ⟨ms, rfl, hms⟩ := record_eq_ok.1 h
  obtain ⟨_, _, h₁, -, rfl⟩ := Checked.seq_eq_ok.1 hms
  obtain ⟨header, hheader, rfl⟩ := Checked.map_eq_ok.1 h₁
  exact ⟨ms, rfl, rfl, .mapping hheader⟩

theorem of_runtimeReader {v : Json} {d : Declaration} (h : runtimeReader v = .ok d) :
    ∃ ms, v = .record ms ∧ d.kindName = "runtime" ∧ d.ReadFrom ms := by
  obtain ⟨ms, rfl, hms⟩ := record_eq_ok.1 h
  obtain ⟨_, r, h₂, hr, rfl⟩ := Checked.seq_eq_ok.1 hms
  obtain ⟨_, _, h₁, -, rfl⟩ := Checked.seq_eq_ok.1 h₂
  obtain ⟨header, hheader, rfl⟩ := Checked.map_eq_ok.1 h₁
  exact ⟨ms, rfl, rfl, .runtime hheader hr⟩

theorem of_profileReader {v : Json} {d : Declaration} (h : profileReader v = .ok d) :
    ∃ ms, v = .record ms ∧ d.kindName = "profile" ∧ d.ReadFrom ms := by
  obtain ⟨ms, rfl, hms⟩ := record_eq_ok.1 h
  obtain ⟨_, p, h₁, hp, rfl⟩ := Checked.seq_eq_ok.1 hms
  obtain ⟨header, hheader, rfl⟩ := Checked.map_eq_ok.1 h₁
  obtain ⟨_, tags, hb₂, htags, rfl⟩ := Checked.seq_eq_ok.1 hp
  obtain ⟨_, stereotypes, hb₁, hstereotypes, rfl⟩ := Checked.seq_eq_ok.1 hb₂
  obtain ⟨_, -, rfl⟩ := Checked.map_eq_ok.1 hb₁
  exact ⟨ms, rfl, rfl, .profile hheader hstereotypes htags⟩

theorem of_functionReader {v : Json} {d : Declaration} (h : functionReader v = .ok d) :
    ∃ ms, v = .record ms ∧ d.kindName = "function" ∧ d.ReadFrom ms := by
  obtain ⟨ms, rfl, hms⟩ := record_eq_ok.1 h
  obtain ⟨_, f, h₁, hf, rfl⟩ := Checked.seq_eq_ok.1 hms
  obtain ⟨header, hheader, rfl⟩ := Checked.map_eq_ok.1 h₁
  obtain ⟨_, suites, hb₂, hsuites, rfl⟩ := Checked.seq_eq_ok.1 hf
  obtain ⟨_, func, hb₁, hfunc, rfl⟩ := Checked.seq_eq_ok.1 hb₂
  obtain ⟨_, -, rfl⟩ := Checked.map_eq_ok.1 hb₁
  exact ⟨ms, rfl, rfl, .function hheader hfunc hsuites⟩

/-- **What was read is of the kind that its record names**, and each part was read from its field. -/
theorem of_reader {v : Json} {d : Declaration} (h : reader v = .ok d) :
    ∃ ms, v = .record ms ∧ Data.lookup "kind" ms = some (.text d.kindName) ∧ d.ReadFrom ms := by
  obtain ⟨ms, tag, read, rfl, htag, hfind, hread⟩ := union_eq_ok.1 h
  have hcase := List.mem_of_find?_eq_some hfind
  simp only [List.mem_cons, List.not_mem_nil, or_false, Prod.mk.injEq] at hcase
  suffices hparts : ∃ ms', Data.record ms = .record ms' ∧ d.kindName = tag ∧ d.ReadFrom ms' by
    obtain ⟨_, heq, rfl, hfrom⟩ := hparts
    cases heq
    exact ⟨ms, rfl, htag, hfrom⟩
  rcases hcase with ⟨rfl, rfl⟩ | ⟨rfl, rfl⟩ | ⟨rfl, rfl⟩ | ⟨rfl, rfl⟩ | ⟨rfl, rfl⟩
  · exact of_serviceReader hread
  · exact of_mappingReader hread
  · exact of_runtimeReader hread
  · exact of_profileReader hread
  · exact of_functionReader hread

/-- The parts of a declaration that may not be read back whatever they hold were read. -/
def PartsReadable : Declaration → Prop
  | service _ s vs =>
    (∀ e ∈ s.execution, Readable Execution.reader e) ∧ ∀ v ∈ vs, Readable PostValidation.reader v
  | function _ f => ∀ l ∈ f.func, Readable Lambda.reader l
  | _ => True

theorem partsReadable {d : Declaration} (h : Readable reader d) : d.PartsReadable := by
  obtain ⟨v, hd, hread⟩ := h
  obtain ⟨ms, rfl, -, hfrom⟩ := of_reader hread
  cases hfrom with
  | service _ execution _ _ conditions =>
    exact ⟨readable_of_optionField hd execution, readable_of_listField hd conditions⟩
  | function _ func _ => exact readable_of_optionField hd func
  | mapping | runtime | profile => trivial

/-- The options of a declaration that was read are dictionaries. -/
theorem nodup_of_readable {d : Declaration} (h : Readable reader d) :
    ∀ b ∈ d.bindings, (b.options.map Prod.fst).Nodup := by
  have hparts := partsReadable h
  cases d with
  | service header s vs =>
    intro b hb
    obtain ⟨e, he, hb⟩ := List.mem_flatMap.1 hb
    exact (Execution.parts_of_readable (hparts.1 e (Option.mem_toList.1 he))).2 b hb
  | _ => exact fun _ hb ↦ absurd hb List.not_mem_nil

/-! ### Each kind is read back -/

/-- The header of a declaration is read back, whatever members follow those of the header. -/
theorem header_gives {d : Declaration} {kept : Members}
    (hk : Kept (d.header.members ++ d.bodyMembers) kept)
    (hn : ((d.header.members ++ d.bodyMembers).map Prod.fst).Nodup) :
    (Header.fields kept).Gives d.header :=
  Header.fields_gives (hk.of_sublist hn (List.sublist_append_left _ _))

theorem lookup_execution (header : Header Interval) (s : Service Interval)
    (vs : List (PostValidation Interval)) :
    Data.lookup "execution" (header.members ++ (service header s vs).bodyMembers) =
      some (s.execution.elim .null (·.toJson)) := by
  rw [bodyMembers]
  cases s.execution <;> rfl

theorem lookup_legacyTest (header : Header Interval) (s : Service Interval)
    (vs : List (PostValidation Interval)) :
    Data.lookup "legacy_test" (header.members ++ (service header s vs).bodyMembers) =
      some (s.legacyTest.elim .null (·.toJson)) := by
  rw [bodyMembers]
  cases s.legacyTest <;> rfl

theorem reads_service (header : Header Interval) {s : Service Interval}
    {vs : List (PostValidation Interval)} (hs : ∀ e ∈ s.execution, Readable Execution.reader e)
    (hvs : ∀ v ∈ vs, Readable PostValidation.reader v) :
    Reads reader (service header s vs).toJson (service header s vs).repaired := by
  have hn : List.Nodup ["path", "source", "stereotypes", "tagged_values", "kind", "pattern",
      "documentation", "execution", "test_suites", "legacy_test", "post_validations"] := by decide
  refine reads_union hn rfl rfl (reads_record hn fun ms hk ↦ ?_)
  have hheader : (Header.fields ms).Gives header := header_gives hk hn
  have hkind : (kind "service" ms).Gives "service" := hk.kind rfl
  have hpattern : (fieldOr "pattern" text "" ms).Gives s.pattern :=
    hk.fieldOr rfl (reads_text s.pattern)
  have hdocumentation : (fieldOr "documentation" text "" ms).Gives s.documentation :=
    hk.fieldOr rfl (reads_text s.documentation)
  have hexecution : (fieldOr "execution" (nullable Execution.reader) none ms).Gives
      (s.execution.map Execution.repaired) :=
    hk.option (lookup_execution header s vs)
      (readsOption_map fun e he ↦ Execution.reads_toJson (hs e he))
  have hsuites : (suitesField ms).Gives s.suites := hk.fieldOr rfl (reads_suites s.suites)
  have hlegacy : (fieldOr "legacy_test" (nullable LegacyTest.reader) none ms).Gives s.legacyTest :=
    hk.option (lookup_legacyTest header s vs) (readsOption_self fun t _ ↦ t.reads_toJson)
  have hvalidations : (fieldOr "post_validations" (list PostValidation.reader) [] ms).Gives vs :=
    hk.fieldOr rfl (reads_list_self fun v hv ↦ PostValidation.reads_toJson (hvs v hv))
  have hbody := (((((hkind.map fun _ ↦ Service.mk).seq hpattern).seq hdocumentation).seq
    hexecution).seq hsuites).seq hlegacy
  exact ((hheader.map service).seq hbody).seq hvalidations

theorem reads_mapping (header : Header Interval) :
    Reads reader (mapping header).toJson (mapping header) := by
  have hn : List.Nodup ["path", "source", "stereotypes", "tagged_values", "kind"] := by decide
  refine reads_union hn rfl rfl (reads_record hn fun ms hk ↦ ?_)
  have hheader : (Header.fields ms).Gives header := header_gives hk hn
  exact (hheader.map fun h _ ↦ mapping h).seq (hk.kind rfl)

theorem reads_runtime (header : Header Interval) (r : EngineRuntime Interval) :
    Reads reader (runtime header r).toJson (runtime header r) := by
  have hn : List.Nodup
      ["path", "source", "stereotypes", "tagged_values", "kind", "mappings", "connections"] := by
    decide
  refine reads_union hn rfl rfl (reads_record hn fun ms hk ↦ ?_)
  have hheader : (Header.fields ms).Gives header := header_gives hk hn
  have hkind : (kind "runtime" ms).Gives "runtime" := hk.kind rfl
  have hsub : r.members.Sublist (header.members ++ (runtime header r).bodyMembers) :=
    (List.sublist_cons_self _ _).trans (List.sublist_append_right _ _)
  have hruntime : (EngineRuntime.fields ms).Gives r :=
    EngineRuntime.fields_gives (hk.of_sublist hn hsub)
  exact ((hheader.map fun h _ ↦ runtime h).seq hkind).seq hruntime

theorem reads_profile (header : Header Interval) (p : Profile Interval) :
    Reads reader (profile header p).toJson (profile header p) := by
  have hn : List.Nodup ["path", "source", "stereotypes", "tagged_values", "kind",
      "stereotype_entries", "tag_entries"] := by decide
  refine reads_union hn rfl rfl (reads_record hn fun ms hk ↦ ?_)
  have hheader : (Header.fields ms).Gives header := header_gives hk hn
  have hkind : (kind "profile" ms).Gives "profile" := hk.kind rfl
  have hstereotypes : (fieldOr "stereotype_entries" (list ProfileEntry.reader) [] ms).Gives
      p.stereotypes := hk.fieldOr rfl (reads_entries p.stereotypes)
  have htags : (fieldOr "tag_entries" (list ProfileEntry.reader) [] ms).Gives p.tags :=
    hk.fieldOr rfl (reads_entries p.tags)
  have hbody := ((hkind.map fun _ ↦ Profile.mk).seq hstereotypes).seq htags
  exact (hheader.map profile).seq hbody

theorem reads_function (header : Header Interval) {f : Function Interval}
    (hf : ∀ l ∈ f.func, Readable Lambda.reader l) :
    Reads reader (function header f).toJson (function header f) := by
  have hn : List.Nodup
      ["path", "source", "stereotypes", "tagged_values", "kind", "func", "test_suites"] := by
    decide
  refine reads_union hn rfl rfl (reads_record hn fun ms hk ↦ ?_)
  have hheader : (Header.fields ms).Gives header := header_gives hk hn
  have hkind : (kind "function" ms).Gives "function" := hk.kind rfl
  have hfunc : (Execution.funcField ms).Gives f.func := hk.option rfl (readsOption_lambda hf)
  have hsuites : (suitesField ms).Gives f.suites := hk.fieldOr rfl (reads_suites f.suites)
  have hbody := ((hkind.map fun _ ↦ Function.mk).seq hfunc).seq hsuites
  exact (hheader.map function).seq hbody

/-- **A declaration that was read is read back as its repaired form.** -/
theorem reads_toJson {d : Declaration} (h : Readable reader d) : Reads reader d.toJson d.repaired := by
  have hparts := partsReadable h
  cases d with
  | service header s vs => exact reads_service header hparts.1 hparts.2
  | mapping header => exact reads_mapping header
  | runtime header r => exact reads_runtime header r
  | profile header p => exact reads_profile header p
  | function header f => exact reads_function header hparts

end Declaration

end ModelServer
