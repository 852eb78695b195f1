import ModelServer.Proofs.Model.Ordered
import ModelServer.Proofs.Schema.Edits

/-!
# Edits of a section

`RecordKind` lists the kinds of records that a section is made of, and `vocabulary` what each of them
declares. Every reader respects the edits of its kind, from spans up to the section, and nothing is forgotten
on the way but the order in which bindings list their options (`SectionContent.respects_reader`). Expressions
are records inside records of the same kind; for them the induction is on how deep they may nest.
-/

namespace ModelServer

open Schema Vocabulary

/-- The kinds of records in a section. -/
inductive RecordKind where
  | span
  | stereotype
  | taggedValue
  | pointer
  | expression
  | lambda
  | runtimePointer
  | engineRuntime
  | variant
  | single
  | multi
  | testCase
  | testSuite
  | legacyTest
  | profileEntry
  | assertion
  | postValidation
  | service
  | mapping
  | runtime
  | profile
  | function
  | content
  deriving DecidableEq

namespace RecordKind

/-- What every element declares. -/
def headerFields : List (String × Shape RecordKind) :=
  [("path", .plain), ("source", .record span), ("stereotypes", .list (.record stereotype)),
    ("tagged_values", .list (.record taggedValue))]

/-- What a binding declares, in whatever it stands. -/
def bindingFields : List (String × Shape RecordKind) :=
  [("mapping", .plain), ("mapping_source", .record span),
    ("runtime", .union [("pointer", runtimePointer), ("engine", engineRuntime)]),
    ("execution_options", .plain)]

/-- What a runtime is made of. -/
def runtimeFields : List (String × Shape RecordKind) :=
  [("mappings", .list (.record pointer)), ("connections", .list (.record pointer))]

/-- The kinds of elements, by their names. -/
def elements : List (String × RecordKind) :=
  [("service", service), ("mapping", mapping), ("runtime", runtime), ("profile", profile),
    ("function", function)]

/-- What a kind of record declares. -/
def fields : RecordKind → List (String × Shape RecordKind)
  | span => [("start", .plain), ("end", .plain)]
  | stereotype => [("profile", .plain), ("value", .plain), ("source", .record span)]
  | taggedValue =>
    [("profile", .plain), ("tag", .plain), ("value", .plain), ("source", .record span)]
  | pointer => [("path", .plain), ("source", .record span)]
  | expression =>
    [("kind", .plain), ("source", .record span), ("reference", .plain),
      ("children", .list (.record expression))]
  | lambda =>
    [("parameters", .list .plain), ("body", .list (.record expression)), ("source", .record span)]
  | runtimePointer => [("kind", .plain), ("path", .plain), ("source", .record span)]
  | engineRuntime => runtimeFields ++ [("kind", .plain)]
  | variant => bindingFields ++ [("key", .plain), ("source", .record span)]
  | single => bindingFields ++ [("kind", .plain), ("func", .record lambda)]
  | multi =>
    [("kind", .plain), ("func", .record lambda), ("execution_key", .plain),
      ("execution_parameters", .list (.record variant))]
  | testCase => [("id", .plain), ("source", .record span)]
  | testSuite => [("id", .plain), ("tests", .list (.record testCase)), ("source", .record span)]
  | legacyTest => [("data", .plain), ("source", .record span)]
  | profileEntry => [("name", .plain), ("source", .record span)]
  | assertion => [("id", .plain), ("assertion", .record expression)]
  | postValidation =>
    [("description", .plain), ("parameters", .list (.record expression)),
      ("assertions", .list (.record assertion))]
  | service =>
    headerFields ++
      [("kind", .plain), ("pattern", .plain), ("documentation", .plain),
        ("execution", .union [("single", single), ("multi", multi)]),
        ("test_suites", .list (.record testSuite)), ("legacy_test", .record legacyTest),
        ("post_validations", .list (.record postValidation))]
  | mapping => headerFields ++ [("kind", .plain)]
  | runtime => headerFields ++ ("kind", .plain) :: runtimeFields
  | profile =>
    headerFields ++
      [("kind", .plain), ("stereotype_entries", .list (.record profileEntry)),
        ("tag_entries", .list (.record profileEntry))]
  | function =>
    headerFields ++
      [("kind", .plain), ("func", .record lambda), ("test_suites", .list (.record testSuite))]
  | content => [("grammar", .plain), ("elements", .list (.union elements))]

/-- What the records of a section declare. -/
def vocabulary : Vocabulary RecordKind where
  fields := fields
  nodup k := by cases k <;> decide

end RecordKind

open RecordKind (vocabulary headerFields bindingFields runtimeFields)

variable {ms ms' : Members} {declared : List (String × Shape RecordKind)}

/-! ### Spans -/

theorem keeps_plainText : vocabulary.Keeps .plain text :=
  keeps_text

theorem keeps_integer {sh : Shape RecordKind} : vocabulary.Keeps sh integer :=
  respects_scalar (fun _ ↦ rfl) fun _ ↦ rfl

theorem keeps_integerPair : vocabulary.Keeps .plain integerPair := by
  intro v v' h
  obtain ⟨ms, ms', rfl, rfl⟩ | ⟨vs, vs', rfl, rfl, hitems⟩ := h.cases
  · rfl
  · match hitems with
    | .nil => rfl
    | .cons ha .nil =>
      rw [integerPair, integerPair]
      simp only [Checked.value?_seq, Checked.value?_map, Checked.value?_under, keeps_integer.value?_eq ha]
    | .cons ha (.cons hb .nil) =>
      simp only [integerPair, Checked.value?_seq, Checked.value?_map, Checked.value?_under,
        keeps_integer.value?_eq ha, keeps_integer.value?_eq hb]
    | .cons _ (.cons _ (.cons _ _)) => rfl

theorem Interval.keeps_reader : vocabulary.Keeps (.record .span) reader := by
  refine keeps_record fun ms ms' h ↦ ?_
  simp (disch := decide) only [Checked.value?_seq, Checked.value?_map,
    Checked.value?_andThen, h.field keeps_integerPair]

theorem Agree.source (h : vocabulary.Agree declared ms ms') (hmem : ("source", .record .span) ∈ declared) :
    (sourceField ms).value? = (sourceField ms').value? :=
  h.fieldOr Interval.keeps_reader.nullable hmem none

/-- The member that names the kind of a record is a text. -/
theorem Agree.kind (h : vocabulary.Agree declared ms ms') (hmem : ("kind", .plain) ∈ declared)
    (expected : String) : (kind expected ms).value? = (kind expected ms').value? :=
  h.fieldOr (respects_scalar (fun _ ↦ rfl) fun _ ↦ rfl) hmem expected

/-! ### Records of texts and spans -/

theorem StereotypePointer.keeps_reader : vocabulary.Keeps (.record .stereotype) reader := by
  refine keeps_record fun ms ms' h ↦ ?_
  simp (disch := decide) only [Checked.value?_seq, Checked.value?_map,
    h.field keeps_plainText, Agree.source h]

theorem TaggedValue.keeps_reader : vocabulary.Keeps (.record .taggedValue) reader := by
  refine keeps_record fun ms ms' h ↦ ?_
  simp (disch := decide) only [Checked.value?_seq, Checked.value?_map,
    h.field keeps_plainText, h.fieldOr keeps_plainText, Agree.source h]

theorem ElementPointer.keeps_reader : vocabulary.Keeps (.record .pointer) reader := by
  refine keeps_record fun ms ms' h ↦ ?_
  simp (disch := decide) only [Checked.value?_seq, Checked.value?_map,
    h.field keeps_plainText, Agree.source h]

theorem TestCase.keeps_reader : vocabulary.Keeps (.record .testCase) reader := by
  refine keeps_record fun ms ms' h ↦ ?_
  simp (disch := decide) only [Checked.value?_seq, Checked.value?_map,
    h.field keeps_plainText, Agree.source h]

theorem TestSuite.keeps_reader : vocabulary.Keeps (.record .testSuite) reader := by
  refine keeps_record fun ms ms' h ↦ ?_
  simp (disch := decide) only [Checked.value?_seq, Checked.value?_map,
    h.field keeps_plainText, h.fieldOr TestCase.keeps_reader.list, Agree.source h]

theorem LegacyTest.keeps_reader : vocabulary.Keeps (.record .legacyTest) reader := by
  refine keeps_record fun ms ms' h ↦ ?_
  simp (disch := decide) only [Checked.value?_seq, Checked.value?_map,
    h.fieldOr keeps_plainText, Agree.source h]

theorem ProfileEntry.keeps_reader : vocabulary.Keeps (.record .profileEntry) reader := by
  refine keeps_record fun ms ms' h ↦ ?_
  simp (disch := decide) only [Checked.value?_seq, Checked.value?_map,
    h.field keeps_plainText, Agree.source h]

/-! ### Expressions and what is made of them -/

/-- Expressions respect edits however deep they may nest. -/
theorem Expression.keeps_readerWithin (depth : Nat) :
    vocabulary.Keeps (.record .expression) (readerWithin depth) := by
  induction depth with
  | zero => exact respects_scalar (fun _ ↦ rfl) fun _ ↦ rfl
  | succ depth ih =>
    rw [readerWithin_succ]
    refine keeps_record fun ms ms' h ↦ ?_
    simp (disch := decide) only [ofFields, Checked.value?_seq, Checked.value?_map,
      h.field keeps_plainText, h.fieldOr keeps_plainText.nullable, h.fieldOr ih.list, Agree.source h]

theorem Expression.keeps_reader : vocabulary.Keeps (.record .expression) reader :=
  keeps_readerWithin _

theorem Lambda.keeps_reader : vocabulary.Keeps (.record .lambda) reader := by
  refine keeps_record fun ms ms' h ↦ ?_
  simp (disch := decide) only [Checked.value?_seq, Checked.value?_map,
    h.fieldOr keeps_plainText.list, h.fieldOr Expression.keeps_reader.list, Agree.source h]

theorem Assertion.keeps_reader : vocabulary.Keeps (.record .assertion) reader := by
  refine keeps_record fun ms ms' h ↦ ?_
  simp (disch := decide) only [Checked.value?_seq, Checked.value?_map,
    h.field keeps_plainText, h.fieldOr Expression.keeps_reader.nullable]

theorem PostValidation.keeps_reader : vocabulary.Keeps (.record .postValidation) reader := by
  refine keeps_record fun ms ms' h ↦ ?_
  simp (disch := decide) only [Checked.value?_seq, Checked.value?_map,
    h.fieldOr keeps_plainText, h.fieldOr Expression.keeps_reader.list,
    h.fieldOr Assertion.keeps_reader.list]

/-! ### Bindings and executions -/

theorem EngineRuntime.value?_fields (h : vocabulary.Agree runtimeFields ms ms') :
    (fields ms).value? = (fields ms').value? := by
  simp (disch := decide) only [fields, Checked.value?_seq, Checked.value?_map,
    h.fieldOr ElementPointer.keeps_reader.list]

theorem EngineRuntime.keeps_reader : vocabulary.Keeps (.record .engineRuntime) reader := by
  refine keeps_record fun ms ms' h ↦ ?_
  have hfields := value?_fields (h.mono (List.subset_append_left _ _))
  simp (disch := decide) only [Checked.value?_seq, Checked.value?_map, hfields,
    Agree.kind h]

theorem RuntimeValue.keeps_pointerReader : vocabulary.Keeps (.record .runtimePointer) pointerReader := by
  refine keeps_record fun ms ms' h ↦ ?_
  simp (disch := decide) only [Checked.value?_seq, Checked.value?_map,
    h.field keeps_plainText, Agree.kind h, Agree.source h]

theorem RuntimeValue.keeps_reader :
    vocabulary.Keeps (.union [("pointer", .runtimePointer), ("engine", .engineRuntime)]) reader :=
  respects_union (by decide)
    (.cons ⟨rfl, keeps_pointerReader.map pointer⟩ (.cons ⟨rfl, EngineRuntime.keeps_reader.map engine⟩ .nil))

/-- A binding is the same but for the order of its options. -/
theorem Binding.map_ordered_fields (h : vocabulary.Agree bindingFields ms ms') :
    (fields ms).value?.map ordered = (fields ms').value?.map ordered := by
  have hparts (ms : Members) : (fields ms).value?.map ordered =
      (fieldOr "mapping" (nullable text) none ms).value?.bind fun mapping ↦
        (fieldOr "mapping_source" (nullable Interval.reader) none ms).value?.bind fun source ↦
          (fieldOr "runtime" (nullable RuntimeValue.reader) none ms).value?.bind fun runtime ↦
            ((fieldOr "execution_options" (dictionary text) [] ms).value?.map Dictionary.sort).map
              (mk mapping source runtime) := by
    simp only [fields, ordered, Checked.value?_seq, Checked.value?_map, Option.bind_map, Option.map_bind,
      Option.bind_assoc, Option.map_map, Function.comp_def]
  rw [hparts, hparts]
  simp (disch := decide) only [h.fieldOr keeps_plainText.nullable,
    h.fieldOr Interval.keeps_reader.nullable, h.fieldOr RuntimeValue.keeps_reader.nullable,
    h.map_fieldOr respects_dictionary]

theorem Variant.respects_reader : vocabulary.Respects (.record .variant) reader ordered := by
  refine respects_record fun ms ms' h ↦ ?_
  have hbinding := Binding.map_ordered_fields (h.mono (List.subset_append_left _ _))
  have hparts (ms : Members) : ((((field "key" text ms).map mk).seq (Binding.fields ms)).seq
      (sourceField ms)).value?.map ordered =
        (field "key" text ms).value?.bind fun key ↦
          ((Binding.fields ms).value?.map Binding.ordered).bind fun binding ↦
            (sourceField ms).value?.map (mk key binding) := by
    simp only [ordered, Checked.value?_seq, Checked.value?_map, Option.bind_map, Option.map_bind,
      Option.bind_assoc, Option.map_map, Function.comp_def]
  rw [hparts, hparts, hbinding]
  simp (disch := decide) only [h.field keeps_plainText, Agree.source h]

theorem Agree.func (h : vocabulary.Agree declared ms ms') (hmem : ("func", .record .lambda) ∈ declared) :
    (Execution.funcField ms).value? = (Execution.funcField ms').value? :=
  h.fieldOr Lambda.keeps_reader.nullable hmem none

theorem Execution.respects_singleReader :
    vocabulary.Respects (.record .single) singleReader ordered := by
  refine respects_record fun ms ms' h ↦ ?_
  have hbinding := Binding.map_ordered_fields (h.mono (List.subset_append_left _ _))
  have hparts (ms : Members) : ((((kind "single" ms).map fun _ ↦ single).seq (funcField ms)).seq
      (Binding.fields ms)).value?.map ordered =
        (kind "single" ms).value?.bind fun _ ↦ (funcField ms).value?.bind fun func ↦
          ((Binding.fields ms).value?.map Binding.ordered).map (single func) := by
    simp only [ordered, Checked.value?_seq, Checked.value?_map, Option.bind_map, Option.map_bind,
      Option.bind_assoc, Option.map_map, Function.comp_def]
  rw [hparts, hparts, hbinding]
  simp (disch := decide) only [Agree.kind h, Agree.func h]

theorem Execution.respects_multiReader :
    vocabulary.Respects (.record .multi) multiReader ordered := by
  refine respects_record fun ms ms' h ↦ ?_
  have hparts (ms : Members) : (((((kind "multi" ms).map fun _ ↦ multi).seq (funcField ms)).seq
      (field "execution_key" text ms)).seq
      (fieldOr "execution_parameters" (list Variant.reader) [] ms)).value?.map ordered =
        (kind "multi" ms).value?.bind fun _ ↦ (funcField ms).value?.bind fun func ↦
          (field "execution_key" text ms).value?.bind fun key ↦
            ((fieldOr "execution_parameters" (list Variant.reader) [] ms).value?.map
              (List.map Variant.ordered)).map (multi func key) := by
    simp only [ordered, Checked.value?_seq, Checked.value?_map, Option.bind_map, Option.map_bind,
      Option.bind_assoc, Option.map_map, Function.comp_def]
  rw [hparts, hparts]
  simp (disch := decide) only [Agree.kind h, Agree.func h, h.field keeps_plainText,
    h.map_fieldOr Variant.respects_reader.list]

theorem Execution.respects_reader :
    vocabulary.Respects (.union [("single", .single), ("multi", .multi)]) reader ordered :=
  respects_union (by decide)
    (.cons ⟨rfl, respects_singleReader⟩ (.cons ⟨rfl, respects_multiReader⟩ .nil))

/-! ### Elements -/

theorem Header.value?_fields (h : vocabulary.Agree headerFields ms ms') :
    (fields ms).value? = (fields ms').value? := by
  simp (disch := decide) only [fields, Checked.value?_seq, Checked.value?_map, h.field keeps_plainText,
    h.fieldOr StereotypePointer.keeps_reader.list, h.fieldOr TaggedValue.keeps_reader.list, Agree.source h]

namespace Declaration

theorem Agree.suites (h : vocabulary.Agree declared ms ms')
    (hmem : ("test_suites", .list (.record .testSuite)) ∈ declared) :
    (suitesField ms).value? = (suitesField ms').value? :=
  h.fieldOr TestSuite.keeps_reader.list hmem []

theorem respects_serviceReader : vocabulary.Respects (.record .service) serviceReader ordered := by
  refine respects_record fun ms ms' h ↦ ?_
  have hheader := Header.value?_fields (h.mono (List.subset_append_left _ _))
  have hparts (ms : Members) :
      (serviceReader (.record ms)).value?.map ordered =
        (Header.fields ms).value?.bind fun header ↦
          (kind "service" ms).value?.bind fun _ ↦ (fieldOr "pattern" text "" ms).value?.bind fun pattern ↦
          (fieldOr "documentation" text "" ms).value?.bind fun documentation ↦
          ((fieldOr "execution" (nullable Execution.reader) none ms).value?.map
            (Option.map Execution.ordered)).bind fun execution ↦
          (suitesField ms).value?.bind fun suites ↦
          (fieldOr "legacy_test" (nullable LegacyTest.reader) none ms).value?.bind fun legacy ↦
          (fieldOr "post_validations" (list PostValidation.reader) [] ms).value?.map fun validations ↦
            service header ⟨pattern, documentation, execution, suites, legacy⟩ validations := by
    simp only [serviceReader, record, ordered, Service.ordered, Checked.value?_seq, Checked.value?_map,
      Option.bind_map, Option.map_bind, Option.bind_assoc, Option.map_map, Function.comp_def]
  show (serviceReader (.record ms)).value?.map ordered = (serviceReader (.record ms')).value?.map ordered
  rw [hparts, hparts, hheader]
  simp (disch := decide) only [Agree.kind h, Agree.suites h, h.fieldOr keeps_plainText,
    h.map_fieldOr Execution.respects_reader.nullable, h.fieldOr LegacyTest.keeps_reader.nullable,
    h.fieldOr PostValidation.keeps_reader.list]

theorem respects_mappingReader : vocabulary.Respects (.record .mapping) mappingReader ordered := by
  refine respects_record fun ms ms' h ↦ ?_
  have hheader := Header.value?_fields (h.mono (List.subset_append_left _ _))
  simp (disch := decide) only [Checked.value?_seq, Checked.value?_map, hheader, Agree.kind h]

theorem respects_runtimeReader : vocabulary.Respects (.record .runtime) runtimeReader ordered := by
  refine respects_record fun ms ms' h ↦ ?_
  have hheader := Header.value?_fields (h.mono (List.subset_append_left _ _))
  have hruntime := EngineRuntime.value?_fields
    (h.mono fun _ hm ↦ List.mem_append_right _ (List.mem_cons_of_mem _ hm))
  simp (disch := decide) only [Checked.value?_seq, Checked.value?_map, hheader, hruntime, Agree.kind h]

theorem respects_profileReader : vocabulary.Respects (.record .profile) profileReader ordered := by
  refine respects_record fun ms ms' h ↦ ?_
  have hheader := Header.value?_fields (h.mono (List.subset_append_left _ _))
  simp (disch := decide) only [Checked.value?_seq, Checked.value?_map, hheader, Agree.kind h,
    h.fieldOr ProfileEntry.keeps_reader.list]

theorem respects_functionReader : vocabulary.Respects (.record .function) functionReader ordered := by
  refine respects_record fun ms ms' h ↦ ?_
  have hheader := Header.value?_fields (h.mono (List.subset_append_left _ _))
  simp (disch := decide) only [Checked.value?_seq, Checked.value?_map, hheader, Agree.kind h, Agree.func h,
    Agree.suites h]

theorem respects_reader : vocabulary.Respects (.union RecordKind.elements) reader ordered :=
  respects_union (by decide) (.cons ⟨rfl, respects_serviceReader⟩ (.cons ⟨rfl, respects_mappingReader⟩
    (.cons ⟨rfl, respects_runtimeReader⟩ (.cons ⟨rfl, respects_profileReader⟩
      (.cons ⟨rfl, respects_functionReader⟩ .nil)))))

end Declaration

/-- What a section holds, with the options of each binding in the order of their names. -/
def SectionContent.ordered (c : SectionContent) : SectionContent :=
  { c with declarations := c.declarations.map Declaration.ordered }

/-- **A section is read the same whatever is edited**, but for the order of options. -/
theorem SectionContent.respects_reader :
    vocabulary.Respects (.record .content) reader SectionContent.ordered := by
  refine respects_record fun ms ms' h ↦ ?_
  have hparts (ms : Members) : (((field "grammar" text ms).map mk).seq
      (fieldOr "elements" (list Declaration.reader) [] ms)).value?.map ordered =
        (field "grammar" text ms).value?.bind fun grammar ↦
          ((fieldOr "elements" (list Declaration.reader) [] ms).value?.map
            (List.map Declaration.ordered)).map (mk grammar) := by
    simp only [ordered, Checked.value?_seq, Checked.value?_map, Option.bind_map, Option.map_bind,
      Option.map_map, Function.comp_def]
  rw [hparts, hparts]
  simp (disch := decide) only [h.field keeps_plainText, h.map_fieldOr Declaration.respects_reader.list]

end ModelServer
