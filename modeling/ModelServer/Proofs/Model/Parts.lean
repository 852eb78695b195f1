import ModelServer.Model.PartSchema
import ModelServer.Proofs.Schema.Written

/-!
# Parts are read back

For each part of an element: what it is written as reads as the part itself. Most parts are read back
whatever they hold. Not so an expression, of which no more levels are read than the schema allows, and
with it all that holds expressions: these are read back if they were read before (`Readable`), which
is what every part of a parsed element is.
-/

namespace ModelServer

open Schema

theorem readsOption_text (o : Option String) : ReadsOption text (textJson o) o := by
  cases o with
  | none => rfl
  | some s => exact reads_text s

/-! ### Spans -/

theorem Position.ofInts?_cast (p : Position) : ofInts? p.line p.column = some p := by
  rw [ofInts?, if_neg (by omega)]
  rfl

theorem Interval.ofPositions?_self (i : Interval) : ofPositions? i.start i.stop = some i := by
  rw [ofPositions?, dif_pos i.ordered]

namespace Interval

theorem reads_positionJson (p : Position) :
    Reads integerPair (positionJson p) ((p.line : Int), (p.column : Int)) :=
  ⟨rfl, rfl⟩

theorem ofPairs_gives (i : Interval) :
    (ofPairs (i.start.line, i.start.column) (i.stop.line, i.stop.column)).Gives i := by
  rw [Checked.Gives, ofPairs]
  simp only [Position.ofInts?_cast, ofPositions?_self]

theorem reads_toJson (i : Interval) : Reads reader i.toJson i := by
  have hn : List.Nodup ["start", "end"] := by decide
  refine reads_record hn fun ms hk ↦ ?_
  have hstart : (field "start" integerPair ms).Gives _ :=
    hk.field rfl (reads_positionJson i.start)
  have hstop : (field "end" integerPair ms).Gives _ := hk.field rfl (reads_positionJson i.stop)
  exact ((hstart.map Prod.mk).seq hstop).andThen (ofPairs_gives i)

end Interval

theorem readsOption_source (o : Option Interval) : ReadsOption Interval.reader (sourceJson o) o := by
  cases o with
  | none => rfl
  | some i => exact i.reads_toJson

/-- The span of a part is read back, wherever it stands among the members. -/
theorem Schema.Kept.source {ms kept : Members} {o : Option Interval} (hk : Kept ms kept)
    (hv : Data.lookup "source" ms = some (sourceJson o)) : (sourceField kept).Gives o :=
  hk.option hv (readsOption_source o)

/-! ### Pointers -/

theorem StereotypePointer.reads_toJson (s : StereotypePointer Interval) :
    Reads reader s.toJson s := by
  have hn : List.Nodup ["profile", "value", "source"] := by decide
  refine reads_record hn fun ms hk ↦ ?_
  exact (((hk.field rfl (reads_text s.profile)).map mk).seq
    (hk.field rfl (reads_text s.value))).seq (hk.source rfl)

theorem TaggedValue.reads_toJson (t : TaggedValue Interval) : Reads reader t.toJson t := by
  have hn : List.Nodup ["profile", "tag", "value", "source"] := by decide
  refine reads_record hn fun ms hk ↦ ?_
  exact ((((hk.field rfl (reads_text t.profile)).map mk).seq
    (hk.field rfl (reads_text t.tag))).seq
    (hk.fieldOr rfl (reads_text t.value))).seq (hk.source rfl)

theorem ElementPointer.reads_toJson (p : ElementPointer Interval) : Reads reader p.toJson p := by
  have hn : List.Nodup ["path", "source"] := by decide
  refine reads_record hn fun ms hk ↦ ?_
  exact ((hk.field rfl (reads_text p.path)).map mk).seq (hk.source rfl)

/-! ### Expressions -/

namespace Expression

theorem listJson_eq_map (es : List (Expression Interval)) : listJson es = es.map toJson := by
  induction es with
  | nil => rfl
  | cons e rest ih => rw [listJson, ih, List.map_cons]

theorem readItems_eq (depth index : Nat) (vs : List Json) :
    readItems depth index vs = items (readerWithin depth) index vs := by
  induction vs generalizing index with
  | nil => rw [readItems, items]
  | cons v rest ih => rw [readItems, items, ih]

theorem readList_eq (depth : Nat) (v : Json) :
    readList depth v = list (readerWithin depth) v := by
  cases v with
  | list vs => rw [readList, list, readItems_eq]
  | _ => rfl

/-- The children are a field like any other. -/
theorem readChildren_eq (depth : Nat) (ms : Members) :
    readChildren depth ms = fieldOr "children" (list (readerWithin depth)) [] ms := by
  induction ms with
  | nil => rfl
  | cons m rest ih =>
    obtain ⟨n, v⟩ := m
    rw [readChildren, fieldOr, Data.lookup, List.lookup_cons]
    by_cases h : n = "children"
    · rw [if_pos h, h, beq_self_eq_true, readList_eq]
    · rw [if_neg h, beq_false_of_ne (Ne.symm h), ih]
      rfl

theorem readerWithin_succ (depth : Nat) :
    readerWithin (depth + 1) = record "ExpressionDTO" fun ms ↦
      ofFields ms (fieldOr "children" (list (readerWithin depth)) [] ms) := by
  funext v
  cases v with
  | record ms => rw [readerWithin, readChildren_eq, record]
  | _ => rfl

/-- The children of an expression that was read were read themselves, within one level less. -/
theorem readable_children {depth : Nat} {e : Expression Interval}
    (h : Readable (readerWithin (depth + 1)) e) :
    ∀ c ∈ e.children, Readable (readerWithin depth) c := by
  rw [readerWithin_succ] at h
  obtain ⟨ms, hd, hms⟩ := readable_record h
  obtain ⟨_, cs, h₃, hcs, rfl⟩ := Checked.seq_eq_ok.1 hms
  obtain ⟨_, _, h₂, -, rfl⟩ := Checked.seq_eq_ok.1 h₃
  obtain ⟨_, _, h₁, -, rfl⟩ := Checked.seq_eq_ok.1 h₂
  obtain ⟨_, -, rfl⟩ := Checked.map_eq_ok.1 h₁
  exact readable_of_listField hd hcs

/-- **An expression that was read is read back.** The induction is on the levels that are left, which
the written form needs no more of than what was read. -/
theorem reads_toJson {depth : Nat} {e : Expression Interval} (h : Readable (readerWithin depth) e) :
    Reads (readerWithin depth) e.toJson e := by
  induction depth generalizing e with
  | zero =>
    obtain ⟨v, -, hv⟩ := h
    rw [readerWithin] at hv
    exact absurd hv Checked.fail_ne_ok
  | succ depth ih =>
    -- The children were read within one level less, and so are read back within one level less.
    have hcs : ∀ c ∈ e.children, Reads (readerWithin depth) c.toJson c :=
      fun c hc ↦ ih (readable_children h c hc)
    obtain ⟨k, s, r, cs⟩ := e
    rw [readerWithin_succ, toJson, listJson_eq_map]
    have hn : List.Nodup ["kind", "source", "reference", "children"] := by decide
    refine reads_record hn fun ms hk ↦ ?_
    have hkind : (field "kind" text ms).Gives k := hk.field rfl (reads_text k)
    have hreference : (fieldOr "reference" (nullable text) none ms).Gives r :=
      hk.option rfl (readsOption_text r)
    have hchildren : (fieldOr "children" (list (readerWithin depth)) [] ms).Gives cs :=
      hk.fieldOr rfl (reads_list_self hcs)
    exact (((hkind.map node).seq (hk.source rfl)).seq hreference).seq hchildren

theorem reads_listJson {es : List (Expression Interval)} (h : ∀ e ∈ es, Readable reader e) :
    Reads (list reader) (.list (listJson es)) es := by
  rw [listJson_eq_map]
  exact reads_list_self fun e he ↦ reads_toJson (h e he)

end Expression

namespace Lambda

theorem readable_body {l : Lambda Interval} (h : Readable reader l) :
    ∀ e ∈ l.body, Readable Expression.reader e := by
  obtain ⟨ms, hd, hms⟩ := readable_record h
  obtain ⟨_, _, h₂, -, rfl⟩ := Checked.seq_eq_ok.1 hms
  obtain ⟨_, body, h₁, hbody, rfl⟩ := Checked.seq_eq_ok.1 h₂
  obtain ⟨_, -, rfl⟩ := Checked.map_eq_ok.1 h₁
  exact readable_of_listField hd hbody

theorem reads_toJson {l : Lambda Interval} (h : Readable reader l) : Reads reader l.toJson l := by
  have hn : List.Nodup ["parameters", "body", "source"] := by decide
  have hparameters : Reads (list text) (.list (l.parameters.map .text)) l.parameters :=
    reads_list_self fun s _ ↦ reads_text s
  refine reads_record hn fun ms hk ↦ ?_
  have hbody : (fieldOr "body" (list Expression.reader) [] ms).Gives l.body :=
    hk.fieldOr rfl (Expression.reads_listJson (readable_body h))
  exact (((hk.fieldOr rfl hparameters).map mk).seq hbody).seq (hk.source rfl)

end Lambda

theorem readsOption_lambda {o : Option (Lambda Interval)} (h : ∀ l ∈ o, Readable Lambda.reader l) :
    ReadsOption Lambda.reader (lambdaJson o) o := by
  cases o with
  | none => rfl
  | some l => exact Lambda.reads_toJson (h l rfl)

/-! ### Runtimes -/

namespace EngineRuntime

theorem fields_gives {r : EngineRuntime Interval} {kept : Members} (hk : Kept r.members kept) :
    (fields kept).Gives r := by
  have hpointers : ∀ ps : List (ElementPointer Interval),
      Reads (list ElementPointer.reader) (.list (ps.map (·.toJson))) ps :=
    fun ps ↦ reads_list_self fun p _ ↦ p.reads_toJson
  exact ((hk.fieldOr rfl (hpointers r.mappings)).map mk).seq
    (hk.fieldOr rfl (hpointers r.connections))

theorem reads_toJson (r : EngineRuntime Interval) : Reads reader r.toJson r := by
  have hn : List.Nodup ["kind", "mappings", "connections"] := by decide
  refine reads_record hn fun ms hk ↦ ?_
  exact ((hk.kind rfl).map fun _ r ↦ r).seq
    (fields_gives (hk.of_sublist hn (List.sublist_cons_self _ _)))

end EngineRuntime

namespace RuntimeValue

theorem reads_pointer (p : ElementPointer Interval) :
    Reads reader (pointer p).toJson (pointer p) := by
  have hn : List.Nodup ["kind", "path", "source"] := by decide
  have hp : Reads pointerReader (pointerJson p) p := by
    refine reads_record hn fun ms hk ↦ ?_
    exact (((hk.kind rfl).map fun _ ↦ ElementPointer.mk).seq
      (hk.field rfl (reads_text p.path))).seq (hk.source rfl)
  exact reads_union hn rfl rfl (hp.map pointer)

theorem reads_toJson (r : RuntimeValue Interval) : Reads reader r.toJson r := by
  cases r with
  | pointer p => exact reads_pointer p
  | engine r =>
    have hn : List.Nodup ["kind", "mappings", "connections"] := by decide
    exact reads_union hn rfl rfl (r.reads_toJson.map engine)

end RuntimeValue

/-! ### Tests -/

theorem TestCase.reads_toJson (t : TestCase Interval) : Reads reader t.toJson t := by
  have hn : List.Nodup ["id", "source"] := by decide
  refine reads_record hn fun ms hk ↦ ?_
  exact ((hk.field rfl (reads_text t.id)).map mk).seq (hk.source rfl)

theorem TestSuite.reads_toJson (s : TestSuite Interval) : Reads reader s.toJson s := by
  have hn : List.Nodup ["id", "tests", "source"] := by decide
  have htests : Reads (list TestCase.reader) (.list (s.tests.map (·.toJson))) s.tests :=
    reads_list_self fun t _ ↦ t.reads_toJson
  refine reads_record hn fun ms hk ↦ ?_
  exact (((hk.field rfl (reads_text s.id)).map mk).seq (hk.fieldOr rfl htests)).seq (hk.source rfl)

theorem reads_suites (ss : List (TestSuite Interval)) :
    Reads (list TestSuite.reader) (.list (ss.map (·.toJson))) ss :=
  reads_list_self fun s _ ↦ s.reads_toJson

theorem LegacyTest.reads_toJson (t : LegacyTest Interval) : Reads reader t.toJson t := by
  have hn : List.Nodup ["data", "source"] := by decide
  refine reads_record hn fun ms hk ↦ ?_
  exact ((hk.fieldOr rfl (reads_text t.data)).map mk).seq (hk.source rfl)

/-! ### Entries of profiles -/

theorem ProfileEntry.reads_toJson (e : ProfileEntry Interval) : Reads reader e.toJson e := by
  have hn : List.Nodup ["name", "source"] := by decide
  refine reads_record hn fun ms hk ↦ ?_
  exact ((hk.field rfl (reads_text e.name)).map mk).seq (hk.source rfl)

theorem reads_entries (es : List (ProfileEntry Interval)) :
    Reads (list ProfileEntry.reader) (.list (es.map (·.toJson))) es :=
  reads_list_self fun e _ ↦ e.reads_toJson

/-! ### Conditions on what services return -/

theorem Assertion.readable_assertion {a : Assertion Interval} (h : Readable reader a) :
    ∀ e ∈ a.assertion, Readable Expression.reader e := by
  obtain ⟨ms, hd, hms⟩ := readable_record h
  obtain ⟨_, o, h₁, ho, rfl⟩ := Checked.seq_eq_ok.1 hms
  obtain ⟨_, -, rfl⟩ := Checked.map_eq_ok.1 h₁
  exact readable_of_optionField hd ho

theorem Assertion.reads_toJson {a : Assertion Interval} (h : Readable reader a) :
    Reads reader a.toJson a := by
  have hn : List.Nodup ["id", "assertion"] := by decide
  have hassertion := readsOption_self fun e he ↦ Expression.reads_toJson (readable_assertion h e he)
  refine reads_record hn fun ms hk ↦ ?_
  exact ((hk.field rfl (reads_text a.id)).map mk).seq
    (hk.option (by cases a.assertion <;> rfl) hassertion)

namespace PostValidation

theorem readable_parts {v : PostValidation Interval} (h : Readable reader v) :
    (∀ e ∈ v.parameters, Readable Expression.reader e) ∧
      ∀ a ∈ v.assertions, Readable Assertion.reader a := by
  obtain ⟨ms, hd, hms⟩ := readable_record h
  obtain ⟨_, assertions, h₂, hassertions, rfl⟩ := Checked.seq_eq_ok.1 hms
  obtain ⟨_, parameters, h₁, hparameters, rfl⟩ := Checked.seq_eq_ok.1 h₂
  obtain ⟨_, -, rfl⟩ := Checked.map_eq_ok.1 h₁
  exact ⟨readable_of_listField hd hparameters, readable_of_listField hd hassertions⟩

theorem reads_toJson {v : PostValidation Interval} (h : Readable reader v) :
    Reads reader v.toJson v := by
  obtain ⟨hparameters, hassertions⟩ := readable_parts h
  have hn : List.Nodup ["description", "parameters", "assertions"] := by decide
  have hlist : Reads (list Assertion.reader) (.list (v.assertions.map (·.toJson))) v.assertions :=
    reads_list_self fun a ha ↦ Assertion.reads_toJson (hassertions a ha)
  refine reads_record hn fun ms hk ↦ ?_
  have hdescription : (fieldOr "description" text "" ms).Gives v.description :=
    hk.fieldOr rfl (reads_text v.description)
  have hexpressions : (fieldOr "parameters" (list Expression.reader) [] ms).Gives v.parameters :=
    hk.fieldOr rfl (Expression.reads_listJson hparameters)
  exact ((hdescription.map mk).seq hexpressions).seq (hk.fieldOr rfl hlist)

end PostValidation

/-! ### Headers -/

theorem Header.fields_gives {h : Header Interval} {kept : Members} (hk : Kept h.members kept) :
    (fields kept).Gives h := by
  have hstereotypes : Reads (list StereotypePointer.reader)
      (.list (h.stereotypes.map (·.toJson))) h.stereotypes :=
    reads_list_self fun s _ ↦ s.reads_toJson
  have htagged : Reads (list TaggedValue.reader)
      (.list (h.taggedValues.map (·.toJson))) h.taggedValues :=
    reads_list_self fun t _ ↦ t.reads_toJson
  have hpath : (field "path" text kept).Gives h.path := hk.field rfl (reads_text h.path)
  exact (((hpath.map mk).seq (hk.source rfl)).seq (hk.fieldOr rfl hstereotypes)).seq
    (hk.fieldOr rfl htagged)

end ModelServer
