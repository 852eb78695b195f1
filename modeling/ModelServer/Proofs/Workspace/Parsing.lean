import ModelServer.Proofs.Model.Places
import ModelServer.Proofs.Source.Span
import ModelServer.Proofs.Workspace.Exactness
import ModelServer.Proofs.Workspace.Soundness

/-!
# What sections are, and what they parse to

`Document.Cuts` says into which sections a text falls, and `Section.ParsesTo` what becomes of one when
it is parsed: a fault and nothing else, or one element for each item that its value lists, of the kind
that the item names (`Section.Declares`). Both are told of the text and of the value alone.

All locations that come of a section are the section's own (`Section.Holds`). Behind each stands a
span somewhere in the section's value, of which the place was made without an invariant being broken.
That there is such a span is the theory of `Declaration.draws`; that it is sound is the schema's
doing (`Interval.reader_eq_ok_iff`).
-/

namespace ModelServer

open Schema

/-! ### Sections of a text -/

/-- The sections into which the text of a document falls, if it is not nested too deep to be looked
at: one that cannot be read if the text is no JSON or lists no sections, and otherwise one for each
item of the list, in order, under the item's number. -/
inductive Document.Cuts [Depths] (d : Document) : List Section → Prop
  | invalid {f : Json.Fault} (read : Json.read d.text = .error f) (shallow : f.isDepth = false) :
      d.Cuts [⟨d, 0, "", .unreadable ("Invalid JSON: " ++ f.message)⟩]
  | unlisted {v : Json} (read : Json.read d.text = .ok v)
      (unlisted : ∀ items, v.member? "sections" ≠ some (.list items)) :
      d.Cuts [⟨d, 0, "", .unreadable "Expected an object with a 'sections' list"⟩]
  | listed {v : Json} {items : List Json} {ss : List Section} (read : Json.read d.text = .ok v)
      (listed : v.member? "sections" = some (.list items))
      (item : ∀ n, ss[n]? = items[n]?.map fun v ↦ Section.mk d n (grammarOf v) (.value v)) :
      d.Cuts ss

/-- The section is one of those into which the text of its document falls. -/
def Section.IsCut [Depths] (s : Section) : Prop :=
  ∃ ss, s.document.Cuts ss ∧ s ∈ ss

namespace Document

variable {d : Document} {parts : List (String × SectionBody)} {ss : List Section} {s : Section}

/-- **A text that can be set falls into its sections.** -/
theorem cuts_sections [Depths] (h : splitSections d.text = .ok parts) : d.Cuts (d.sections parts) :=
    by
  rw [splitSections] at h
  cases hread : Json.read d.text with
  | error f =>
    rw [hread] at h
    dsimp only at h
    split at h
    · cases h
    · next hshallow =>
      cases h
      exact .invalid hread (eq_false_of_ne_true hshallow)
  | ok v =>
    rw [hread] at h
    cases h
    rw [sectionsOf]
    split
    · next items hlisted =>
      refine .listed hread hlisted fun n ↦ ?_
      rw [getElem?_sections, List.getElem?_map, Option.map_map]
      rfl
    · next hunlisted => exact .unlisted hread hunlisted

/-- Only a text that is nested too deep to be looked at has no sections. -/
theorem isDepth_of_splitSections [Depths] {text : String} {f : Fault}
    (h : splitSections text = .error f) :
    ∃ fault, Json.read text = .error fault ∧ fault.isDepth = true ∧ f = .unreadable fault := by
  rw [splitSections] at h
  cases hread : Json.read text with
  | error fault =>
    rw [hread] at h
    dsimp only at h
    split at h
    · next hdepth =>
      cases h
      exact ⟨fault, rfl, hdepth, rfl⟩
    · cases h
  | ok v =>
    rw [hread] at h
    cases h

theorem Cuts.document [Depths] (h : d.Cuts ss) (hs : s ∈ ss) : s.document = d := by
  cases h with
  | invalid | unlisted => exact List.mem_singleton.1 hs ▸ rfl
  | listed read listed item =>
    obtain ⟨n, hn⟩ := List.mem_iff_getElem?.1 hs
    rw [item, Option.map_eq_some_iff] at hn
    obtain ⟨_, -, rfl⟩ := hn
    rfl

theorem Cuts.isCut [Depths] (h : d.Cuts ss) (hs : s ∈ ss) : s.IsCut := by
  obtain rfl := h.document hs
  exact ⟨ss, h, hs⟩

end Document

theorem Workspace.Sound.isCut [Depths] {w : Workspace} (hw : w.Sound) {id : String} {s : Section}
    (hs : s ∈ w.sectionsOf id) : s.IsCut := by
  obtain ⟨ss, hss, hmem⟩ := Workspace.mem_sectionsOf.1 hs
  obtain ⟨d, parts, -, -, hparts, rfl⟩ := hw.cut hss
  exact (Document.cuts_sections hparts).isCut hmem

/-- A section is in the grammar that its value names. -/
theorem Section.IsCut.grammar_eq [Depths] {s : Section} (h : s.IsCut) {v : Json}
    (hv : s.body = .value v) :
    s.grammar = grammarOf v := by
  obtain ⟨ss, hcuts, hs⟩ := h
  generalize s.document = d at hcuts
  cases hcuts with
  | invalid | unlisted =>
    obtain rfl := List.mem_singleton.1 hs
    cases hv
  | listed read listed item =>
    obtain ⟨n, hn⟩ := List.mem_iff_getElem?.1 hs
    rw [item, Option.map_eq_some_iff] at hn
    obtain ⟨_, -, rfl⟩ := hn
    cases hv
    rfl

/-! ### Locations of a section -/

namespace Section

variable {s : Section}

/-- The location is one of the section: it is in the section's document and does not end before it
starts, and it was made, without an invariant being broken, of a sound span that stands in the
section's value. -/
structure Holds (s : Section) (l : Location) : Prop where
  document : l.document = s.document.id
  ordered : l.interval.start ≤ l.interval.stop
  given : ∃ v w p, s.body = .value v ∧ w.Inside v ∧ Span.reader w = .ok p ∧ p.Sound ∧
    p = Span.ofInterval l.interval ∧ p.locate s.document.id = .ok l

theorem holds_of_standsIn {v : Json} (hv : s.body = .value v) {i : Interval}
    (h : StandsIn Interval.reader v i) : s.Holds ⟨s.document.id, i⟩ := by
  obtain ⟨w, hw, hread⟩ := h
  have hspan : Span.reader w = .ok (Span.ofInterval i) := Interval.reader_eq_ok_iff.1 hread
  have hlocate : (Span.ofInterval i).locate s.document.id = .ok ⟨s.document.id, i⟩ :=
    Span.locate_eq_ok_iff.2 ⟨rfl, rfl⟩
  exact ⟨rfl, i.ordered, v, w, _, hv, hw, hspan, Span.sound_ofInterval i, rfl, hlocate⟩

end Section

/-! ### What a section parses to -/

/-- What the element is, as it is named where it is declared. -/
def Element.kindName (e : Element) : String :=
  match e.content with
  | .service _ => "service"
  | .mapping => "mapping"
  | .runtime _ => "runtime"
  | .profile _ => "profile"
  | .function _ => "function"

theorem Declaration.kindName_toElement (document : String) (d : Declaration) :
    (d.toElement document).kindName = d.kindName := by
  cases d <;> rfl

/-- The items that the value of a section lists as its elements. -/
def listedIn (v : Json) : List Json :=
  match v.member? "elements" with
  | some (.list items) => items
  | _ => []

namespace Section

variable {s : Section}

/-- The item declares the element: it names its kind and its path, and all locations in the element are
those of the section. -/
structure Declares (s : Section) (item : Json) (e : Element) : Prop where
  read : ∃ d, Declaration.reader item = .ok d ∧ e = d.toElement s.document.id
  kind : item.member? "kind" = some (.text e.kindName)
  path : item.member? "path" = some (.text e.path)
  holds : ∀ l ∈ e.locations, s.Holds l

/-- What becomes of a section: a fault if its value is none that the schema takes, and otherwise the
elements that the value lists, one for each, the section being in the grammar that was checked. -/
inductive ParsesTo (s : Section) : Parsed → Prop
  | faulty {f : CompileFault}
      (refused : ∀ v c, s.body = .value v → SectionContent.reader v ≠ .ok c) :
      s.ParsesTo (.faulty f)
  | elements {v : Json} {c : SectionContent} {es : List Element} (value : s.body = .value v)
      (read : SectionContent.reader v = .ok c) (grammar : c.grammar = s.grammar)
      (declares : List.Forall₂ s.Declares (listedIn v) es) : s.ParsesTo (.elements es)

/-- A section has content exactly if the schema takes its value. -/
theorem content_eq_ok_iff {c : SectionContent} :
    s.content = .ok c ↔ ∃ v, s.body = .value v ∧ SectionContent.reader v = .ok c := by
  rw [content]
  cases s.body with
  | unreadable message => simp
  | value v => cases h : SectionContent.reader v <;> simp [h]

/-- What the value of a section lists stands in it, and was read item by item. -/
theorem items_of_reader {v : Json} {c : SectionContent} (h : SectionContent.reader v = .ok c) :
    (∀ item ∈ listedIn v, item.Inside v) ∧
      List.Forall₂ (fun item d ↦ Declaration.reader item = .ok d) (listedIn v) c.declarations := by
  obtain ⟨ms, rfl, hms⟩ := record_eq_ok.1 h
  obtain ⟨_, ds, h₁, hds, rfl⟩ := Checked.seq_eq_ok.1 hms
  obtain ⟨_, -, rfl⟩ := Checked.map_eq_ok.1 h₁
  rw [listedIn, Data.member?]
  obtain ⟨list, hlist, hread⟩ | ⟨hnone, rfl⟩ := fieldOr_eq_ok.1 hds
  · obtain ⟨items, rfl, hitems⟩ := list_eq_ok.1 hread
    rw [hlist]
    exact ⟨fun item hitem ↦ (Data.Inside.item hitem .refl).trans (.of_lookup hlist), hitems⟩
  · rw [hnone]
    exact ⟨List.forall_mem_nil _, .nil⟩

/-- The grammar that is checked is the one that the value names. -/
theorem grammarOf_of_reader {v : Json} {c : SectionContent} (h : SectionContent.reader v = .ok c) :
    grammarOf v = c.grammar := by
  obtain ⟨ms, rfl, hms⟩ := record_eq_ok.1 h
  obtain ⟨_, ds, h₁, -, rfl⟩ := Checked.seq_eq_ok.1 hms
  obtain ⟨grammar, hgrammar, rfl⟩ := Checked.map_eq_ok.1 h₁
  obtain ⟨named, hlookup, hnamed⟩ := field_eq_ok.1 hgrammar
  obtain rfl := text_eq_ok.1 hnamed
  rw [grammarOf, Data.member?, hlookup]
  rfl

/-- An item that was read declares its element. -/
theorem declares_of_reader {v item : Json} (hv : s.body = .value v) (hitem : item.Inside v)
    {d : Declaration} (h : Declaration.reader item = .ok d) :
    s.Declares item (d.toElement s.document.id) := by
  obtain ⟨ms, rfl, hkind, hfrom⟩ := Declaration.of_reader h
  refine ⟨⟨d, h, rfl⟩, ?_, Header.lookup_path hfrom.fields, fun l hl ↦ ?_⟩
  · rw [Declaration.kindName_toElement]
    exact hkind
  · obtain ⟨i, hi, rfl⟩ := Declaration.mem_places_of_toElement hl
    exact holds_of_standsIn hv ((Declaration.draws h i hi).inside hitem)

/-- **A section that was cut from its text parses to what it should.** -/
theorem IsCut.parsesTo [Depths] (h : s.IsCut) : s.ParsesTo s.parse := by
  cases hes : s.parse with
  | faulty f =>
    refine .faulty fun v c hv hread ↦ ?_
    rw [parse_of_content (content_eq_ok_iff.2 ⟨v, hv, hread⟩)] at hes
    cases hes
  | elements es =>
    obtain ⟨c, hc, rfl⟩ := parse_eq_elements_iff.1 hes
    obtain ⟨v, hv, hread⟩ := content_eq_ok_iff.1 hc
    have hgrammar : c.grammar = s.grammar :=
      (grammarOf_of_reader hread).symm.trans (h.grammar_eq hv).symm
    have hitems := (List.forall₂_and_left _ _).2 (items_of_reader hread)
    refine .elements hv hread hgrammar ?_
    rw [List.forall₂_map_right_iff]
    exact hitems.imp fun item d hd ↦ declares_of_reader hv hd.1 hd.2

theorem ParsesTo.exists_declares {p : Parsed} (h : s.ParsesTo p) {e : Element} (he : e ∈ p.toList) :
    ∃ item, s.Declares item e := by
  cases h with
  | faulty refused => exact absurd he List.not_mem_nil
  | elements value read grammar declares =>
    obtain ⟨item, -, hdeclares⟩ := exists_of_forall₂ declares e he
    exact ⟨item, hdeclares⟩

/-- **All locations in the compiled form of a service are those of its section.** -/
theorem holds_of_mem_forms {c : CompiledService} (hc : c ∈ s.forms) :
    ∀ l ∈ c.locations, s.Holds l := by
  intro l hl
  rw [forms] at hc
  split at hc
  · next content hcontent =>
    obtain ⟨v, hv, hread⟩ := content_eq_ok_iff.1 hcontent
    obtain ⟨d, hd, hcompiled⟩ := List.mem_filterMap.1 hc
    obtain ⟨hinside, hitems⟩ := items_of_reader hread
    obtain ⟨item, hitem, hdread⟩ := exists_of_forall₂ hitems d hd
    obtain ⟨i, hi, rfl⟩ := Declaration.mem_places_of_compiled? hcompiled hl
    exact holds_of_standsIn hv ((Declaration.draws hdread i hi).inside (hinside item hitem))
  · cases hc

end Section

/-- **All locations in a model are those of the sections that it was made of**, each element and each
compiled form having a section of its own. -/
theorem Compiled.holds_of_model [Depths] {sections : List Section} (hcut : ∀ s ∈ sections, s.IsCut)
    {m : CompiledModel} (h : ofSections sections = .model m) :
    (∀ e ∈ m.elements, ∃ s ∈ sections, ∃ item, s.Declares item e.2) ∧
      ∀ f ∈ m.forms, ∃ s ∈ sections, f.2 ∈ s.forms ∧ ∀ l ∈ f.2.locations, s.Holds l := by
  rw [eq_of_model h]
  refine ⟨fun e he ↦ ?_, fun f hf ↦ ?_⟩
  · obtain ⟨e, hmem, rfl⟩ := List.mem_map.1 he
    obtain ⟨s, hs, hes⟩ := List.mem_flatMap.1 hmem
    exact ⟨s, hs, (hcut s hs).parsesTo.exists_declares hes⟩
  · obtain ⟨s, hs, hforms⟩ := List.mem_flatMap.1 hf
    obtain ⟨c, hc, rfl⟩ := List.mem_map.1 hforms
    exact ⟨s, hs, hc, Section.holds_of_mem_forms hc⟩

end ModelServer
