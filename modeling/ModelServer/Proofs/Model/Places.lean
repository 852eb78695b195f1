import ModelServer.Proofs.Model.Declarations
import ModelServer.Proofs.Schema.Inside

/-!
# The places in an element

Each part of an element may carry a place, and so may the parts it is made of. `places` lists them
all. To go from a declaration to an element is to map every place into the document and to lose none
(`places_map`), so all that has to be known of the locations in an element is known of the spans in
its declaration. Of these it is shown, part by part as their readers are built, that each was read as
a span from a value that stands in the declaration (`Declaration.draws`): no reader makes a span up,
or takes one from anywhere else.

Expressions nest to any depth, and there the proof is by induction on the levels that are left to
the reader.
-/

namespace ModelServer

open Schema

variable {σ τ : Type}

/-- Where to map an item is to map its places, to map a list of items is to map theirs. -/
theorem flatMap_places_map {α β : Type} {g : α → β} {places : α → List σ} {places' : β → List τ}
    {f : σ → τ} (h : ∀ a, places' (g a) = (places a).map f) (as : List α) :
    (as.map g).flatMap places' = (as.flatMap places).map f := by
  rw [List.flatMap_map, List.map_flatMap]
  simp only [h]

theorem toList_places_map {α β : Type} {g : α → β} {places : α → List σ} {places' : β → List τ}
    {f : σ → τ} (h : ∀ a, places' (g a) = (places a).map f) (o : Option α) :
    (o.map g).toList.flatMap places' = (o.toList.flatMap places).map f := by
  rw [Option.toList_map, flatMap_places_map h]

/-- A record of which only the last field, its span, holds a place. -/
theorem draws_source {α : Type} {title : String} {fields : Members → Checked (Option Interval → α)}
    {parts : α → List Interval}
    (h : ∀ {ms make}, fields ms = .ok make → ∀ o, parts (make o) = o.toList) :
    Draws Interval.reader (record title fun ms ↦ (fields ms).seq (sourceField ms)) parts := by
  refine .record fun hms ↦ ?_
  obtain ⟨make, o, hmake, hsource, rfl⟩ := Checked.seq_eq_ok.1 hms
  rw [h hmake]
  exact standsIn_of_optionField hsource

/-! ### Pointers -/

namespace StereotypePointer

def places (s : StereotypePointer σ) : List σ :=
  s.source.toList

theorem places_map (f : σ → τ) (s : StereotypePointer σ) : (s.map f).places = s.places.map f :=
  Option.toList_map

theorem draws : Draws Interval.reader reader places := by
  refine draws_source fun h o ↦ ?_
  obtain ⟨_, _, h₁, -, rfl⟩ := Checked.seq_eq_ok.1 h
  obtain ⟨_, -, rfl⟩ := Checked.map_eq_ok.1 h₁
  rfl

end StereotypePointer

namespace TaggedValue

def places (t : TaggedValue σ) : List σ :=
  t.source.toList

theorem places_map (f : σ → τ) (t : TaggedValue σ) : (t.map f).places = t.places.map f :=
  Option.toList_map

theorem draws : Draws Interval.reader reader places := by
  refine draws_source fun h o ↦ ?_
  obtain ⟨_, _, h₂, -, rfl⟩ := Checked.seq_eq_ok.1 h
  obtain ⟨_, _, h₁, -, rfl⟩ := Checked.seq_eq_ok.1 h₂
  obtain ⟨_, -, rfl⟩ := Checked.map_eq_ok.1 h₁
  rfl

end TaggedValue

namespace ElementPointer

def places (p : ElementPointer σ) : List σ :=
  p.source.toList

theorem places_map (f : σ → τ) (p : ElementPointer σ) : (p.map f).places = p.places.map f :=
  Option.toList_map

theorem draws : Draws Interval.reader reader places := by
  refine draws_source fun h o ↦ ?_
  obtain ⟨_, -, rfl⟩ := Checked.map_eq_ok.1 h
  rfl

end ElementPointer

/-! ### Expressions -/

namespace Expression

mutual

def places : Expression σ → List σ
  | node _ s _ cs => s.toList ++ placesList cs

/-- The places in each of the expressions. -/
def placesList : List (Expression σ) → List σ
  | [] => []
  | e :: rest => places e ++ placesList rest

end

theorem placesList_eq_flatMap (es : List (Expression σ)) : placesList es = es.flatMap places := by
  induction es with
  | nil => rfl
  | cons e rest ih => rw [placesList, ih, List.flatMap_cons]

mutual

theorem places_map (f : σ → τ) : (e : Expression σ) → (e.map f).places = e.places.map f
  | node _ s _ cs => by
    rw [map, places, places, List.map_append, Option.toList_map, placesList_map f cs]

theorem placesList_map (f : σ → τ) :
    (es : List (Expression σ)) → placesList (mapList f es) = (placesList es).map f
  | [] => rfl
  | e :: rest => by
    rw [mapList, placesList, placesList, List.map_append, places_map f e, placesList_map f rest]

end

/-- The induction is on the levels that are left. -/
theorem draws (depth : Nat) : Draws Interval.reader (readerWithin depth) places := by
  induction depth with
  | zero =>
    intro v e h
    rw [readerWithin] at h
    exact absurd h Checked.fail_ne_ok
  | succ depth ih =>
    rw [readerWithin_succ]
    refine .record fun h ↦ ?_
    obtain ⟨_, cs, h₃, hchildren, rfl⟩ := Checked.seq_eq_ok.1 h
    obtain ⟨_, _, h₂, -, rfl⟩ := Checked.seq_eq_ok.1 h₃
    obtain ⟨_, source, h₁, hsource, rfl⟩ := Checked.seq_eq_ok.1 h₂
    obtain ⟨_, -, rfl⟩ := Checked.map_eq_ok.1 h₁
    rw [places, placesList_eq_flatMap]
    exact List.forall_mem_append.2 ⟨standsIn_of_optionField hsource, ih.listField hchildren⟩

end Expression

namespace Lambda

def places (l : Lambda σ) : List σ :=
  Expression.placesList l.body ++ l.source.toList

theorem places_map (f : σ → τ) (l : Lambda σ) : (l.map f).places = l.places.map f := by
  rw [map, places, places, List.map_append, Expression.placesList_map, Option.toList_map]

theorem draws : Draws Interval.reader reader places := by
  refine .record fun h ↦ ?_
  obtain ⟨_, source, h₂, hsource, rfl⟩ := Checked.seq_eq_ok.1 h
  obtain ⟨_, body, h₁, hbody, rfl⟩ := Checked.seq_eq_ok.1 h₂
  obtain ⟨_, -, rfl⟩ := Checked.map_eq_ok.1 h₁
  rw [places, Expression.placesList_eq_flatMap]
  exact List.forall_mem_append.2 ⟨(Expression.draws _).listField hbody, standsIn_of_optionField hsource⟩

theorem draws_funcField {ms : Members} {o : Option (Lambda Interval)}
    (h : Execution.funcField ms = .ok o) :
    ∀ i ∈ o.toList.flatMap places, StandsIn Interval.reader (.record ms) i :=
  draws.optionField h

end Lambda

/-! ### What lambdas run against -/

namespace EngineRuntime

def places (r : EngineRuntime σ) : List σ :=
  r.mappings.flatMap (·.places) ++ r.connections.flatMap (·.places)

theorem places_map (f : σ → τ) (r : EngineRuntime σ) : (r.map f).places = r.places.map f := by
  rw [map, places, places, List.map_append, flatMap_places_map (ElementPointer.places_map f),
    flatMap_places_map (ElementPointer.places_map f)]

theorem draws_fields {ms : Members} {r : EngineRuntime Interval} (h : fields ms = .ok r) :
    ∀ i ∈ r.places, StandsIn Interval.reader (.record ms) i := by
  obtain ⟨_, connections, h₁, hconnections, rfl⟩ := Checked.seq_eq_ok.1 h
  obtain ⟨mappings, hmappings, rfl⟩ := Checked.map_eq_ok.1 h₁
  exact List.forall_mem_append.2
    ⟨ElementPointer.draws.listField hmappings, ElementPointer.draws.listField hconnections⟩

theorem draws : Draws Interval.reader reader places := by
  refine .record fun h ↦ ?_
  obtain ⟨_, r, h₁, hr, rfl⟩ := Checked.seq_eq_ok.1 h
  obtain ⟨_, -, rfl⟩ := Checked.map_eq_ok.1 h₁
  exact draws_fields hr

end EngineRuntime

namespace RuntimeValue

def places : RuntimeValue σ → List σ
  | pointer p => p.places
  | engine r => r.places

theorem places_map (f : σ → τ) (r : RuntimeValue σ) : (r.map f).places = r.places.map f := by
  cases r with
  | pointer p => exact p.places_map f
  | engine r => exact r.places_map f

theorem draws_pointer : Draws Interval.reader pointerReader ElementPointer.places := by
  refine draws_source fun h o ↦ ?_
  obtain ⟨_, _, h₁, -, rfl⟩ := Checked.seq_eq_ok.1 h
  obtain ⟨_, -, rfl⟩ := Checked.map_eq_ok.1 h₁
  rfl

theorem draws : Draws Interval.reader reader places := by
  refine .union fun c hc ↦ ?_
  simp only [List.mem_cons, List.not_mem_nil, or_false] at hc
  rcases hc with rfl | rfl
  · exact draws_pointer.map fun _ ↦ rfl
  · exact EngineRuntime.draws.map fun _ ↦ rfl

end RuntimeValue

namespace Binding

def places (b : Binding σ) : List σ :=
  b.mappingSource.toList ++ b.runtime.toList.flatMap (·.places)

theorem places_map (f : σ → τ) (b : Binding σ) : (b.map f).places = b.places.map f := by
  rw [map, places, places, List.map_append, Option.toList_map,
    toList_places_map (RuntimeValue.places_map f)]

theorem draws_fields {ms : Members} {b : Binding Interval} (h : fields ms = .ok b) :
    ∀ i ∈ b.places, StandsIn Interval.reader (.record ms) i := by
  obtain ⟨_, options, h₃, -, rfl⟩ := Checked.seq_eq_ok.1 h
  obtain ⟨_, runtime, h₂, hruntime, rfl⟩ := Checked.seq_eq_ok.1 h₃
  obtain ⟨_, source, h₁, hsource, rfl⟩ := Checked.seq_eq_ok.1 h₂
  obtain ⟨_, -, rfl⟩ := Checked.map_eq_ok.1 h₁
  exact List.forall_mem_append.2 ⟨standsIn_of_optionField hsource, RuntimeValue.draws.optionField hruntime⟩

end Binding

namespace Variant

def places (v : Variant σ) : List σ :=
  v.binding.places ++ v.source.toList

theorem places_map (f : σ → τ) (v : Variant σ) : (v.map f).places = v.places.map f := by
  rw [map, places, places, List.map_append, Binding.places_map, Option.toList_map]

theorem draws : Draws Interval.reader reader places := by
  refine .record fun h ↦ ?_
  obtain ⟨_, source, h₂, hsource, rfl⟩ := Checked.seq_eq_ok.1 h
  obtain ⟨_, binding, h₁, hbinding, rfl⟩ := Checked.seq_eq_ok.1 h₂
  obtain ⟨_, -, rfl⟩ := Checked.map_eq_ok.1 h₁
  exact List.forall_mem_append.2 ⟨Binding.draws_fields hbinding, standsIn_of_optionField hsource⟩

end Variant

namespace Execution

def places : Execution σ → List σ
  | single l b => l.toList.flatMap (·.places) ++ b.places
  | multi l _ vs => l.toList.flatMap (·.places) ++ vs.flatMap (·.places)

theorem places_map (f : σ → τ) (e : Execution σ) : (e.map f).places = e.places.map f := by
  cases e with
  | single l b =>
    rw [map, places, places, List.map_append, toList_places_map (Lambda.places_map f),
      Binding.places_map]
  | multi l key vs =>
    rw [map, places, places, List.map_append, toList_places_map (Lambda.places_map f),
      flatMap_places_map (Variant.places_map f)]

/-- The places in the lambda of an execution are places of the execution. -/
theorem places_func_subset (e : Execution σ) : e.func.toList.flatMap (·.places) ⊆ e.places := by
  cases e with
  | single l b => exact List.subset_append_left _ _
  | multi l key vs => exact List.subset_append_left _ _

theorem draws_single : Draws Interval.reader singleReader places := by
  refine .record fun h ↦ ?_
  obtain ⟨_, binding, h₂, hbinding, rfl⟩ := Checked.seq_eq_ok.1 h
  obtain ⟨_, func, h₁, hfunc, rfl⟩ := Checked.seq_eq_ok.1 h₂
  obtain ⟨_, -, rfl⟩ := Checked.map_eq_ok.1 h₁
  exact List.forall_mem_append.2 ⟨Lambda.draws_funcField hfunc, Binding.draws_fields hbinding⟩

theorem draws_multi : Draws Interval.reader multiReader places := by
  refine .record fun h ↦ ?_
  obtain ⟨_, variants, h₃, hvariants, rfl⟩ := Checked.seq_eq_ok.1 h
  obtain ⟨_, _, h₂, -, rfl⟩ := Checked.seq_eq_ok.1 h₃
  obtain ⟨_, func, h₁, hfunc, rfl⟩ := Checked.seq_eq_ok.1 h₂
  obtain ⟨_, -, rfl⟩ := Checked.map_eq_ok.1 h₁
  exact List.forall_mem_append.2
    ⟨Lambda.draws_funcField hfunc, Variant.draws.listField hvariants⟩

theorem draws : Draws Interval.reader reader places := by
  refine .union fun c hc ↦ ?_
  simp only [List.mem_cons, List.not_mem_nil, or_false] at hc
  rcases hc with rfl | rfl
  · exact draws_single
  · exact draws_multi

end Execution

/-! ### Tests -/

namespace TestCase

def places (t : TestCase σ) : List σ :=
  t.source.toList

theorem places_map (f : σ → τ) (t : TestCase σ) : (t.map f).places = t.places.map f :=
  Option.toList_map

theorem draws : Draws Interval.reader reader places := by
  refine draws_source fun h o ↦ ?_
  obtain ⟨_, -, rfl⟩ := Checked.map_eq_ok.1 h
  rfl

end TestCase

namespace TestSuite

def places (s : TestSuite σ) : List σ :=
  s.tests.flatMap (·.places) ++ s.source.toList

theorem places_map (f : σ → τ) (s : TestSuite σ) : (s.map f).places = s.places.map f := by
  rw [map, places, places, List.map_append, flatMap_places_map (TestCase.places_map f),
    Option.toList_map]

theorem draws : Draws Interval.reader reader places := by
  refine .record fun h ↦ ?_
  obtain ⟨_, source, h₂, hsource, rfl⟩ := Checked.seq_eq_ok.1 h
  obtain ⟨_, tests, h₁, htests, rfl⟩ := Checked.seq_eq_ok.1 h₂
  obtain ⟨_, -, rfl⟩ := Checked.map_eq_ok.1 h₁
  exact List.forall_mem_append.2 ⟨TestCase.draws.listField htests, standsIn_of_optionField hsource⟩

theorem draws_suitesField {ms : Members} {ss : List (TestSuite Interval)}
    (h : Declaration.suitesField ms = .ok ss) :
    ∀ i ∈ ss.flatMap places, StandsIn Interval.reader (.record ms) i :=
  draws.listField h

end TestSuite

namespace LegacyTest

def places (t : LegacyTest σ) : List σ :=
  t.source.toList

theorem places_map (f : σ → τ) (t : LegacyTest σ) : (t.map f).places = t.places.map f :=
  Option.toList_map

theorem draws : Draws Interval.reader reader places := by
  refine draws_source fun h o ↦ ?_
  obtain ⟨_, -, rfl⟩ := Checked.map_eq_ok.1 h
  rfl

end LegacyTest

/-! ### Profiles -/

namespace ProfileEntry

def places (e : ProfileEntry σ) : List σ :=
  e.source.toList

theorem places_map (f : σ → τ) (e : ProfileEntry σ) : (e.map f).places = e.places.map f :=
  Option.toList_map

theorem draws : Draws Interval.reader reader places := by
  refine draws_source fun h o ↦ ?_
  obtain ⟨_, -, rfl⟩ := Checked.map_eq_ok.1 h
  rfl

end ProfileEntry

/-! ### Conditions on what services return -/

namespace Assertion

def places (a : Assertion σ) : List σ :=
  a.assertion.toList.flatMap (·.places)

theorem places_map (f : σ → τ) (a : Assertion σ) : (a.map f).places = a.places.map f :=
  toList_places_map (Expression.places_map f) a.assertion

theorem draws : Draws Interval.reader reader places := by
  refine .record fun h ↦ ?_
  obtain ⟨_, assertion, h₁, hassertion, rfl⟩ := Checked.seq_eq_ok.1 h
  obtain ⟨_, -, rfl⟩ := Checked.map_eq_ok.1 h₁
  exact (Expression.draws _).optionField hassertion

end Assertion

namespace PostValidation

def places (v : PostValidation σ) : List σ :=
  Expression.placesList v.parameters ++ v.assertions.flatMap (·.places)

theorem places_map (f : σ → τ) (v : PostValidation σ) : (v.map f).places = v.places.map f := by
  rw [map, places, places, List.map_append, Expression.placesList_map,
    flatMap_places_map (Assertion.places_map f)]

theorem draws : Draws Interval.reader reader places := by
  refine .record fun h ↦ ?_
  obtain ⟨_, assertions, h₂, hassertions, rfl⟩ := Checked.seq_eq_ok.1 h
  obtain ⟨_, parameters, h₁, hparameters, rfl⟩ := Checked.seq_eq_ok.1 h₂
  obtain ⟨_, -, rfl⟩ := Checked.map_eq_ok.1 h₁
  rw [places, Expression.placesList_eq_flatMap]
  exact List.forall_mem_append.2
    ⟨(Expression.draws _).listField hparameters, Assertion.draws.listField hassertions⟩

end PostValidation

/-! ### Elements -/

namespace Header

def places (h : Header σ) : List σ :=
  h.source.toList ++ h.stereotypes.flatMap (·.places) ++ h.taggedValues.flatMap (·.places)

theorem places_map (f : σ → τ) (h : Header σ) : (h.map f).places = h.places.map f := by
  rw [map, places, places, List.map_append, List.map_append, Option.toList_map,
    flatMap_places_map (StereotypePointer.places_map f),
    flatMap_places_map (TaggedValue.places_map f)]

theorem draws_fields {ms : Members} {h : Header Interval} (hread : fields ms = .ok h) :
    ∀ i ∈ h.places, StandsIn Interval.reader (.record ms) i := by
  obtain ⟨_, taggedValues, h₃, htagged, rfl⟩ := Checked.seq_eq_ok.1 hread
  obtain ⟨_, stereotypes, h₂, hstereotypes, rfl⟩ := Checked.seq_eq_ok.1 h₃
  obtain ⟨_, source, h₁, hsource, rfl⟩ := Checked.seq_eq_ok.1 h₂
  obtain ⟨_, -, rfl⟩ := Checked.map_eq_ok.1 h₁
  exact List.forall_mem_append.2
    ⟨List.forall_mem_append.2
      ⟨standsIn_of_optionField hsource, StereotypePointer.draws.listField hstereotypes⟩,
    TaggedValue.draws.listField htagged⟩

/-- The path of an element is a text among its members. -/
theorem lookup_path {ms : Members} {h : Header Interval} (hread : fields ms = .ok h) :
    Data.lookup "path" ms = some (.text h.path) := by
  obtain ⟨_, _, h₃, -, rfl⟩ := Checked.seq_eq_ok.1 hread
  obtain ⟨_, _, h₂, -, rfl⟩ := Checked.seq_eq_ok.1 h₃
  obtain ⟨_, _, h₁, -, rfl⟩ := Checked.seq_eq_ok.1 h₂
  obtain ⟨path, hpath, rfl⟩ := Checked.map_eq_ok.1 h₁
  obtain ⟨v, hlookup, hv⟩ := field_eq_ok.1 hpath
  exact text_eq_ok.1 hv ▸ hlookup

end Header

namespace Service

def places (s : Service σ) : List σ :=
  s.execution.toList.flatMap (·.places) ++ s.suites.flatMap (·.places) ++
    s.legacyTest.toList.flatMap (·.places)

theorem places_map (f : σ → τ) (s : Service σ) : (s.map f).places = s.places.map f := by
  rw [map, places, places, List.map_append, List.map_append,
    toList_places_map (Execution.places_map f), flatMap_places_map (TestSuite.places_map f),
    toList_places_map (LegacyTest.places_map f)]

end Service

namespace Profile

def places (p : Profile σ) : List σ :=
  p.stereotypes.flatMap (·.places) ++ p.tags.flatMap (·.places)

theorem places_map (f : σ → τ) (p : Profile σ) : (p.map f).places = p.places.map f := by
  rw [map, places, places, List.map_append, flatMap_places_map (ProfileEntry.places_map f),
    flatMap_places_map (ProfileEntry.places_map f)]

end Profile

namespace Function

def places (g : Function σ) : List σ :=
  g.func.toList.flatMap (·.places) ++ g.suites.flatMap (·.places)

theorem places_map (f : σ → τ) (g : Function σ) : (g.map f).places = g.places.map f := by
  rw [map, places, places, List.map_append, toList_places_map (Lambda.places_map f),
    flatMap_places_map (TestSuite.places_map f)]

end Function

/-- The locations in what the kind of an element adds to it. -/
def Content.locations : Content → List Location
  | .service s => s.places
  | .mapping => []
  | .runtime r => r.places
  | .profile p => p.places
  | .function f => f.places

/-- The locations anywhere in an element. -/
def Element.locations (e : Element) : List Location :=
  e.header.places ++ e.content.locations

/-- The locations anywhere in the compiled form of a service. -/
def CompiledService.locations (c : CompiledService) : List Location :=
  c.func.toList.flatMap (·.places) ++ c.postValidations.flatMap (·.places)

namespace Declaration

/-- The places in what the declaration adds to its header. -/
def contentPlaces : Declaration → List Interval
  | service _ s _ => s.places
  | mapping _ => []
  | runtime _ r => r.places
  | profile _ p => p.places
  | function _ f => f.places

/-- The conditions on what the service returns, if one is declared. -/
def conditions : Declaration → List (PostValidation Interval)
  | service _ _ vs => vs
  | _ => []

def places (d : Declaration) : List Interval :=
  d.header.places ++ d.contentPlaces ++ d.conditions.flatMap (·.places)

/-- **Every location in an element is a place of its declaration, in the document.** -/
theorem locations_toElement (document : String) (d : Declaration) :
    (d.toElement document).locations =
      (d.header.places ++ d.contentPlaces).map (Location.mk document) := by
  rw [Element.locations, toElement, Header.places_map, List.map_append]
  congr 1
  cases d with
  | service h s vs => exact s.places_map _
  | mapping h => rfl
  | runtime h r => exact r.places_map _
  | profile h p => exact p.places_map _
  | function h f => exact f.places_map _

theorem mem_places_of_toElement {document : String} {d : Declaration} {l : Location}
    (h : l ∈ (d.toElement document).locations) : ∃ i ∈ d.places, l = ⟨document, i⟩ := by
  rw [locations_toElement] at h
  obtain ⟨i, hi, rfl⟩ := List.mem_map.1 h
  exact ⟨i, List.mem_append_left _ hi, rfl⟩

/-- **Every location in the compiled form of a service is a place of its declaration, in the
document.** -/
theorem mem_places_of_compiled? {document : String} {d : Declaration} {c : CompiledService}
    (hc : d.compiled? document = some c) {l : Location} (h : l ∈ c.locations) :
    ∃ i ∈ d.places, l = ⟨document, i⟩ := by
  cases d with
  | service header s vs =>
    cases hc
    rw [CompiledService.locations, toList_places_map (Lambda.places_map _),
      flatMap_places_map (PostValidation.places_map _), ← List.map_append] at h
    obtain ⟨i, hi, rfl⟩ := List.mem_map.1 h
    refine ⟨i, ?_, rfl⟩
    rcases List.mem_append.1 hi with hi | hi
    · -- The lambda is that of the execution.
      obtain ⟨l, hl, hil⟩ := List.mem_flatMap.1 hi
      obtain ⟨e, he, hle⟩ := Option.bind_eq_some_iff.1 (Option.mem_toList.1 hl)
      have hexecution : i ∈ e.places :=
        e.places_func_subset (List.mem_flatMap.2 ⟨l, Option.mem_toList.2 hle, hil⟩)
      have hservice : i ∈ s.places :=
        List.mem_append_left _ (List.mem_append_left _
          (List.mem_flatMap.2 ⟨e, Option.mem_toList.2 he, hexecution⟩))
      exact List.mem_append_left _ (List.mem_append_right _ hservice)
    · exact List.mem_append_right _ hi
  | mapping | runtime | profile | function => cases hc

/-- Where each part was read from its field, so were its places. -/
theorem ReadFrom.standsIn {ms : Members} {d : Declaration} (h : d.ReadFrom ms) :
    ∀ i ∈ d.places, StandsIn Interval.reader (.record ms) i := by
  have hheader := Header.draws_fields h.fields
  have hcontent : ∀ i ∈ d.contentPlaces, StandsIn Interval.reader (.record ms) i := by
    cases h with
    | service _ execution suites legacyTest _ =>
      exact List.forall_mem_append.2
        ⟨List.forall_mem_append.2
          ⟨Execution.draws.optionField execution, TestSuite.draws_suitesField suites⟩,
        LegacyTest.draws.optionField legacyTest⟩
    | mapping _ => exact List.forall_mem_nil _
    | runtime _ runtime => exact EngineRuntime.draws_fields runtime
    | profile _ stereotypes tags =>
      exact List.forall_mem_append.2
        ⟨ProfileEntry.draws.listField stereotypes, ProfileEntry.draws.listField tags⟩
    | function _ func suites =>
      exact List.forall_mem_append.2
        ⟨Lambda.draws_funcField func, TestSuite.draws_suitesField suites⟩
  have hconditions : ∀ i ∈ d.conditions.flatMap (·.places),
      StandsIn Interval.reader (.record ms) i := by
    cases h with
    | service _ _ _ _ conditions => exact PostValidation.draws.listField conditions
    | mapping | runtime | profile | function => exact List.forall_mem_nil _
  exact List.forall_mem_append.2 ⟨List.forall_mem_append.2 ⟨hheader, hcontent⟩, hconditions⟩

/-- **Every place in a declaration was read as a span that stands in it.** -/
theorem draws : Draws Interval.reader reader places := by
  intro v d h
  obtain ⟨ms, rfl, -, hfrom⟩ := of_reader h
  exact hfrom.standsIn

end Declaration

end ModelServer
