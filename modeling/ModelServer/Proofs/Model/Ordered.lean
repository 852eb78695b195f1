import ModelServer.Proofs.Json.Order
import ModelServer.Proofs.Model.Declarations
import ModelServer.Proofs.Model.Injective

/-!
# Declarations but for the order of options

The one thing that placing a declaration loses is the order in which bindings list their options, which
then stand in the order of their names (`ordered`). What is declared is otherwise told by the element and the
compiled form together: two declarations agree in both exactly if they are the same but for that order
(`Declaration.ordered_eq_iff`). Neither alone would do, since the element knows nothing of the
conditions of a service and the compiled form knows little else.

That order means nothing in what is written either, but for one thing. Names of options are written
repaired, and of two names that become one the later counts. So declarations are written alike, in
whatever order their options stand, if no binding has two such names (`Binding.Separate`,
`Declaration.alike_toJson`).
-/

namespace ModelServer

/-- What is the same for `g` is the same for `o`, item by item. -/
theorem list_map_factors {α β γ : Type} {g : α → β} {o : α → γ}
    (h : o.FactorsThrough g) : (List.map o).FactorsThrough (List.map g) := by
  intro as bs hg
  induction as generalizing bs with
  | nil => rw [List.map_eq_nil_iff.1 hg.symm]
  | cons a rest ih =>
    obtain ⟨b, rest', rfl, hfirst, hrest⟩ := List.map_eq_cons_iff.1 hg.symm
    rw [List.map_cons, List.map_cons, h hfirst.symm, ih hrest.symm]

theorem option_map_factors {α β γ : Type} {g : α → β} {o : α → γ}
    (h : o.FactorsThrough g) : (Option.map o).FactorsThrough (Option.map g) := by
  rintro (_ | a) (_ | b) hg
  · rfl
  · cases hg
  · cases hg
  · exact congrArg some (h (Option.some.inj hg))

variable {σ τ : Type} {f : σ → τ}

/-! ### Options in the order of their names -/

def Binding.ordered (b : Binding σ) : Binding σ :=
  { b with options := Dictionary.sort b.options }

def Variant.ordered (v : Variant σ) : Variant σ :=
  { v with binding := v.binding.ordered }

def Execution.ordered : Execution σ → Execution σ
  | single l b => single l b.ordered
  | multi l key vs => multi l key (vs.map Variant.ordered)

def Service.ordered (s : Service σ) : Service σ :=
  { s with execution := s.execution.map Execution.ordered }

/-- The declaration with the options of each binding in the order of their names. -/
def Declaration.ordered : Declaration → Declaration
  | service h s vs => service h s.ordered vs
  | d => d

/-! ### Placing loses nothing else -/

theorem Binding.ordered_factors (hf : f.Injective) : (ordered (σ := σ)).FactorsThrough (map f) := by
  rintro ⟨_, _, _, _⟩ ⟨_, _, _, _⟩ h
  simp only [map, mk.injEq] at h
  obtain ⟨rfl, hsource, hruntime, hoptions⟩ := h
  rw [ordered, ordered, Option.map_injective hf hsource,
    Option.map_injective (RuntimeValue.map_injective hf) hruntime, hoptions]

theorem Variant.ordered_factors (hf : f.Injective) : (ordered (σ := σ)).FactorsThrough (map f) := by
  rintro ⟨_, _, _⟩ ⟨_, _, _⟩ h
  simp only [map, mk.injEq] at h
  obtain ⟨rfl, hbinding, hsource⟩ := h
  rw [ordered, ordered, Binding.ordered_factors hf hbinding, Option.map_injective hf hsource]

theorem Execution.ordered_factors (hf : f.Injective) :
    (ordered (σ := σ)).FactorsThrough (map f) := by
  rintro (⟨l, b⟩ | ⟨l, key, vs⟩) (⟨l', b'⟩ | ⟨l', key', vs'⟩) h
  · obtain ⟨hfunc, hbinding⟩ := single.inj h
    rw [ordered, ordered, Option.map_injective (Lambda.map_injective hf) hfunc,
      Binding.ordered_factors hf hbinding]
  · cases h
  · cases h
  · obtain ⟨hfunc, rfl, hvariants⟩ := multi.inj h
    rw [ordered, ordered, Option.map_injective (Lambda.map_injective hf) hfunc,
      list_map_factors (Variant.ordered_factors hf) hvariants]

theorem Service.ordered_factors (hf : f.Injective) : (ordered (σ := σ)).FactorsThrough (map f) := by
  rintro ⟨_, _, _, _, _⟩ ⟨_, _, _, _, _⟩ h
  simp only [map, mk.injEq] at h
  obtain ⟨rfl, rfl, hexecution, hsuites, hlegacy⟩ := h
  rw [ordered, ordered, option_map_factors (Execution.ordered_factors hf) hexecution,
    (TestSuite.map_injective hf).list_map hsuites,
    Option.map_injective (LegacyTest.map_injective hf) hlegacy]

/-- **A declaration is told by its element and its compiled form**, but for the order of options. -/
theorem Declaration.ordered_of_placed {document : String} {d d' : Declaration}
    (helement : d.toElement document = d'.toElement document)
    (hform : d.compiled? document = d'.compiled? document) : d.ordered = d'.ordered := by
  have hf : (Location.mk document).Injective := fun _ _ h ↦ (Location.mk.inj h).2
  obtain ⟨hheader, hcontent⟩ := Element.mk.inj helement
  have hheader := Header.map_injective hf hheader
  cases d with
  | service h s vs =>
    cases d' with
    | service h' s' vs' =>
      obtain ⟨-, -, hconditions⟩ := CompiledService.mk.inj (Option.some.inj hform)
      rw [ordered, ordered, show h = h' from hheader,
        Service.ordered_factors hf (Content.service.inj hcontent),
        (PostValidation.map_injective hf).list_map hconditions]
    | mapping | runtime | profile | function => cases hcontent
  | mapping h =>
    cases d' with
    | mapping h' => rw [show h = h' from hheader]
    | service | runtime | profile | function => cases hcontent
  | runtime h r =>
    cases d' with
    | runtime h' r' =>
      rw [show h = h' from hheader, EngineRuntime.map_injective hf (Content.runtime.inj hcontent)]
    | service | mapping | profile | function => cases hcontent
  | profile h p =>
    cases d' with
    | profile h' p' =>
      rw [show h = h' from hheader, Profile.map_injective hf (Content.profile.inj hcontent)]
    | service | mapping | runtime | function => cases hcontent
  | function h g =>
    cases d' with
    | function h' g' =>
      rw [show h = h' from hheader, Function.map_injective hf (Content.function.inj hcontent)]
    | service | mapping | runtime | profile => cases hcontent

/-! ### Placing puts options in order -/

@[simp] theorem Binding.map_ordered (f : σ → τ) (b : Binding σ) : b.ordered.map f = b.map f := by
  rw [map, map, ordered, Dictionary.sort_sort]

@[simp] theorem Variant.map_ordered (f : σ → τ) (v : Variant σ) : v.ordered.map f = v.map f := by
  rw [map, map, ordered, Binding.map_ordered]

@[simp] theorem Execution.map_ordered (f : σ → τ) (e : Execution σ) :
    e.ordered.map f = e.map f := by
  cases e with
  | single l b => rw [ordered, map, map, Binding.map_ordered]
  | multi l key vs => simp [ordered, map]

@[simp] theorem Service.map_ordered (f : σ → τ) (s : Service σ) : s.ordered.map f = s.map f := by
  simp [ordered, map, Function.comp_def]

@[simp] theorem Execution.func_ordered (e : Execution σ) : e.ordered.func = e.func := by
  cases e <;> rfl

/-- The element is the same in whatever order options were declared. -/
theorem Declaration.toElement_ordered (document : String) (d : Declaration) :
    d.ordered.toElement document = d.toElement document := by
  cases d with
  | service h s vs => simp [ordered, toElement, header, content]
  | mapping | runtime | profile | function => rfl

/-- And so is the compiled form, which has no options. -/
theorem Declaration.compiled?_ordered (document : String) (d : Declaration) :
    d.ordered.compiled? document = d.compiled? document := by
  cases d with
  | service h s vs => simp [ordered, compiled?, Service.ordered, Option.bind_map]
  | mapping | runtime | profile | function => rfl

/-- **Placing loses the order of options and nothing else.** -/
theorem Declaration.ordered_eq_iff (document : String) {d d' : Declaration} :
    d.ordered = d'.ordered ↔
      d.toElement document = d'.toElement document ∧ d.compiled? document = d'.compiled? document := by
  refine ⟨fun h ↦ ⟨?_, ?_⟩, fun h ↦ ordered_of_placed h.1 h.2⟩
  · rw [← toElement_ordered, h, toElement_ordered]
  · rw [← compiled?_ordered, h, compiled?_ordered]

/-! ### What is written -/

/-- No two names of options become one when they are written. -/
def Binding.Separate (b : Binding σ) : Prop :=
  (b.options.map fun o ↦ Text.repaired o.1).Nodup

theorem Binding.separate_map (f : σ → τ) (b : Binding σ) : (b.map f).Separate ↔ b.Separate :=
  ((Dictionary.sort_perm b.options).map _).nodup_iff

/-- Texts are never null. -/
theorem dropNulls_textMembers (entries : List (String × String)) :
    Data.dropNullsMembers (textMembers entries) = textMembers entries := by
  induction entries with
  | nil => rfl
  | cons e rest ih =>
    have hcons : textMembers (e :: rest) = (e.1, .text e.2) :: textMembers rest := rfl
    rw [hcons, Data.dropNullsMembers, ih]
    rfl

/-- **Options are written alike in whatever order they stand.** -/
theorem alike_textsJson {options others : List (String × String)}
    (hn : (options.map fun o ↦ Text.repaired o.1).Nodup) (h : options.Perm others) :
    (textsJson options).Alike (textsJson others) := by
  have hrepaired {os : List (String × String)} (hos : (os.map fun o ↦ Text.repaired o.1).Nodup) :
      repairedOptions os = os.map fun o ↦ (Text.repaired o.1, o.2) := by
    refine Dictionary.ofList_of_nodup ?_
    rwa [List.map_map]
  have hn' : (others.map fun o ↦ Text.repaired o.1).Nodup := (h.map _).nodup_iff.1 hn
  have hnames : ((textMembers (repairedOptions options)).map Prod.fst).Nodup := by
    rw [textMembers, Dictionary.map_fst_mapValues]
    exact Dictionary.nodup_ofList _
  have hperm : (textMembers (repairedOptions options)).Perm (textMembers (repairedOptions others)) := by
    rw [hrepaired hn, hrepaired hn', textMembers, textMembers]
    exact (h.map _).map _
  rw [textsJson_eq, textsJson_eq]
  refine ⟨rfl, ?_⟩
  rw [Data.dropNulls, Data.dropNulls, dropNulls_textMembers, dropNulls_textMembers]
  exact Data.ordered_record_of_perm hnames hperm

/-- The members of two records under the same names, with values that are written alike. -/
abbrev AlikeMembers (ms ns : Members) : Prop :=
  List.Forall₂ (fun m n ↦ m.1 = n.1 ∧ m.2.Alike n.2) ms ns

theorem AlikeMembers.refl (ms : Members) : AlikeMembers ms ms :=
  List.forall₂_same.2 fun m _ ↦ ⟨rfl, .refl m.2⟩

theorem Binding.alike_members {b : Binding Interval} (h : b.Separate) :
    AlikeMembers b.members b.ordered.members := by
  have hoptions := alike_textsJson h (Dictionary.sort_perm b.options).symm
  exact .cons ⟨rfl, .refl _⟩ (.cons ⟨rfl, .refl _⟩ (.cons ⟨rfl, .refl _⟩
    (.cons ⟨rfl, hoptions⟩ .nil)))

theorem Variant.alike_toJson {v : Variant Interval} (h : v.binding.Separate) :
    v.toJson.Alike v.ordered.toJson := by
  have hsource : AlikeMembers [("source", sourceJson v.source)] [("source", sourceJson v.source)] :=
    .refl _
  exact .record (.cons ⟨rfl, .refl _⟩ (List.rel_append (Binding.alike_members h) hsource))

theorem Execution.alike_toJson {e : Execution Interval} (h : ∀ b ∈ e.bindings, b.Separate) :
    e.toJson.Alike e.ordered.toJson := by
  cases e with
  | single l b =>
    have hmembers := Binding.alike_members (h b (List.mem_singleton_self b))
    exact .record (.cons ⟨rfl, .refl _⟩ (.cons ⟨rfl, .refl _⟩ hmembers))
  | multi l key vs =>
    have hvariants : (Data.list (vs.map (·.toJson))).Alike
        (.list ((vs.map Variant.ordered).map (·.toJson))) := by
      rw [List.map_map]
      exact .list_map fun v hv ↦ Variant.alike_toJson (h _ (List.mem_map_of_mem hv))
    exact .record (.cons ⟨rfl, .refl _⟩ (.cons ⟨rfl, .refl _⟩ (.cons ⟨rfl, .refl _⟩
      (.cons ⟨rfl, hvariants⟩ .nil))))

/-- **A declaration is written alike in whatever order its options stand.** -/
theorem Declaration.alike_toJson {d : Declaration} (h : ∀ b ∈ d.bindings, b.Separate) :
    d.toJson.Alike d.ordered.toJson := by
  cases d with
  | service header s vs =>
    have hbody : AlikeMembers (service header s vs).bodyMembers
        (service header s.ordered vs).bodyMembers := by
      refine .cons ⟨rfl, .refl _⟩ (.cons ⟨rfl, .refl _⟩ (.cons ⟨rfl, .refl _⟩
        (.cons ⟨rfl, ?_⟩ (AlikeMembers.refl _))))
      -- Of all the members only the execution is another.
      rw [Service.ordered]
      cases he : s.execution with
      | none => exact .refl _
      | some e =>
        refine Execution.alike_toJson fun b hb ↦ h b ?_
        rw [bindings, Service.bindings, he, Option.toList_some, List.flatMap_singleton]
        exact hb
    exact .record (List.rel_append (AlikeMembers.refl header.members) hbody)
  | mapping | runtime | profile | function => exact .refl _

end ModelServer
