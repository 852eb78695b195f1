import ModelServer.Proofs.Model.Parts
import ModelServer.Proofs.Text.Repair

/-!
# Executions are read back but for the names of options

A surrogate that stands alone cannot be part of the name of a member that is written, so it is
replaced, and two options whose names become one are one option afterwards. `repaired` is what is
left of an execution: it differs from the execution in the names of its options and in nothing else
(`Execution.reads_toJson`). Writing sees no difference between the two (`Execution.toJson_repaired`),
which is why what was written once can be written and read as often as one likes. And there is none
where every name is whole (`Execution.repaired_of_whole`), provided the options are a dictionary.
-/

namespace ModelServer

open Schema

/-! ### Dictionaries of texts -/

/-- The options as they are once they were written. -/
def repairedOptions (options : List (String × String)) : List (String × String) :=
  Dictionary.ofList (options.map fun o ↦ (Text.repaired o.1, o.2))

theorem isWhole_of_mem_repairedOptions {options : List (String × String)} {o : String × String}
    (h : o ∈ repairedOptions options) : Text.isWhole o.1 = true := by
  have hname := List.mem_map_of_mem (f := Prod.fst) h
  rw [repairedOptions, Dictionary.mem_map_fst_ofList, List.map_map] at hname
  obtain ⟨p, -, hp⟩ := List.mem_map.1 hname
  exact hp ▸ Text.isWhole_repaired p.1

/-- Where names are whole and different nothing changes. -/
theorem repairedOptions_of_whole {options : List (String × String)}
    (hn : (options.map Prod.fst).Nodup) (hw : ∀ o ∈ options, Text.isWhole o.1 = true) :
    repairedOptions options = options := by
  have hsame : ∀ o ∈ options, (Text.repaired o.1, o.2) = id o := by
    intro o ho
    rw [Text.repaired_of_isWhole (hw o ho), id]
  rw [repairedOptions, List.map_congr_left hsame, List.map_id, Dictionary.ofList_of_nodup hn]

theorem repairedOptions_idem (options : List (String × String)) :
    repairedOptions (repairedOptions options) = repairedOptions options :=
  repairedOptions_of_whole (Dictionary.nodup_ofList _) fun _ h ↦ isWhole_of_mem_repairedOptions h

/-- Texts by name, as members of a record. -/
def textMembers (entries : List (String × String)) : Members :=
  Dictionary.mapValues (fun _ s ↦ .text s) entries

/-- What is written are the repaired options. -/
theorem textsJson_eq (options : List (String × String)) :
    textsJson options = .record (textMembers (repairedOptions options)) := by
  have hmap : textMembers (options.map fun o ↦ (Text.repaired o.1, o.2)) =
      options.map fun o ↦ (Text.repaired o.1, .text o.2) := by
    rw [textMembers, Dictionary.mapValues, List.map_map]
    rfl
  rw [textsJson, Data.ofWritten, ← hmap, repairedOptions, textMembers, textMembers,
    Dictionary.mapValues_ofList]

theorem textsJson_repairedOptions (options : List (String × String)) :
    textsJson (repairedOptions options) = textsJson options := by
  rw [textsJson_eq, textsJson_eq, repairedOptions_idem]

theorem values_gives (entries : List (String × String)) :
    (values text (Data.dropNullsMembers (textMembers entries))).Gives entries := by
  induction entries with
  | nil => rfl
  | cons e rest ih =>
    obtain ⟨name, s⟩ := e
    have hfirst : (text (.text s)).Gives s := rfl
    exact ((hfirst.under _).map fun a ↦ List.cons (name, a)).seq ih

theorem reads_textsJson (options : List (String × String)) :
    Reads (dictionary text) (textsJson options) (repairedOptions options) := by
  rw [textsJson_eq]
  exact ⟨rfl, values_gives _⟩

theorem nodup_of_dictionary {α : Type} {read : Reader α} {v : Json} (hd : v.Distinct)
    {entries : List (String × α)} (h : dictionary read v = .ok entries) :
    (entries.map Prod.fst).Nodup := by
  cases v with
  | record ms =>
    rw [names_of_values h]
    exact (Data.distinct_record_iff.1 hd).1
  | _ => cases h

/-! ### Bindings -/

namespace Binding

/-- The binding as it is once it was written. -/
def repaired (b : Binding Interval) : Binding Interval :=
  { b with options := repairedOptions b.options }

/-- No surrogate stands alone in the name of an option. -/
def Whole {σ : Type} (b : Binding σ) : Prop :=
  ∀ o ∈ b.options, Text.isWhole o.1 = true

theorem whole_map {σ τ : Type} (f : σ → τ) (b : Binding σ) : (b.map f).Whole ↔ b.Whole := by
  have hmem : ∀ o, o ∈ (b.map f).options ↔ o ∈ b.options :=
    fun o ↦ (Dictionary.sort_perm b.options).mem_iff
  simp only [Whole, hmem]

theorem whole_repaired (b : Binding Interval) : b.repaired.Whole :=
  fun _ ho ↦ isWhole_of_mem_repairedOptions ho

theorem members_repaired (b : Binding Interval) : b.repaired.members = b.members := by
  rw [members, members, repaired, textsJson_repairedOptions]

theorem repaired_of_whole {b : Binding Interval} (hn : (b.options.map Prod.fst).Nodup)
    (hw : b.Whole) : b.repaired = b := by
  rw [repaired, repairedOptions_of_whole hn hw]

/-- The options of a binding that was read are a dictionary. -/
theorem nodup_of_fields {ms : Members} {b : Binding Interval} (hd : (Data.record ms).Distinct)
    (h : fields ms = .ok b) : (b.options.map Prod.fst).Nodup := by
  obtain ⟨_, options, h₃, hoptions, rfl⟩ := Checked.seq_eq_ok.1 h
  obtain ⟨_, _, h₂, -, rfl⟩ := Checked.seq_eq_ok.1 h₃
  obtain ⟨_, _, h₁, -, rfl⟩ := Checked.seq_eq_ok.1 h₂
  obtain ⟨_, -, rfl⟩ := Checked.map_eq_ok.1 h₁
  obtain ⟨v, hv, hread⟩ | ⟨-, rfl⟩ := fieldOr_eq_ok.1 hoptions
  · exact nodup_of_dictionary (hd.of_lookup hv) hread
  · exact List.nodup_nil

theorem fields_gives {b : Binding Interval} {kept : Members} (hk : Kept b.members kept) :
    (fields kept).Gives b.repaired := by
  have hlookup : Data.lookup "runtime" b.members = some (b.runtime.elim .null (·.toJson)) := by
    rw [members]
    cases b.runtime <;> rfl
  have hmapping : (fieldOr "mapping" (nullable text) none kept).Gives b.mapping :=
    hk.option rfl (readsOption_text b.mapping)
  have hsource : (fieldOr "mapping_source" (nullable Interval.reader) none kept).Gives
      b.mappingSource := hk.option rfl (readsOption_source b.mappingSource)
  have hruntime : (fieldOr "runtime" (nullable RuntimeValue.reader) none kept).Gives b.runtime :=
    hk.option hlookup (readsOption_self fun r _ ↦ r.reads_toJson)
  have hoptions : (fieldOr "execution_options" (dictionary text) [] kept).Gives
      (repairedOptions b.options) := hk.fieldOr rfl (reads_textsJson b.options)
  exact (((hmapping.map mk).seq hsource).seq hruntime).seq hoptions

end Binding

namespace Variant

/-- The variant as it is once it was written. -/
def repaired (v : Variant Interval) : Variant Interval :=
  { v with binding := v.binding.repaired }

theorem nodup_of_readable {v : Variant Interval} (h : Readable reader v) :
    (v.binding.options.map Prod.fst).Nodup := by
  obtain ⟨ms, hd, hms⟩ := readable_record h
  obtain ⟨_, _, h₂, -, rfl⟩ := Checked.seq_eq_ok.1 hms
  obtain ⟨_, b, h₁, hb, rfl⟩ := Checked.seq_eq_ok.1 h₂
  obtain ⟨_, -, rfl⟩ := Checked.map_eq_ok.1 h₁
  exact Binding.nodup_of_fields hd hb

theorem toJson_repaired (v : Variant Interval) : v.repaired.toJson = v.toJson := by
  rw [toJson, toJson, repaired, Binding.members_repaired]

theorem reads_toJson (v : Variant Interval) : Reads reader v.toJson v.repaired := by
  have hn : List.Nodup
      ["key", "mapping", "mapping_source", "runtime", "execution_options", "source"] := by decide
  refine reads_record hn fun ms hk ↦ ?_
  have hkey : (field "key" text ms).Gives v.key := hk.field rfl (reads_text v.key)
  have hbinding : (Binding.fields ms).Gives v.binding.repaired :=
    Binding.fields_gives (hk.of_sublist hn ((List.sublist_append_left _ _).cons _))
  exact ((hkey.map mk).seq hbinding).seq (hk.source rfl)

end Variant

/-! ### Executions -/

namespace Execution

/-- The execution as it is once it was written. -/
def repaired : Execution Interval → Execution Interval
  | single f b => single f b.repaired
  | multi f key vs => multi f key (vs.map Variant.repaired)

theorem func_repaired (e : Execution Interval) : e.repaired.func = e.func := by
  cases e <;> rfl

theorem toJson_repaired (e : Execution Interval) : e.repaired.toJson = e.toJson := by
  cases e with
  | single f b => rw [repaired, toJson, toJson, Binding.members_repaired]
  | multi f key vs =>
    have hvs : (vs.map Variant.repaired).map (·.toJson) = vs.map (·.toJson) := by
      rw [List.map_map]
      exact List.map_congr_left fun v _ ↦ v.toJson_repaired
    rw [repaired, toJson, toJson, hvs]

/-- What an execution may run against. -/
def bindings {σ : Type} : Execution σ → List (Binding σ)
  | single _ b => [b]
  | multi _ _ vs => vs.map (·.binding)

theorem bindings_map {σ τ : Type} (f : σ → τ) (e : Execution σ) :
    (e.map f).bindings = e.bindings.map (·.map f) := by
  cases e with
  | single l b => rfl
  | multi l key vs =>
    simp only [map, bindings, List.map_map]
    rfl

theorem bindings_repaired (e : Execution Interval) :
    e.repaired.bindings = e.bindings.map Binding.repaired := by
  cases e with
  | single f b => rfl
  | multi f key vs =>
    simp only [repaired, bindings, List.map_map]
    rfl

theorem repaired_of_whole {e : Execution Interval}
    (hn : ∀ b ∈ e.bindings, (b.options.map Prod.fst).Nodup) (hw : ∀ b ∈ e.bindings, b.Whole) :
    e.repaired = e := by
  cases e with
  | single f b =>
    have hb : b ∈ (single f b).bindings := List.mem_singleton_self b
    rw [repaired, Binding.repaired_of_whole (hn b hb) (hw b hb)]
  | multi f key vs =>
    have hvs : ∀ v ∈ vs, v.repaired = id v := by
      intro v hv
      have hb : v.binding ∈ (multi f key vs).bindings := List.mem_map_of_mem hv
      rw [Variant.repaired, Binding.repaired_of_whole (hn _ hb) (hw _ hb), id]
    rw [repaired, List.map_congr_left hvs, List.map_id]

/-- The lambda of an execution that was read was read itself, and its options are dictionaries. -/
theorem parts_of_readable {e : Execution Interval} (h : Readable reader e) :
    (∀ l ∈ e.func, Readable Lambda.reader l) ∧
      ∀ b ∈ e.bindings, (b.options.map Prod.fst).Nodup := by
  obtain ⟨c, hc, hread⟩ := readable_of_union h
  rcases List.mem_cons.1 hc with rfl | hc
  · obtain ⟨ms, hd, hms⟩ := readable_record hread
    obtain ⟨_, b, h₂, hb, rfl⟩ := Checked.seq_eq_ok.1 hms
    obtain ⟨_, f, h₁, hf, rfl⟩ := Checked.seq_eq_ok.1 h₂
    obtain ⟨_, -, rfl⟩ := Checked.map_eq_ok.1 h₁
    refine ⟨readable_of_optionField hd hf, fun b' hb' ↦ ?_⟩
    obtain rfl := List.mem_singleton.1 hb'
    exact Binding.nodup_of_fields hd hb
  · obtain rfl := List.mem_singleton.1 hc
    obtain ⟨ms, hd, hms⟩ := readable_record hread
    obtain ⟨_, vs, h₃, hvs, rfl⟩ := Checked.seq_eq_ok.1 hms
    obtain ⟨_, key, h₂, -, rfl⟩ := Checked.seq_eq_ok.1 h₃
    obtain ⟨_, f, h₁, hf, rfl⟩ := Checked.seq_eq_ok.1 h₂
    obtain ⟨_, -, rfl⟩ := Checked.map_eq_ok.1 h₁
    refine ⟨readable_of_optionField hd hf, fun b hb ↦ ?_⟩
    obtain ⟨v, hv, rfl⟩ := List.mem_map.1 hb
    exact Variant.nodup_of_readable (readable_of_listField hd hvs v hv)

theorem reads_single {f : Option (Lambda Interval)} (hf : ∀ l ∈ f, Readable Lambda.reader l)
    (b : Binding Interval) :
    Reads reader (single f b).toJson (single f b).repaired := by
  have hn : List.Nodup
      ["kind", "func", "mapping", "mapping_source", "runtime", "execution_options"] := by decide
  refine reads_union hn rfl rfl (reads_record hn fun ms hk ↦ ?_)
  have hkind : (kind "single" ms).Gives "single" := hk.kind rfl
  have hfunc : (funcField ms).Gives f := hk.option rfl (readsOption_lambda hf)
  have hbinding : (Binding.fields ms).Gives b.repaired :=
    Binding.fields_gives (hk.of_sublist hn (((List.Sublist.refl b.members).cons _).cons _))
  exact ((hkind.map fun _ ↦ single).seq hfunc).seq hbinding

theorem reads_multi {f : Option (Lambda Interval)} (hf : ∀ l ∈ f, Readable Lambda.reader l)
    (key : String) (vs : List (Variant Interval)) :
    Reads reader (multi f key vs).toJson (multi f key vs).repaired := by
  have hn : List.Nodup ["kind", "func", "execution_key", "execution_parameters"] := by decide
  have hvs : Reads (list Variant.reader) (.list (vs.map (·.toJson))) (vs.map Variant.repaired) :=
    reads_list_map fun v _ ↦ v.reads_toJson
  refine reads_union hn rfl rfl (reads_record hn fun ms hk ↦ ?_)
  have hkind : (kind "multi" ms).Gives "multi" := hk.kind rfl
  have hfunc : (funcField ms).Gives f := hk.option rfl (readsOption_lambda hf)
  have hkey : (field "execution_key" text ms).Gives key := hk.field rfl (reads_text key)
  exact (((hkind.map fun _ ↦ multi).seq hfunc).seq hkey).seq (hk.fieldOr rfl hvs)

theorem reads_toJson {e : Execution Interval} (h : Readable reader e) :
    Reads reader e.toJson e.repaired := by
  obtain ⟨hf, -⟩ := parts_of_readable h
  cases e with
  | single f b => exact reads_single hf b
  | multi f key vs => exact reads_multi hf key vs

end Execution

end ModelServer
