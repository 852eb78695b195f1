import ModelServer.Proofs.Schema.Inside

/-!
# Reading what was written

A value is posted without its nulls, so what matters of a written value is what it reads as once
they are dropped: `Reads read v a`. The laws are one for each way of putting readers together. A
record is read field by field, and `Checked.Gives` has the shape of the reader: where that maps a
field and goes on to the next, so does the proof that it gives the record back.

**A null must not be read as nothing.** A member whose value is null is not there afterwards, so a
value that is written for a field must not be null (`Reads` says so), unless null stands for leaving
the field out (`ReadsOption`).

`Readable read a` says that `a` was read from something. Some readers take less than the type has
room for, and what they do not take cannot be given back. What `a` was read from is a value as texts
denote them: a dictionary that is read from a record has no key twice because the record has none.
-/

namespace ModelServer.Schema

variable {α β : Type}

/-! ### Checks that succeed -/

namespace Checked

/-- The check finds nothing wrong, and that value. -/
def Gives (c : Checked α) (a : α) : Prop :=
  c = .ok a

theorem Gives.map {c : Checked α} {a : α} (h : c.Gives a) (f : α → β) : (c.map f).Gives (f a) := by
  rw [Gives] at *
  rw [h, map_ok]

theorem Gives.seq {c : Checked (α → β)} {d : Checked α} {f : α → β} {a : α} (hf : c.Gives f)
    (ha : d.Gives a) : (c.seq d).Gives (f a) := by
  rw [Gives] at *
  rw [hf, ha, seq_ok]

theorem Gives.under {c : Checked α} {a : α} (h : c.Gives a) (step : Step) :
    (c.under step).Gives a :=
  under_eq_ok.2 h

theorem Gives.andThen {c : Checked α} {a : α} {f : α → Checked β} {b : β} (h : c.Gives a)
    (hf : (f a).Gives b) : (c.andThen f).Gives b :=
  andThen_eq_ok.2 ⟨a, h, hf⟩

end Checked

/-! ### Values that are read back -/

/-- The value is not null, and reads as `a` without its nulls. -/
def Reads (read : Reader α) (v : Json) (a : α) : Prop :=
  v.isNull = false ∧ (read v.dropNulls).Gives a

/-- What can be looked up among `kept` is what can be looked up among the members, without its nulls
and unless it is null itself. -/
def Kept (ms kept : Members) : Prop :=
  ∀ name v, Data.lookup name ms = some v →
    Data.lookup name kept = if v.isNull then none else some v.dropNulls

/-- The value is null where there is nothing, and reads as what there is otherwise. -/
def ReadsOption (read : Reader α) (v : Json) : Option α → Prop
  | none => v = .null
  | some a => Reads read v a

variable {read : Reader α} {v : Json} {a : α}

theorem Reads.map (h : Reads read v a) (f : α → β) : Reads (fun w ↦ (read w).map f) v (f a) :=
  ⟨h.1, h.2.map f⟩

theorem reads_text (s : String) : Reads text (.text s) s :=
  ⟨rfl, rfl⟩

/-- A record is read back if its fields are, whatever `kept` its members are once their nulls are
dropped. -/
theorem reads_record {title : String} {fields : Members → Checked α} {ms : Members}
    (hn : (ms.map Prod.fst).Nodup) (h : ∀ kept, Kept ms kept → (fields kept).Gives a) :
    Reads (record title fields) (.record ms) a :=
  ⟨rfl, h _ fun _ _ ↦ Data.lookup_dropNullsMembers hn⟩

theorem reads_items {vs : List Json} {as : List α} (h : List.Forall₂ (Reads read) vs as)
    (index : Nat) : (items read index (vs.map Data.dropNulls)).Gives as := by
  induction h generalizing index with
  | nil => rfl
  | cons hfirst _ ih => exact ((hfirst.2.under _).map List.cons).seq (ih (index + 1))

theorem reads_list {vs : List Json} {as : List α} (h : List.Forall₂ (Reads read) vs as) :
    Reads (list read) (.list vs) as := by
  refine ⟨rfl, ?_⟩
  rw [Data.dropNulls, Data.dropNullsList_eq_map]
  exact reads_items h 0

/-- A list of which each item is read back, changed by `f`, is so itself. -/
theorem reads_list_map {write : α → Json} {f : α → α} {as : List α}
    (h : ∀ a ∈ as, Reads read (write a) (f a)) :
    Reads (list read) (.list (as.map write)) (as.map f) := by
  refine reads_list ?_
  rw [List.forall₂_map_left_iff, List.forall₂_map_right_iff, List.forall₂_same]
  exact h

theorem reads_list_self {write : α → Json} {as : List α}
    (h : ∀ a ∈ as, Reads read (write a) a) : Reads (list read) (.list (as.map write)) as := by
  have hmap := reads_list_map (f := id) h
  rwa [List.map_id] at hmap

/-- Where there is a value that is read back, changed by `f`, and where there is none. -/
theorem readsOption_map {write : α → Json} {f : α → α} {o : Option α}
    (h : ∀ a ∈ o, Reads read (write a) (f a)) :
    ReadsOption read (o.elim .null write) (o.map f) := by
  cases o with
  | none => rfl
  | some a => exact h a rfl

theorem readsOption_self {write : α → Json} {o : Option α} (h : ∀ a ∈ o, Reads read (write a) a) :
    ReadsOption read (o.elim .null write) o := by
  have hmap := readsOption_map (f := id) h
  rwa [Option.map_id_fun, id_eq] at hmap

/-- A record of one of several kinds is read by the reader of its kind. -/
theorem reads_union {cases : List (String × Reader α)} {tag : String} {ms : Members}
    (hn : (ms.map Prod.fst).Nodup) (htag : Data.lookup "kind" ms = some (.text tag))
    (hread : cases.find? (·.1 = tag) = some (tag, read)) (h : Reads read (.record ms) a) :
    Reads (union cases) (.record ms) a := by
  refine ⟨rfl, ?_⟩
  have hkind : Data.lookup "kind" (Data.dropNullsMembers ms) = some (.text tag) :=
    Data.lookup_dropNullsMembers hn htag
  rw [Data.dropNulls, union, hkind]
  simp only [Data.text?, Option.bind_some, hread]
  exact h.2.under _

/-- A value that is not null is read by what reads it otherwise. -/
theorem nullable_of_not_isNull (h : v.isNull = false) : nullable read v = (read v).map some := by
  cases v with
  | null => cases h
  | _ => rfl

/-! ### Fields that are read back -/

namespace Kept

variable {name : String} {ms kept : Members}

theorem lookup (hk : Kept ms kept) (hv : Data.lookup name ms = some v) (h : v.isNull = false) :
    Data.lookup name kept = some v.dropNulls := by
  rw [hk name v hv, h, if_neg Bool.false_ne_true]

theorem field (hk : Kept ms kept) (hv : Data.lookup name ms = some v) (h : Reads read v a) :
    (field name read kept).Gives a :=
  field_eq_ok.2 ⟨v.dropNulls, hk.lookup hv h.1, h.2⟩

theorem fieldOr (hk : Kept ms kept) (hv : Data.lookup name ms = some v) (h : Reads read v a)
    {absent : α} : (fieldOr name read absent kept).Gives a :=
  fieldOr_eq_ok.2 (.inl ⟨v.dropNulls, hk.lookup hv h.1, h.2⟩)

theorem option (hk : Kept ms kept) (hv : Data.lookup name ms = some v) {o : Option α}
    (h : ReadsOption read v o) : (Schema.fieldOr name (nullable read) none kept).Gives o := by
  cases o with
  | none =>
    obtain rfl : v = .null := h
    exact fieldOr_eq_ok.2 (.inr ⟨hk name .null hv, rfl⟩)
  | some a =>
    have hnull : v.dropNulls.isNull = false := (Data.isNull_dropNulls v).trans h.1
    -- The value is still not null, so it is read as a value and not as nothing.
    refine hk.fieldOr hv ⟨h.1, ?_⟩
    rw [nullable_of_not_isNull hnull]
    exact h.2.map some

theorem kind (hk : Kept ms kept) {tag : String} (hv : Data.lookup "kind" ms = some (.text tag)) :
    (kind tag kept).Gives tag := by
  refine hk.fieldOr hv ⟨rfl, ?_⟩
  show (if tag = tag then Checked.ok tag else _) = .ok tag
  exact if_pos rfl

/-- What is kept of some of the members. -/
theorem of_sublist (hk : Kept ms kept) (hn : (ms.map Prod.fst).Nodup) {some : Members}
    (hsub : some.Sublist ms) : Kept some kept := by
  intro name v hv
  have hmem : (name, v) ∈ ms := hsub.mem (Dictionary.mem_of_lookup hv)
  exact hk name v ((Dictionary.lookup_eq_some_iff_mem hn).2 hmem)

end Kept

/-! ### Values that were read -/

/-- The value was read from something, in which no record has a name twice. -/
def Readable (read : Reader α) (a : α) : Prop :=
  ∃ v, v.Distinct ∧ read v = .ok a

/-- A record was read from members. -/
theorem readable_record {title : String} {fields : Members → Checked α}
    (h : Readable (record title fields) a) :
    ∃ ms, (Data.record ms).Distinct ∧ fields ms = .ok a := by
  obtain ⟨v, hd, hv⟩ := h
  obtain ⟨ms, rfl, hms⟩ := record_eq_ok.1 hv
  exact ⟨ms, hd, hms⟩

/-- What was read from a value that stands in the one given was read from a value like it. -/
theorem readable_of_standsIn (hd : v.Distinct) (h : StandsIn read v a) : Readable read a := by
  obtain ⟨w, hw, hread⟩ := h
  exact ⟨w, hd.of_inside hw, hread⟩

section Fields

variable {name : String} {ms : Members} (hd : (Data.record ms).Distinct)

include hd

theorem readable_of_listField {as : List α} (h : fieldOr name (list read) [] ms = .ok as) :
    ∀ a ∈ as, Readable read a :=
  fun a ha ↦ readable_of_standsIn hd (standsIn_of_listField h a ha)

theorem readable_of_optionField {o : Option α} (h : fieldOr name (nullable read) none ms = .ok o) :
    ∀ a ∈ o, Readable read a :=
  fun a ha ↦ readable_of_standsIn hd (standsIn_of_optionField h a (Option.mem_toList.2 ha))

end Fields

/-- A record of one of several kinds was read by the reader of one of them. -/
theorem readable_of_union {cases : List (String × Reader α)} (h : Readable (union cases) a) :
    ∃ c ∈ cases, Readable c.2 a := by
  obtain ⟨v, hd, hv⟩ := h
  obtain ⟨ms, tag, read, -, -, hfind, hread⟩ := union_eq_ok.1 hv
  exact ⟨(tag, read), List.mem_of_find?_eq_some hfind, v, hd, hread⟩

end ModelServer.Schema
