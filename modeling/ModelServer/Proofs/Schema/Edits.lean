import Mathlib.Logic.Relation
import ModelServer.Proofs.Dictionary
import ModelServer.Proofs.Schema.Checked

/-!
# Edits that a schema does not see

A schema says in which parts of a value it looks for records (`Shape`) and which members each kind of record
declares (`Vocabulary`). An `Edit` is a small change at any depth of a value that should not count: the
members of an object are written in another order, or an object that is looked at as a record gets a member
more that its kind does not declare.

A reader `Respects` edits if it takes a value just when it takes the edited one, and what it reads is the
same but for what a function `f` of it forgets. This is proved the way readers are put together. What a
record declares is all that is looked at in it, so for a record two lists of members need only `Agree`: under
each name that is declared there is the same value, an edited one, or none in both.
-/

namespace ModelServer.Schema

/-! ### Values of checks that are put together -/

namespace Checked

variable {α β : Type}

@[simp] theorem value?_map (f : α → β) (c : Checked α) : (c.map f).value? = c.value?.map f := by
  cases c <;> rfl

@[simp] theorem value?_seq (f : Checked (α → β)) (c : Checked α) :
    (f.seq c).value? = f.value?.bind fun g ↦ c.value?.map g := by
  cases f <;> cases c <;> rfl

@[simp] theorem value?_andThen (f : α → Checked β) (c : Checked α) :
    (c.andThen f).value? = c.value?.bind fun a ↦ (f a).value? := by
  cases c <;> rfl

@[simp] theorem value?_under (step : Step) (c : Checked α) : (c.under step).value? = c.value? := by
  cases c <;> rfl

theorem value?_eq_some_iff {c : Checked α} {a : α} : c.value? = some a ↔ c = ok a := by
  cases c <;> simp [value?]

end Checked

/-! ### Shapes and edits -/

/-- Where a schema looks for records in a value. -/
inductive Shape (κ : Type) where
  /-- Nowhere. -/
  | plain
  | record (k : κ)
  | list (item : Shape κ)
  /-- The value is a record of the kind that its member `kind` names. -/
  | union (cases : List (String × κ))
  deriving DecidableEq

variable {κ : Type}

namespace Shape

/-- The shape of an item, if the value is a list. -/
def item : Shape κ → Shape κ
  | list s => s
  | _ => plain

/-- What the members are looked at as, if the value is an object with these. -/
def kind? : Shape κ → Members → Option κ
  | record k, _ => some k
  | union cases, ms => ((Data.lookup "kind" ms).bind (·.text?)).bind fun tag ↦ cases.lookup tag
  | _, _ => none

end Shape

/-- The members that each kind of record declares. -/
structure Vocabulary (κ : Type) where
  fields : κ → List (String × Shape κ)
  nodup : ∀ k, ((fields k).map Prod.fst).Nodup

namespace Vocabulary

variable (V : Vocabulary κ)

/-- The shape of a member, given that of the object it is in. -/
def member (sh : Shape κ) (ms : Members) (name : String) : Shape κ :=
  ((sh.kind? ms).bind fun k ↦ (V.fields k).lookup name).getD .plain

/-- A small change somewhere in a value that is to be of that shape. -/
inductive Edit : Shape κ → Json → Json → Prop
  /-- The members of an object are written in another order. -/
  | permute {sh : Shape κ} {ms ms' : Members} (hn : (ms.map Prod.fst).Nodup) (h : ms.Perm ms') :
    Edit sh (.record ms) (.record ms')
  /-- A record gets a member that its kind does not declare. -/
  | add {sh : Shape κ} {before after : Members} {k : κ} {name : String} {v : Json}
    (hk : sh.kind? (before ++ after) = some k) (hname : name ∉ (V.fields k).map Prod.fst) :
    Edit sh (.record (before ++ after)) (.record (before ++ (name, v) :: after))
  | member {sh : Shape κ} {before after : Members} {name : String} {v v' : Json}
    (h : Edit (V.member sh (before ++ (name, v) :: after) name) v v') :
    Edit sh (.record (before ++ (name, v) :: after)) (.record (before ++ (name, v') :: after))
  | item {sh : Shape κ} {before after : List Json} {v v' : Json} (h : Edit sh.item v v') :
    Edit sh (.list (before ++ v :: after)) (.list (before ++ v' :: after))

/-- Under each of these names there is the same value in both, an edited one in the second, or none. -/
def Agree (declared : List (String × Shape κ)) (ms ms' : Members) : Prop :=
  ∀ name sh, (name, sh) ∈ declared →
    Option.Rel (Relation.ReflGen (V.Edit sh)) (Data.lookup name ms) (Data.lookup name ms')

/-- The reader takes a value just if it takes the edited one, and reads the same but for what `f` forgets. -/
def Respects {α β : Type} (sh : Shape κ) (read : Reader α) (f : α → β) : Prop :=
  ∀ v v', V.Edit sh v v' → (read v).value?.map f = (read v').value?.map f

/-- The reader takes a value just if it takes the edited one, and reads the same. -/
abbrev Keeps {α : Type} (sh : Shape κ) (read : Reader α) : Prop :=
  V.Respects sh read id

end Vocabulary

variable {V : Vocabulary κ} {sh : Shape κ} {v v' : Json} {ms ms' : Members}
  {declared : List (String × Shape κ)} {α β : Type}

/-! ### What an edit leaves as it is -/

/-- Of two lists that differ in one item all others are the same. -/
theorem forall₂_replace {γ : Type} {R : γ → γ → Prop} (hrefl : ∀ c, R c c) {c c' : γ} (h : R c c')
    (before after : List γ) : List.Forall₂ R (before ++ c :: after) (before ++ c' :: after) :=
  List.rel_append (List.forall₂_same.2 fun d _ ↦ hrefl d)
    (.cons h (List.forall₂_same.2 fun d _ ↦ hrefl d))

/-- An edit is of an object or of a list, and of a list it changes one item. -/
theorem Vocabulary.Edit.cases (h : V.Edit sh v v') : (∃ ms ms', v = .record ms ∧ v' = .record ms') ∨
    ∃ vs vs', v = .list vs ∧ v' = .list vs' ∧
      List.Forall₂ (Relation.ReflGen (V.Edit sh.item)) vs vs' := by
  cases h with
  | permute | add | member => exact .inl ⟨_, _, rfl, rfl⟩
  | item h =>
    exact .inr ⟨_, _, rfl, rfl, forall₂_replace (fun _ ↦ .refl) (.single h) _ _⟩

theorem Vocabulary.Edit.text? (h : V.Edit sh v v') : v.text? = v'.text? := by
  obtain ⟨_, _, rfl, rfl⟩ | ⟨_, _, rfl, rfl, -⟩ := h.cases <;> rfl

/-- Another member does not count when one is looked up. -/
theorem lookup_append_cons_of_ne {before after : Members} {name other : String} (h : other ≠ name) :
    Data.lookup other (before ++ (name, v) :: after) = Data.lookup other (before ++ after) := by
  rw [Data.lookup, Data.lookup, List.lookup_append, List.lookup_append, List.lookup_cons,
    beq_false_of_ne h]

/-- **An edit of an object leaves what a record declares in agreement.** -/
theorem Vocabulary.Edit.agree {k : κ} (h : V.Edit sh (.record ms) v) (hk : sh.kind? ms = some k) :
    ∃ ms', v = .record ms' ∧ V.Agree (V.fields k) ms ms' := by
  have hrefl (sh : Shape κ) (o : Option Json) : Option.Rel (Relation.ReflGen (V.Edit sh)) o o := by
    cases o with
    | none => exact .none
    | some _ => exact .some .refl
  cases h with
  | permute hn hperm =>
    refine ⟨_, rfl, fun name sh _ ↦ ?_⟩
    rw [Data.lookup, Data.lookup, Dictionary.lookup_of_perm hn hperm]
    exact hrefl sh _
  | @add _ before after k' name added hk' hname =>
    obtain rfl := Option.some.inj (hk.symm.trans hk')
    refine ⟨_, rfl, fun other sh hmem ↦ ?_⟩
    have hne : other ≠ name := by
      rintro rfl
      exact hname (List.mem_map_of_mem hmem)
    rw [lookup_append_cons_of_ne hne]
    exact hrefl sh _
  | @member _ before after name w w' h =>
    refine ⟨_, rfl, fun other sh hmem ↦ ?_⟩
    by_cases hother : other = name
    · obtain rfl := hother
      rw [Vocabulary.member, hk, Option.bind_some,
        (Dictionary.lookup_eq_some_iff_mem (V.nodup k)).2 hmem, Option.getD_some] at h
      -- Of two members of one name the first is found.
      simp only [Data.lookup, List.lookup_append, List.lookup_cons_self]
      cases before.lookup other with
      | none => exact .some (.single h)
      | some _ => exact .some .refl
    · rw [lookup_append_cons_of_ne hother, lookup_append_cons_of_ne hother]
      exact hrefl sh _

/-- Less needs to agree if less is declared. -/
theorem Vocabulary.Agree.mono {fewer : List (String × Shape κ)} (h : V.Agree declared ms ms')
    (hsub : fewer ⊆ declared) : V.Agree fewer ms ms' :=
  fun name sh hmem ↦ h name sh (hsub hmem)

/-! ### Members -/

section Members

variable {name : String} {read : Reader α} {f : α → β}

theorem Vocabulary.Respects.of_reflGen (hr : V.Respects sh read f) (h : Relation.ReflGen (V.Edit sh) v v') :
    (read v).value?.map f = (read v').value?.map f := by
  cases h with
  | refl => rfl
  | single h => exact hr v v' h

theorem Vocabulary.Agree.map_field (h : V.Agree declared ms ms') (hr : V.Respects sh read f)
    (hmem : (name, sh) ∈ declared) :
    (field name read ms).value?.map f = (field name read ms').value?.map f := by
  have hrel := h name sh hmem
  rw [field, field]
  generalize Data.lookup name ms = o at hrel ⊢
  generalize Data.lookup name ms' = o' at hrel ⊢
  cases hrel with
  | none => rfl
  | some h =>
    simp only [Checked.value?_under]
    exact hr.of_reflGen h

theorem Vocabulary.Agree.map_fieldOr (h : V.Agree declared ms ms') (hr : V.Respects sh read f)
    (hmem : (name, sh) ∈ declared) (absent : α) :
    (fieldOr name read absent ms).value?.map f = (fieldOr name read absent ms').value?.map f := by
  have hrel := h name sh hmem
  rw [fieldOr, fieldOr]
  generalize Data.lookup name ms = o at hrel ⊢
  generalize Data.lookup name ms' = o' at hrel ⊢
  cases hrel with
  | none => rfl
  | some h =>
    simp only [Checked.value?_under]
    exact hr.of_reflGen h

theorem Vocabulary.Agree.field (h : V.Agree declared ms ms') (hr : V.Keeps sh read)
    (hmem : (name, sh) ∈ declared) : (field name read ms).value? = (field name read ms').value? := by
  simpa only [Option.map_id_fun, id_eq] using h.map_field hr hmem

theorem Vocabulary.Agree.fieldOr (h : V.Agree declared ms ms') (hr : V.Keeps sh read)
    (hmem : (name, sh) ∈ declared) (absent : α) :
    (fieldOr name read absent ms).value? = (fieldOr name read absent ms').value? := by
  simpa only [Option.map_id_fun, id_eq] using h.map_fieldOr hr hmem absent

end Members

/-! ### Lists of values, read one by one -/

section Items

variable {γ : Type} {g : γ → Option α} {cs cs' : List γ}

theorem map_mapM (g : γ → Option α) (f : α → β) (cs : List γ) :
    (cs.mapM g).map (List.map f) = cs.mapM fun c ↦ (g c).map f := by
  induction cs with
  | nil => rfl
  | cons c rest ih =>
    rw [List.mapM_cons, List.mapM_cons, ← ih]
    cases g c with
    | none => rfl
    | some a => cases rest.mapM g <;> rfl

theorem mapM_congr_forall₂ (h : List.Forall₂ (fun c c' ↦ g c = g c') cs cs') :
    cs.mapM g = cs'.mapM g := by
  induction h with
  | nil => rfl
  | cons hfirst _ ih => rw [List.mapM_cons, List.mapM_cons, hfirst, ih]

theorem mapM_replace {c c' : γ} (h : g c = g c') (before after : List γ) :
    (before ++ c :: after).mapM g = (before ++ c' :: after).mapM g :=
  mapM_congr_forall₂ (forall₂_replace (R := fun d d' ↦ g d = g d') (fun _ ↦ rfl) h before after)

/-- Of items in another order the same is read, in another order. -/
theorem mapM_perm (h : cs.Perm cs') : Option.Rel List.Perm (cs.mapM g) (cs'.mapM g) := by
  induction h with
  | nil => exact .some (.refl _)
  | @cons c rest rest' _ ih =>
    rw [List.mapM_cons, List.mapM_cons]
    generalize rest.mapM g = o at ih ⊢
    generalize rest'.mapM g = o' at ih ⊢
    cases g c with
    | none => exact .none
    | some a =>
      cases ih with
      | none => exact .none
      | some h => exact .some (h.cons a)
  | swap c d rest =>
    simp only [List.mapM_cons]
    cases g c <;> cases g d <;> cases rest.mapM g
    all_goals first | exact .none | exact .some (.swap _ _ _)
  | @trans cs₁ cs₂ cs₃ _ _ ih ih' =>
    generalize cs₁.mapM g = o₁ at ih ⊢
    generalize cs₂.mapM g = o₂ at ih ih'
    generalize cs₃.mapM g = o₃ at ih' ⊢
    cases ih with
    | none =>
      cases ih'
      exact .none
    | some h =>
      cases ih' with
      | some h' => exact .some (h.trans h')

theorem value?_items (read : Reader α) (index : Nat) (vs : List Json) :
    (items read index vs).value? = vs.mapM fun v ↦ (read v).value? := by
  induction vs generalizing index with
  | nil => rfl
  | cons v rest ih =>
    rw [items, Checked.value?_seq, Checked.value?_map, Checked.value?_under, ih, List.mapM_cons]
    cases (read v).value? with
    | none => rfl
    | some a => cases rest.mapM fun v ↦ (read v).value? <;> rfl

theorem value?_values (read : Reader α) (ms : Members) :
    (values read ms).value? = ms.mapM fun m ↦ (read m.2).value?.map (m.1, ·) := by
  induction ms with
  | nil => rfl
  | cons m rest ih =>
    rw [values, Checked.value?_seq, Checked.value?_map, Checked.value?_under, ih, List.mapM_cons]
    cases (read m.2).value? with
    | none => rfl
    | some a => cases rest.mapM fun m ↦ (read m.2).value?.map (m.1, ·) <;> rfl

end Items

/-! ### Readers -/

namespace Vocabulary

variable {read : Reader α} {f : α → β}

/-- A reader that takes neither objects nor lists has nothing to do with edits. -/
theorem respects_scalar (hrecord : ∀ ms, (read (.record ms)).value? = none)
    (hlist : ∀ vs, (read (.list vs)).value? = none) : V.Respects sh read f := by
  intro v v' h
  obtain ⟨ms, ms', rfl, rfl⟩ | ⟨vs, vs', rfl, rfl, -⟩ := h.cases
  · rw [hrecord, hrecord]
  · rw [hlist, hlist]

theorem keeps_text : V.Keeps sh text :=
  respects_scalar (fun _ ↦ rfl) fun _ ↦ rfl

theorem Keeps.value?_eq (h : V.Keeps sh read) (hedit : Relation.ReflGen (V.Edit sh) v v') :
    (read v).value? = (read v').value? := by
  simpa only [Option.map_id_fun, id_eq] using h.of_reflGen hedit

theorem Keeps.map (h : V.Keeps sh read) (g : α → β) : V.Keeps sh fun v ↦ (read v).map g := by
  intro v v' hedit
  rw [Checked.value?_map, Checked.value?_map, h.value?_eq (.single hedit)]

theorem Respects.nullable (h : V.Respects sh read f) : V.Respects sh (nullable read) (Option.map f) := by
  intro v v' hedit
  have hmap := congrArg (Option.map some) (h v v' hedit)
  obtain ⟨ms, ms', rfl, rfl⟩ | ⟨vs, vs', rfl, rfl, -⟩ := hedit.cases <;>
    simpa only [Schema.nullable, Checked.value?_map, Option.map_map, Function.comp_def, Option.map_some]
      using hmap

theorem Keeps.nullable (h : V.Keeps sh read) : V.Keeps sh (Schema.nullable read) := by
  simpa only [Option.map_id_fun] using Respects.nullable h

theorem Respects.list (h : V.Respects sh read f) : V.Respects (.list sh) (list read) (List.map f) := by
  intro v v' hedit
  obtain ⟨ms, ms', rfl, rfl⟩ | ⟨vs, vs', rfl, rfl, hitems⟩ := hedit.cases
  · rfl
  · rw [Schema.list, Schema.list, value?_items, value?_items, map_mapM, map_mapM]
    exact mapM_congr_forall₂ (hitems.imp fun _ _ ↦ h.of_reflGen)

theorem Keeps.list (h : V.Keeps sh read) : V.Keeps (.list sh) (Schema.list read) := by
  simpa only [List.map_id_fun] using Respects.list h

/-- **A dictionary of texts is read whatever the order of its members.** -/
theorem respects_dictionary : V.Respects .plain (dictionary text) Dictionary.sort := by
  intro v v' hedit
  cases hedit with
  | @permute _ ms ms' hn hperm =>
    have hrel := mapM_perm (g := fun m ↦ (text m.2).value?.map (m.1, ·)) hperm
    rw [← value?_values, ← value?_values] at hrel
    rw [dictionary, dictionary]
    have hnames (es : List (String × String)) (h : (values text ms).value? = some es) :
        es.map Prod.fst = ms.map Prod.fst := names_of_values (Checked.value?_eq_some_iff.1 h)
    generalize (values text ms).value? = o at hrel hnames ⊢
    generalize (values text ms').value? = o' at hrel ⊢
    cases hrel with
    | none => rfl
    | some h =>
      rw [Option.map_some, Option.map_some, Dictionary.sort_of_perm (by rwa [hnames _ rfl]) h]
  | add hk => cases hk
  | @member _ before after name w w' h =>
    -- What is edited is no text, and then none of the two is read.
    have htext := keeps_text.value?_eq (.single h)
    rw [dictionary, dictionary, value?_values, value?_values]
    exact congrArg _ (mapM_replace (by simp only [htext]) before after)
  | item => rfl

/-- **A record is read from what it declares.** -/
theorem respects_record {k : κ} {title : String} {fields : Members → Checked α}
    (h : ∀ ms ms', V.Agree (V.fields k) ms ms' →
      (fields ms).value?.map f = (fields ms').value?.map f) :
    V.Respects (.record k) (Schema.record title fields) f := by
  intro v v' hedit
  obtain ⟨ms, ms', rfl, rfl⟩ | ⟨vs, vs', rfl, rfl, -⟩ := hedit.cases
  · obtain ⟨ms'', heq, hagree⟩ := hedit.agree rfl
    cases heq
    exact h ms ms' hagree
  · rfl

theorem keeps_record {k : κ} {title : String} {fields : Members → Checked α}
    (h : ∀ ms ms', V.Agree (V.fields k) ms ms' → (fields ms).value? = (fields ms').value?) :
    V.Keeps (.record k) (Schema.record title fields) :=
  respects_record fun ms ms' hagree ↦ congrArg (Option.map id) (h ms ms' hagree)

/-- An edit of a record is one that its kind allows. -/
theorem Edit.as_record {k : κ} (h : V.Edit sh (.record ms) v) (hk : sh.kind? ms = some k) :
    V.Edit (.record k) (.record ms) v := by
  cases h with
  | permute hn hperm => exact .permute hn hperm
  | add hk' hname =>
    obtain rfl := Option.some.inj (hk.symm.trans hk')
    exact .add rfl hname
  | member h =>
    refine .member ?_
    rw [Vocabulary.member, hk] at h
    exact h

/-- A text that is declared is not edited. -/
theorem Edit.bind_text? (h : V.Edit sh (.record ms) (.record ms')) (name : String)
    (hdeclared : ∀ k, sh.kind? ms = some k → name ∈ (V.fields k).map Prod.fst) :
    (Data.lookup name ms).bind (·.text?) = (Data.lookup name ms').bind (·.text?) := by
  cases h with
  | permute hn hperm => rw [Data.lookup, Data.lookup, Dictionary.lookup_of_perm hn hperm]
  | add hk hname =>
    rw [lookup_append_cons_of_ne]
    rintro rfl
    exact hname (hdeclared _ hk)
  | @member _ before after other w w' h =>
    by_cases hother : name = other
    · obtain rfl := hother
      simp only [Data.lookup, List.lookup_append, List.lookup_cons_self]
      cases before.lookup name with
      | none => exact h.text?
      | some _ => rfl
    · rw [lookup_append_cons_of_ne hother, lookup_append_cons_of_ne hother]

/-- A record of one of several kinds is read by the reader of the kind that it names. -/
theorem value?_union (readers : List (String × Reader α)) (ms : Members) :
    (union readers (.record ms)).value? =
      ((Data.lookup "kind" ms).bind (·.text?)).bind fun tag ↦
        (readers.find? (·.1 = tag)).bind fun r ↦ (r.2 (.record ms)).value? := by
  rw [union]
  cases Data.lookup "kind" ms with
  | none => rfl
  | some tag =>
    dsimp only
    rw [Option.bind_some]
    cases tag.text? with
    | none => rfl
    | some t =>
      rw [Option.bind_some, Option.bind_some]
      cases readers.find? (·.1 = t) with
      | none => rfl
      | some r => exact Checked.value?_under _ _

/-- The reader under a name is one for the kind under that name. -/
theorem rel_lookup_find? {R : κ → Reader α → Prop} {cases : List (String × κ)}
    {readers : List (String × Reader α)}
    (h : List.Forall₂ (fun c r ↦ c.1 = r.1 ∧ R c.2 r.2) cases readers) (tag : String) :
    Option.Rel (fun k r ↦ R k r.2) (cases.lookup tag) (readers.find? (·.1 = tag)) := by
  induction h with
  | nil => exact .none
  | @cons c r _ _ hfirst _ ih =>
    rw [List.lookup_cons, List.find?_cons]
    by_cases htag : tag = c.1
    · rw [← hfirst.1, htag, beq_self_eq_true, decide_eq_true rfl]
      exact .some hfirst.2
    · rw [beq_false_of_ne htag, decide_eq_false fun h ↦ htag (h.symm.trans hfirst.1.symm)]
      exact ih

/-- **A record of one of several kinds is read from what its kind declares**, provided they all declare
what tells them apart. -/
theorem respects_union {cases : List (String × κ)} {readers : List (String × Reader α)}
    (hkind : ∀ c ∈ cases, "kind" ∈ (V.fields c.2).map Prod.fst)
    (h : List.Forall₂ (fun c r ↦ c.1 = r.1 ∧ V.Respects (.record c.2) r.2 f) cases readers) :
    V.Respects (.union cases) (union readers) f := by
  intro v v' hedit
  obtain ⟨ms, ms', rfl, rfl⟩ | ⟨vs, vs', rfl, rfl, -⟩ := hedit.cases
  · have htag := hedit.bind_text? "kind" fun k hk ↦ by
      obtain ⟨tag, -, hlookup⟩ := Option.bind_eq_some_iff.1 hk
      exact hkind _ (Dictionary.mem_of_lookup hlookup)
    rw [value?_union, value?_union, ← htag]
    cases ht : (Data.lookup "kind" ms).bind (·.text?) with
    | none => rfl
    | some tag =>
      have hrel := rel_lookup_find? (R := fun k read ↦ V.Respects (.record k) read f) h tag
      have hk : (Shape.union cases).kind? ms = cases.lookup tag := by
        rw [Shape.kind?, ht, Option.bind_some]
      rw [Option.bind_some, Option.bind_some]
      generalize cases.lookup tag = o at hrel hk
      generalize readers.find? (·.1 = tag) = o' at hrel ⊢
      cases hrel with
      | none => rfl
      | some hr => exact hr _ _ (hedit.as_record hk)
  · rfl

end Vocabulary

end ModelServer.Schema
