import ModelServer.Json.Data
import ModelServer.Proofs.Dictionary

/-!
# Records as dictionaries

A record is a list of members, and it stands for what can be looked up in it. Two facts make that
XX-/

namespace ModelServer

namespace Data

variable {α : Type}

/-- A value is a leaf, or its items are values, or those of its members are. -/
@[elab_as_elim]
theorem induct {motive : Data α → Prop} (null : motive .null) (bool : ∀ b, motive (.bool b))
    (int : ∀ n, motive (.int n)) (float : ∀ x, motive (.float x)) (text : ∀ s, motive (.text s))
    (list : ∀ items, (∀ v ∈ items, motive v) → motive (.list items))
    (record : ∀ ms, (∀ m ∈ ms, motive m.2) → motive (.record ms)) (foreign : ∀ a, motive (.foreign a))
    (v : Data α) : motive v := by
  refine @Data.rec α motive (fun items ↦ ∀ v ∈ items, motive v) (fun ms ↦ ∀ m ∈ ms, motive m.2)
    (fun m ↦ motive m.2) null bool int float text list record foreign ?_ ?_ ?_ ?_ ?_ v
  · exact fun v hv ↦ absurd hv List.not_mem_nil
  · exact fun _ _ hfirst hrest ↦ List.forall_mem_cons.2 ⟨hfirst, hrest⟩
  · exact fun m hm ↦ absurd hm List.not_mem_nil
  · exact fun _ _ hfirst hrest ↦ List.forall_mem_cons.2 ⟨hfirst, hrest⟩
  · exact fun _ _ h ↦ h

/-! ### Without nulls -/

theorem isNull_dropNulls (v : Data α) : v.dropNulls.isNull = v.isNull := by
  cases v <;> rfl

theorem dropNullsList_eq_map (vs : List (Data α)) : dropNullsList vs = vs.map dropNulls := by
  induction vs with
  | nil => rfl
  | cons v rest ih => rw [dropNullsList, ih, List.map_cons]

theorem lookup_eq_none_of_not_mem {name : String} {ms : List (String × Data α)}
    (h : name ∉ ms.map Prod.fst) : lookup name ms = none := by
  rw [lookup, List.lookup_eq_none_iff]
  intro m hm
  rw [bne_iff_ne]
  rintro rfl
  exact h (List.mem_map_of_mem hm)

theorem names_dropNullsMembers (ms : List (String × Data α)) :
    ((dropNullsMembers ms).map Prod.fst).Sublist (ms.map Prod.fst) := by
  induction ms with
  | nil => exact .slnil
  | cons m rest ih =>
    rw [dropNullsMembers, List.map_cons]
    split
    · exact ih.cons m.1
    · exact ih.cons_cons m.1

/-- What is there without the nulls comes of a member. -/
theorem exists_of_mem_dropNullsMembers {ms : List (String × Data α)} {m : String × Data α}
    (h : m ∈ dropNullsMembers ms) : ∃ v, (m.1, v) ∈ ms ∧ m.2 = v.dropNulls := by
  induction ms with
  | nil => exact absurd h List.not_mem_nil
  | cons n rest ih =>
    obtain ⟨name, v⟩ := n
    have hrest (hm : m ∈ dropNullsMembers rest) : ∃ w, (m.1, w) ∈ (name, v) :: rest ∧ m.2 = w.dropNulls := by
      obtain ⟨w, hw, heq⟩ := ih hm
      exact ⟨w, List.mem_cons_of_mem _ hw, heq⟩
    rw [dropNullsMembers] at h
    split at h
    · exact hrest h
    · rcases List.mem_cons.1 h with rfl | h
      · exact ⟨v, List.mem_cons_self, rfl⟩
      · exact hrest h

/-- **A look-up among the members that are not null.** -/
theorem lookup_dropNullsMembers {name : String} {ms : List (String × Data α)} {v : Data α}
    (hn : (ms.map Prod.fst).Nodup) (hv : lookup name ms = some v) :
    lookup name (dropNullsMembers ms) = if v.isNull then none else some v.dropNulls := by
  induction ms with
  | nil => cases hv
  | cons m rest ih =>
    obtain ⟨n, w⟩ := m
    rw [List.map_cons, List.nodup_cons] at hn
    rw [dropNullsMembers]
    by_cases hname : name = n
    · subst hname
      obtain rfl : w = v := by
        rw [lookup, List.lookup_cons_self] at hv
        exact Option.some.inj hv
      split
      -- The null is dropped, and no later member takes its place.
      · exact lookup_eq_none_of_not_mem fun h ↦ hn.1 ((names_dropNullsMembers rest).mem h)
      · exact List.lookup_cons_self
    · have hne : (name == n) = false := beq_false_of_ne hname
      rw [lookup, List.lookup_cons, hne] at hv
      split
      · exact ih hn.2 hv
      · rw [lookup, List.lookup_cons, hne]
        exact ih hn.2 hv

/-! ### No name twice -/

/-- In no record of the value is a name there twice. -/
inductive Distinct : Data α → Prop where
  | null : Distinct .null
  | bool (b : Bool) : Distinct (.bool b)
  | int (n : Int) : Distinct (.int n)
  | float (x : Binary64) : Distinct (.float x)
  | text (s : String) : Distinct (.text s)
  | foreign (a : α) : Distinct (.foreign a)
  | list {items : List (Data α)} (h : ∀ v ∈ items, Distinct v) : Distinct (.list items)
  | record {ms : List (String × Data α)} (hn : (ms.map Prod.fst).Nodup)
      (h : ∀ m ∈ ms, Distinct m.2) : Distinct (.record ms)

theorem distinct_list_iff {items : List (Data α)} :
    (list items).Distinct ↔ ∀ v ∈ items, v.Distinct :=
  ⟨fun h ↦ by cases h; assumption, .list⟩

theorem distinct_record_iff {ms : List (String × Data α)} :
    (record ms).Distinct ↔ (ms.map Prod.fst).Nodup ∧ ∀ m ∈ ms, m.2.Distinct :=
  ⟨fun h ↦ by cases h with | record hn h => exact ⟨hn, h⟩, fun h ↦ .record h.1 h.2⟩

theorem Distinct.of_lookup {name : String} {ms : List (String × Data α)} {v : Data α}
    (h : (Data.record ms).Distinct) (hv : lookup name ms = some v) : v.Distinct :=
  (distinct_record_iff.1 h).2 _ (Dictionary.mem_of_lookup hv)

theorem Distinct.of_member? {name : String} {w v : Data α} (h : w.Distinct)
    (hv : w.member? name = some v) : v.Distinct := by
  cases w with
  | record ms => exact h.of_lookup hv
  | _ => cases hv

end Data

end ModelServer
