import ModelServer.Proofs.Json.Members

/-!
# Values but for the order of members

In which order a record lists its members means nothing. `Data.ordered` puts them into the order of their
names, at every depth, so two values are the same but for the order of members if their ordered forms
are equal. For records without a name twice this is to say that they have the same members
(`Data.ordered_record_eq_iff`).

What is posted has lost its nulls. `Data.Alike` says of two values that they are posted the same but for the
order of members; it holds of lists and of records if it holds part by part (`Alike.list`,
`Alike.record`).
-/

namespace ModelServer

namespace Data

variable {α : Type}

mutual

/-- The value with the members of each record in the order of their names. -/
def ordered : Data α → Data α
  | .list items => .list (orderedList items)
  | .record members => .record (Dictionary.sort (orderedMembers members))
  | v => v

/-- `ordered` on each item. -/
def orderedList : List (Data α) → List (Data α)
  | [] => []
  | v :: rest => ordered v :: orderedList rest

/-- `ordered` on the value of each member. -/
def orderedMembers : List (String × Data α) → List (String × Data α)
  | [] => []
  | (n, v) :: rest => (n, ordered v) :: orderedMembers rest

end

theorem orderedList_eq_map (vs : List (Data α)) : orderedList vs = vs.map ordered := by
  induction vs with
  | nil => rfl
  | cons v rest ih => rw [orderedList, ih, List.map_cons]

theorem orderedMembers_eq (ms : List (String × Data α)) :
    orderedMembers ms = Dictionary.mapValues (fun _ v ↦ v.ordered) ms := by
  induction ms with
  | nil => rfl
  | cons m rest ih =>
    rw [orderedMembers, ih]
    rfl

/-- **Two records are the same but for the order of members** if under each name both have nothing, or
values that are. -/
theorem ordered_record_eq_iff {ms ns : List (String × Data α)} (hm : (ms.map Prod.fst).Nodup)
    (hn : (ns.map Prod.fst).Nodup) :
    (record ms).ordered = (record ns).ordered ↔
      ∀ name, (lookup name ms).map ordered = (lookup name ns).map ordered := by
  have hm' : ((orderedMembers ms).map Prod.fst).Nodup := by
    rwa [orderedMembers_eq, Dictionary.map_fst_mapValues]
  have hn' : ((orderedMembers ns).map Prod.fst).Nodup := by
    rwa [orderedMembers_eq, Dictionary.map_fst_mapValues]
  rw [ordered, ordered, record.injEq, Dictionary.sort_eq_iff hm', Dictionary.perm_iff_lookup hm' hn']
  simp only [orderedMembers_eq, Dictionary.lookup_mapValues]
  rfl

theorem ordered_record_of_perm {ms ns : List (String × Data α)} (hm : (ms.map Prod.fst).Nodup)
    (h : ms.Perm ns) : (record ms).ordered = (record ns).ordered :=
  (ordered_record_eq_iff hm ((h.map Prod.fst).nodup_iff.1 hm)).2 fun name ↦
    congrArg _ (Dictionary.lookup_of_perm hm h name)

/-! ### What is posted -/

/-- Without nulls the values are the same but for the order of members. -/
structure Alike (v w : Data α) : Prop where
  isNull : v.isNull = w.isNull
  ordered : v.dropNulls.ordered = w.dropNulls.ordered

namespace Alike

theorem refl (v : Data α) : v.Alike v :=
  ⟨rfl, rfl⟩

/-- Lists are alike if their items are. -/
theorem list {vs ws : List (Data α)} (h : List.Forall₂ Alike vs ws) :
    (Data.list vs).Alike (.list ws) := by
  refine ⟨rfl, ?_⟩
  rw [dropNulls, dropNulls, Data.ordered, Data.ordered, dropNullsList_eq_map, dropNullsList_eq_map,
    orderedList_eq_map, orderedList_eq_map, List.map_map, List.map_map]
  congr 1
  induction h with
  | nil => rfl
  | cons hfirst _ ih => exact congrArg₂ List.cons hfirst.ordered ih

theorem list_map {β : Type} {f g : β → Data α} {as : List β} (h : ∀ a ∈ as, (f a).Alike (g a)) :
    (Data.list (as.map f)).Alike (.list (as.map g)) := by
  refine list ?_
  rw [List.forall₂_map_left_iff, List.forall₂_map_right_iff, List.forall₂_same]
  exact h

/-- Records are alike if they list the same names with values that are. -/
theorem record {ms ns : List (String × Data α)}
    (h : List.Forall₂ (fun m n ↦ m.1 = n.1 ∧ m.2.Alike n.2) ms ns) :
    (Data.record ms).Alike (.record ns) := by
  refine ⟨rfl, ?_⟩
  rw [dropNulls, dropNulls, Data.ordered, Data.ordered]
  congr 2
  induction h with
  | nil => rfl
  | @cons m n _ _ hfirst _ ih =>
    obtain ⟨hname, hvalue⟩ := hfirst
    rw [dropNullsMembers, dropNullsMembers, hvalue.isNull]
    split
    · exact ih
    · rw [orderedMembers, orderedMembers, hname, hvalue.ordered, ih]

end Alike

end Data

end ModelServer
