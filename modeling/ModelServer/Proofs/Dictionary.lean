import Mathlib.Data.List.Induction
import Mathlib.Data.List.Nodup
import ModelServer.Dictionary
import ModelServer.Proofs.Text.Order

/-!
# Dictionaries up to the order of insertion

A dictionary is a list, and two dictionaries with the same entries differ if the entries came in
different orders. What is read off a dictionary should not depend on that: neither a look-up
(`lookup_of_perm`) nor the entries sorted by name (`sort_of_perm`) does, provided no key is there
twice. `put` and `erase` keep that proviso (`nodup_put`, `nodup_erase`), and both commute with a change
of the values (`mapValues_put`, `mapValues_erase`), so a view of a dictionary can be followed through
a run beside the dictionary itself.
-/

namespace ModelServer.Dictionary

variable {κ α β : Type}

/-- The same keys in the same order, with other values. -/
def mapValues (f : κ → α → β) (entries : List (κ × α)) : List (κ × β) :=
  entries.map fun e ↦ (e.1, f e.1 e.2)

theorem map_fst_mapValues (f : κ → α → β) (entries : List (κ × α)) :
    (mapValues f entries).map Prod.fst = entries.map Prod.fst := by
  rw [mapValues, List.map_map]
  rfl

section Keys

variable [BEq κ] [LawfulBEq κ]

/-! ### Look-ups where no key is there twice -/

theorem mem_of_lookup {key : κ} {a : α} {entries : List (κ × α)}
    (h : entries.lookup key = some a) : (key, a) ∈ entries := by
  obtain ⟨before, after, rfl, -⟩ := List.lookup_eq_some_iff.1 h
  exact List.mem_append_right _ List.mem_cons_self

theorem lookup_eq_some_iff_mem {entries : List (κ × α)} (hn : (entries.map Prod.fst).Nodup)
    {key : κ} {a : α} : entries.lookup key = some a ↔ (key, a) ∈ entries := by
  refine ⟨mem_of_lookup, fun h ↦ ?_⟩
  induction entries with
  | nil => exact absurd h List.not_mem_nil
  | cons e rest ih =>
    rw [List.map_cons, List.nodup_cons] at hn
    rcases List.mem_cons.1 h with rfl | h
    · exact List.lookup_cons_self
    · have hne : key ≠ e.1 := by
        rintro rfl
        exact hn.1 (List.mem_map.2 ⟨_, h, rfl⟩)
      rw [List.lookup_cons, beq_false_of_ne hne]
      exact ih hn.2 h

/-- **Look-ups do not see the order of entries.** -/
theorem lookup_of_perm {entries others : List (κ × α)} (hn : (entries.map Prod.fst).Nodup)
    (h : entries.Perm others) (key : κ) : entries.lookup key = others.lookup key := by
  have hn' : (others.map Prod.fst).Nodup := (h.map Prod.fst).nodup_iff.1 hn
  refine Option.ext fun a ↦ ?_
  rw [lookup_eq_some_iff_mem hn, lookup_eq_some_iff_mem hn', h.mem_iff]

/-- **Dictionaries in which the same can be looked up have the same entries.** -/
theorem perm_iff_lookup {entries others : List (κ × α)} (hn : (entries.map Prod.fst).Nodup)
    (hn' : (others.map Prod.fst).Nodup) :
    entries.Perm others ↔ ∀ key, entries.lookup key = others.lookup key := by
  refine ⟨fun h key ↦ lookup_of_perm hn h key, fun h ↦ ?_⟩
  rw [List.perm_ext_iff_of_nodup hn.of_map hn'.of_map]
  rintro ⟨key, a⟩
  rw [← lookup_eq_some_iff_mem hn, ← lookup_eq_some_iff_mem hn', h]

theorem lookup_mapValues (f : κ → α → β) (entries : List (κ × α)) (key : κ) :
    (mapValues f entries).lookup key = (entries.lookup key).map (f key) := by
  induction entries with
  | nil => rfl
  | cons e rest ih =>
    rw [mapValues, List.map_cons, List.lookup_cons, List.lookup_cons]
    cases h : key == e.1 with
    | true => rw [eq_of_beq h]; rfl
    | false => exact ih

/-! ### What operations do to keys and values -/

theorem mem_map_fst_put {key k : κ} {a : α} {entries : List (κ × α)} :
    k ∈ (put key a entries).map Prod.fst ↔ k = key ∨ k ∈ entries.map Prod.fst := by
  induction entries with
  | nil => simp [put]
  | cons e rest ih =>
    by_cases h : e.1 = key
    · subst h
      simp [put]
    · rw [put, if_neg (by simpa using h), List.map_cons, List.mem_cons, ih, List.map_cons,
        List.mem_cons]
      exact or_left_comm

omit [LawfulBEq κ] in
/-- What is in a dictionary was put there. -/
theorem mem_put {key : κ} {a : α} {entries : List (κ × α)} {e : κ × α}
    (h : e ∈ put key a entries) : e.2 = a ∨ e ∈ entries := by
  induction entries with
  | nil => exact .inl (congrArg Prod.snd (List.mem_singleton.1 h))
  | cons d rest ih =>
    rw [put] at h
    split at h
    · rcases List.mem_cons.1 h with rfl | h
      · exact .inl rfl
      · exact .inr (List.mem_cons_of_mem _ h)
    · rcases List.mem_cons.1 h with rfl | h
      · exact .inr List.mem_cons_self
      · exact (ih h).imp_right (List.mem_cons_of_mem _)

theorem nodup_put (key : κ) (a : α) {entries : List (κ × α)} (hn : (entries.map Prod.fst).Nodup) :
    ((put key a entries).map Prod.fst).Nodup := by
  induction entries with
  | nil => simp [put]
  | cons e rest ih =>
    rw [List.map_cons, List.nodup_cons] at hn
    by_cases h : e.1 = key
    · rw [put, if_pos (by simpa using h), List.map_cons, List.nodup_cons]
      exact hn
    · rw [put, if_neg (by simpa using h), List.map_cons, List.nodup_cons, mem_map_fst_put]
      exact ⟨fun hm ↦ hm.elim h hn.1, ih hn.2⟩

/-- A key that is not there is put behind those that are. -/
theorem put_of_not_mem {key : κ} {entries : List (κ × α)} (a : α)
    (h : key ∉ entries.map Prod.fst) : put key a entries = entries ++ [(key, a)] := by
  induction entries with
  | nil => rfl
  | cons e rest ih =>
    rw [List.map_cons, List.mem_cons, not_or] at h
    rw [put, if_neg (by simpa using Ne.symm h.1), ih h.2, List.cons_append]

omit [LawfulBEq κ] in
theorem erase_sublist (key : κ) (entries : List (κ × α)) :
    (erase key entries).Sublist entries := by
  induction entries with
  | nil => exact .slnil
  | cons e rest ih =>
    cases h : e.1 == key with
    | true => rw [erase, if_pos h]; exact ih.cons e
    | false => rw [erase, if_neg (by simp [h])]; exact ih.cons_cons e

omit [LawfulBEq κ] in
theorem nodup_erase (key : κ) {entries : List (κ × α)} (hn : (entries.map Prod.fst).Nodup) :
    ((erase key entries).map Prod.fst).Nodup :=
  hn.sublist ((erase_sublist key entries).map Prod.fst)

theorem mapValues_put (f : κ → α → β) (key : κ) (a : α) (entries : List (κ × α)) :
    mapValues f (put key a entries) = put key (f key a) (mapValues f entries) := by
  induction entries with
  | nil => rfl
  | cons e rest ih =>
    rw [put, mapValues, mapValues, List.map_cons, put]
    cases h : e.1 == key with
    | true => rw [if_pos rfl, if_pos rfl, List.map_cons, eq_of_beq h]
    | false =>
      rw [if_neg Bool.false_ne_true, if_neg Bool.false_ne_true, List.map_cons]
      exact congrArg _ ih

omit [LawfulBEq κ] in
theorem mapValues_erase (f : κ → α → β) (key : κ) (entries : List (κ × α)) :
    mapValues f (erase key entries) = erase key (mapValues f entries) := by
  induction entries with
  | nil => rfl
  | cons e rest ih =>
    rw [erase, mapValues, mapValues, List.map_cons, erase]
    cases h : e.1 == key with
    | true => rw [if_pos rfl, if_pos rfl]; exact ih
    | false =>
      rw [if_neg Bool.false_ne_true, if_neg Bool.false_ne_true, List.map_cons]
      exact congrArg _ ih

/-! ### Dictionaries made of a list -/

omit [LawfulBEq κ] in
/-- A list is made a dictionary by what the last entry does to the dictionary of those before it. -/
theorem ofList_concat (entries : List (κ × α)) (e : κ × α) :
    ofList (entries ++ [e]) = put e.1 e.2 (ofList entries) := by
  rw [ofList, List.foldl_append]
  rfl

/-- Of the values that a list has for a key the last one counts. -/
theorem lookup_ofList (entries : List (κ × α)) (key : κ) :
    (ofList entries).lookup key = entries.reverse.lookup key := by
  induction entries using List.reverseRecOn with
  | nil => rfl
  | append_singleton rest e ih =>
    rw [ofList_concat, lookup_put, ih, List.reverse_append, List.reverse_singleton,
      List.singleton_append, List.lookup_cons]
    cases key == e.1 <;> rfl

theorem nodup_ofList (entries : List (κ × α)) : ((ofList entries).map Prod.fst).Nodup := by
  induction entries using List.reverseRecOn with
  | nil => exact List.nodup_nil
  | append_singleton rest e ih =>
    rw [ofList_concat]
    exact nodup_put e.1 e.2 ih

omit [LawfulBEq κ] in
/-- What is in a dictionary was in the list it is made of, with that value. -/
theorem mem_ofList {entries : List (κ × α)} {e : κ × α} (h : e ∈ ofList entries) :
    ∃ d ∈ entries, d.2 = e.2 := by
  induction entries using List.reverseRecOn with
  | nil => exact absurd h List.not_mem_nil
  | append_singleton rest d ih =>
    rw [ofList_concat] at h
    rcases mem_put h with heq | h
    · exact ⟨d, List.mem_append_right _ (List.mem_singleton_self d), heq.symm⟩
    · obtain ⟨c, hc, heq⟩ := ih h
      exact ⟨c, List.mem_append_left _ hc, heq⟩

/-- A list in which no key is there twice is a dictionary already. -/
theorem ofList_of_nodup {entries : List (κ × α)} (hn : (entries.map Prod.fst).Nodup) :
    ofList entries = entries := by
  induction entries using List.reverseRecOn with
  | nil => rfl
  | append_singleton rest e ih =>
    rw [List.map_append, List.map_singleton, List.nodup_append] at hn
    obtain ⟨hrest, -, hnew⟩ := hn
    have hmem : e.1 ∉ rest.map Prod.fst := fun h ↦ hnew e.1 h e.1 (List.mem_singleton_self _) rfl
    rw [ofList_concat, ih hrest, put_of_not_mem e.2 hmem]

/-- The keys of a dictionary are those of the list it is made of. -/
theorem mem_map_fst_ofList {entries : List (κ × α)} {k : κ} :
    k ∈ (ofList entries).map Prod.fst ↔ k ∈ entries.map Prod.fst := by
  induction entries using List.reverseRecOn with
  | nil => rfl
  | append_singleton rest e ih =>
    rw [ofList_concat, mem_map_fst_put, ih, List.map_append, List.mem_append, List.map_singleton,
      List.mem_singleton, or_comm]

theorem mapValues_ofList (f : κ → α → β) (entries : List (κ × α)) :
    mapValues f (ofList entries) = ofList (mapValues f entries) := by
  induction entries using List.reverseRecOn with
  | nil => rfl
  | append_singleton rest e ih =>
    have hsplit : mapValues f (rest ++ [e]) = mapValues f rest ++ [(e.1, f e.1 e.2)] :=
      List.map_append
    rw [ofList_concat, mapValues_put, ih, hsplit, ofList_concat]

end Keys

/-! ### Sorting by name -/

theorem sort_perm (entries : List (String × α)) : (sort entries).Perm entries :=
  List.mergeSort_perm _ _

theorem pairwise_sort (entries : List (String × α)) :
    (sort entries).Pairwise fun a b ↦ Text.inOrder a.1 b.1 = true := by
  rw [sort]
  apply List.pairwise_mergeSort
  · intro a b c
    exact Text.inOrder_trans
  · intro a b
    exact Text.inOrder_total a.1 b.1

/-- **Sorting by name forgets the order of entries.** Two entries between which the order of names
does not decide have one name, and so are one entry. -/
theorem sort_of_perm {entries others : List (String × α)} (hn : (entries.map Prod.fst).Nodup)
    (h : entries.Perm others) : sort entries = sort others := by
  have hp : (sort entries).Perm (sort others) :=
    (sort_perm entries).trans (h.trans (sort_perm others).symm)
  refine List.Perm.eq_of_pairwise ?_ (pairwise_sort entries) (pairwise_sort others) hp
  intro a b ha hb hab hba
  have ha' := (lookup_eq_some_iff_mem hn).2 ((sort_perm entries).mem_iff.1 ha)
  have hb' := (lookup_eq_some_iff_mem hn).2 ((h.trans (sort_perm others).symm).mem_iff.2 hb)
  rw [Text.inOrder_antisymm hab hba, hb'] at ha'
  exact Prod.ext (Text.inOrder_antisymm hab hba) (Option.some.inj ha').symm

/-- The order of names leaves no choice. -/
theorem sort_eq_iff {entries others : List (String × α)} (hn : (entries.map Prod.fst).Nodup) :
    sort entries = sort others ↔ entries.Perm others := by
  refine ⟨fun h ↦ ?_, sort_of_perm hn⟩
  have hsorted := sort_perm others
  rw [← h] at hsorted
  exact (sort_perm entries).symm.trans hsorted

/-- What is in order stays as it is. -/
theorem sort_sort (entries : List (String × α)) : sort (sort entries) = sort entries :=
  List.mergeSort_of_pairwise (pairwise_sort entries)

theorem mapValues_sort (f : String → α → β) (entries : List (String × α)) :
    mapValues f (sort entries) = sort (mapValues f entries) :=
  List.map_mergeSort fun _ _ _ _ ↦ rfl

end ModelServer.Dictionary
