import ModelServer.Proofs.Json.Printed

/-!
# Values but for nulls and the order of members

`Data.Pruned v w` says what it is for `w` to be `v` without null members, at every depth, and it says so
of what can be looked up: in which order records list their members is left open, and nothing else is. A
null item of a list stays, a list keeps its length and a record that has lost all of its members is still
there. There is such a value for each that a text denotes (`pruned_dropNulls`), and one only, but for the
order of members (`Pruned.ordered_eq`).

How a value is set out does not depend on that order (`Json.pretty_ordered`), and neither an order nor a
null member makes a value deeper (`height_ordered`, `height_dropNulls`). So values that can be pruned to
the same are set out as the same text, or none is.
-/

namespace ModelServer

namespace Data

variable {α : Type}

/-! ### How deep a value is -/

theorem height_dropNulls (v : Data α) : v.dropNulls.height = v.height := by
  induction v using induct with
  | list items ih =>
    rw [dropNulls, height, height, dropNullsList_eq_map]
    refine congrArg (· + 1) (eq_of_forall_ge_iff fun k ↦ ?_)
    rw [heightList_le_iff, heightList_le_iff, List.forall_mem_map]
    exact forall₂_congr fun v hv ↦ by rw [ih v hv]
  | record ms ih =>
    rw [dropNulls, height, height]
    refine congrArg (· + 1) ?_
    induction ms with
    | nil => rfl
    | cons m rest ihrest =>
      obtain ⟨name, v⟩ := m
      obtain ⟨hfirst, hrest⟩ := List.forall_mem_cons.1 ih
      rw [dropNullsMembers, heightMembers]
      cases v with
      | null => exact (ihrest hrest).trans (Nat.zero_max _).symm
      | _ => exact congrArg₂ max hfirst (ihrest hrest)
  | _ => rfl

theorem height_ordered (v : Data α) : v.ordered.height = v.height := by
  induction v using induct with
  | list items ih =>
    rw [ordered, height, height, orderedList_eq_map]
    refine congrArg (· + 1) (eq_of_forall_ge_iff fun k ↦ ?_)
    rw [heightList_le_iff, heightList_le_iff, List.forall_mem_map]
    exact forall₂_congr fun v hv ↦ by rw [ih v hv]
  | record ms ih =>
    rw [ordered, height, height, orderedMembers_eq]
    refine congrArg (· + 1) (eq_of_forall_ge_iff fun k ↦ ?_)
    have hmem (m : String × Data α) : m ∈ Dictionary.sort (Dictionary.mapValues (fun _ v ↦ v.ordered) ms) ↔
        m ∈ Dictionary.mapValues (fun _ v ↦ v.ordered) ms := (Dictionary.sort_perm _).mem_iff
    rw [heightMembers_le_iff, heightMembers_le_iff]
    simp only [hmem]
    rw [Dictionary.mapValues, List.forall_mem_map]
    exact forall₂_congr fun m hm ↦ by rw [ih m hm]
  | _ => rfl

/-! ### What it is to be pruned -/

/-- The second value is the first one without the members of records that are null, at every depth, in
whichever order its records list the others. -/
inductive Pruned : Data α → Data α → Prop
  | null : Pruned .null .null
  | bool (b : Bool) : Pruned (.bool b) (.bool b)
  | int (n : Int) : Pruned (.int n) (.int n)
  | float (x : Binary64) : Pruned (.float x) (.float x)
  | text (s : String) : Pruned (.text s) (.text s)
  | foreign (a : α) : Pruned (.foreign a) (.foreign a)
  | list {vs ws : List (Data α)} (length : vs.length = ws.length)
      (items : ∀ (i : Nat) v w, vs[i]? = some v → ws[i]? = some w → Pruned v w) : Pruned (.list vs) (.list ws)
  | record {ms ns : List (String × Data α)} (nodup : (ns.map Prod.fst).Nodup)
      (names : ∀ name, (∃ w, lookup name ns = some w) ↔ ∃ v, lookup name ms = some v ∧ v.isNull = false)
      (members : ∀ name v w, lookup name ms = some v → lookup name ns = some w → Pruned v w) :
      Pruned (.record ms) (.record ns)

theorem lookup_dropNullsMembers_of_none {name : String} {ms : List (String × Data α)}
    (h : lookup name ms = none) : lookup name (dropNullsMembers ms) = none := by
  refine lookup_eq_none_of_not_mem fun hname ↦ ?_
  obtain ⟨m, hm, hname⟩ := List.mem_map.1 ((names_dropNullsMembers ms).mem hname)
  exact bne_iff_ne.1 (List.lookup_eq_none_iff.1 h m hm) hname.symm

/-- **Nulls are dropped.** -/
theorem pruned_dropNulls {v : Data α} (hv : v.Distinct) : v.Pruned v.dropNulls := by
  induction hv with
  | null => exact .null
  | bool b => exact .bool b
  | int n => exact .int n
  | float x => exact .float x
  | text s => exact .text s
  | foreign a => exact .foreign a
  | @list items _ ih =>
    rw [dropNulls, dropNullsList_eq_map]
    refine .list (List.length_map _).symm fun i v w hv hw ↦ ?_
    rw [List.getElem?_map, hv] at hw
    obtain rfl := Option.some.inj hw
    exact ih v (List.mem_of_getElem? hv)
  | @record ms hn _ ih =>
    refine .record (hn.sublist (names_dropNullsMembers ms)) (fun name ↦ ?_) fun name v w hv hw ↦ ?_
    · cases hlookup : lookup name ms with
      | none => simp [lookup_dropNullsMembers_of_none hlookup]
      | some v =>
        rw [lookup_dropNullsMembers hn hlookup]
        cases hnull : v.isNull with
        | true => simp [hnull]
        | false => simp [hnull]
    · rw [lookup_dropNullsMembers hn hv] at hw
      split at hw
      · cases hw
      · obtain rfl := Option.some.inj hw
        exact ih _ (Dictionary.mem_of_lookup hv)

namespace Pruned

variable {v w : Data α}

theorem isNull (h : v.Pruned w) : v.isNull = w.isNull := by
  cases h <;> rfl

/-- In what is pruned no name is there twice. -/
theorem distinct (h : v.Pruned w) : w.Distinct := by
  induction h with
  | null => exact .null
  | bool b => exact .bool b
  | int n => exact .int n
  | float x => exact .float x
  | text s => exact .text s
  | foreign a => exact .foreign a
  | @list vs ws hlength _ ih =>
    refine .list fun w hw ↦ ?_
    obtain ⟨i, hi, rfl⟩ := List.getElem_of_mem hw
    have hi' : i < vs.length := hlength ▸ hi
    exact ih i vs[i] ws[i] (List.getElem?_eq_getElem hi') (List.getElem?_eq_getElem hi)
  | @record ms ns hn names _ ih =>
    refine .record hn fun m hm ↦ ?_
    have hw : lookup m.1 ns = some m.2 := (Dictionary.lookup_eq_some_iff_mem hn).2 hm
    obtain ⟨v, hv, -⟩ := (names m.1).1 ⟨m.2, hw⟩
    exact ih m.1 v m.2 hv hw

/-- **What is pruned is the value without nulls**, but for the order of members. -/
theorem ordered_eq (hv : v.Distinct) (h : v.Pruned w) : w.ordered = v.dropNulls.ordered := by
  induction h with
  | @list vs ws hlength _ ih =>
    rw [dropNulls, ordered, ordered, dropNullsList_eq_map, orderedList_eq_map, orderedList_eq_map]
    refine congrArg _ (List.ext_getElem ?_ fun i hw hv' ↦ ?_)
    · rw [List.length_map, List.length_map, List.length_map, hlength]
    · rw [List.getElem_map, List.getElem_map, List.getElem_map]
      exact ih i _ _ (List.getElem?_eq_getElem _) (List.getElem?_eq_getElem _)
        (distinct_list_iff.1 hv _ (List.getElem_mem _))
  | @record ms ns hn names _ ih =>
    obtain ⟨hms, hdistinct⟩ := distinct_record_iff.1 hv
    rw [dropNulls, ordered_record_eq_iff hn (hms.sublist (names_dropNullsMembers ms))]
    intro name
    -- A name stands for a value on the one side exactly if it does on the other, and then by induction.
    cases hv : lookup name ms with
    | none =>
      have hw : lookup name ns = none := by
        by_contra hsome
        obtain ⟨v, hv', -⟩ := (names name).1 (Option.ne_none_iff_exists'.1 hsome)
        rw [hv] at hv'
        cases hv'
      rw [hw, lookup_dropNullsMembers_of_none hv]
    | some v =>
      rw [lookup_dropNullsMembers hms hv]
      cases hnull : v.isNull with
      | true =>
        have hw : lookup name ns = none := by
          by_contra hsome
          obtain ⟨v', hv', hnull'⟩ := (names name).1 (Option.ne_none_iff_exists'.1 hsome)
          obtain rfl := Option.some.inj (hv.symm.trans hv')
          rw [hnull] at hnull'
          cases hnull'
        rw [hw]
        rfl
      | false =>
        obtain ⟨w, hw⟩ := (names name).2 ⟨v, hv, hnull⟩
        have hordered := ih name v w hv hw (hdistinct _ (Dictionary.mem_of_lookup hv))
        rw [hw]
        exact congrArg some hordered
  | _ => rfl

/-- The order of members does not matter to what is pruned. -/
theorem ordered (h : v.Pruned w) : v.Pruned w.ordered := by
  induction h with
  | null => exact .null
  | bool b => exact .bool b
  | int n => exact .int n
  | float x => exact .float x
  | text s => exact .text s
  | foreign a => exact .foreign a
  | @list vs ws hlength _ ih =>
    rw [Data.ordered, orderedList_eq_map]
    refine .list (by rw [List.length_map, hlength]) fun i v w hv hw ↦ ?_
    rw [List.getElem?_map] at hw
    obtain ⟨u, hu, rfl⟩ := Option.map_eq_some_iff.1 hw
    exact ih i v u hv hu
  | @record ms ns hn names _ ih =>
    have hn' : ((orderedMembers ns).map Prod.fst).Nodup := by
      rwa [orderedMembers_eq, Dictionary.map_fst_mapValues]
    have hperm := Dictionary.sort_perm (orderedMembers ns)
    have hlookup (name : String) :
        lookup name (Dictionary.sort (orderedMembers ns)) = (lookup name ns).map Data.ordered := by
      rw [lookup, ← Dictionary.lookup_of_perm hn' hperm.symm, orderedMembers_eq, Dictionary.lookup_mapValues]
      rfl
    refine .record ((hperm.map Prod.fst).nodup_iff.2 hn') (fun name ↦ ?_) fun name v w hv hw ↦ ?_
    · rw [← names name, hlookup]
      simp only [Option.map_eq_some_iff]
      constructor
      · rintro ⟨_, w, hw, -⟩
        exact ⟨w, hw⟩
      · rintro ⟨w, hw⟩
        exact ⟨_, w, hw, rfl⟩
    · rw [hlookup] at hw
      obtain ⟨u, hu, rfl⟩ := Option.map_eq_some_iff.1 hw
      exact ih name v u hv hu

/-- **What is pruned can be pruned no further.** -/
theorem self (h : v.Pruned w) : w.Pruned w := by
  induction h with
  | null => exact .null
  | bool b => exact .bool b
  | int n => exact .int n
  | float x => exact .float x
  | text s => exact .text s
  | foreign a => exact .foreign a
  | @list vs ws hlength _ ih =>
    refine .list rfl fun i w w' hw hw' ↦ ?_
    obtain rfl := Option.some.inj (hw.symm.trans hw')
    obtain ⟨hi, -⟩ := List.getElem?_eq_some_iff.1 hw
    exact ih i vs[i] w (List.getElem?_eq_getElem _) hw
  | @record ms ns hn names members ih =>
    refine .record hn (fun name ↦ ⟨?_, ?_⟩) fun name w w' hw hw' ↦ ?_
    · rintro ⟨w, hw⟩
      obtain ⟨v, hv, hnull⟩ := (names name).1 ⟨w, hw⟩
      exact ⟨w, hw, (members name v w hv hw).isNull ▸ hnull⟩
    · rintro ⟨w, hw, -⟩
      exact ⟨w, hw⟩
    · obtain rfl := Option.some.inj (hw.symm.trans hw')
      obtain ⟨v, hv, -⟩ := (names name).1 ⟨w, hw⟩
      exact ih name v w hv hw

end Pruned

end Data

namespace Json

/-! ### How values are set out -/

theorem writeAt_ordered {α : Type} (style : Style) (leaf : α → String) (v : Data α) (column : Nat) :
    writeAt style leaf column v.ordered = writeAt style leaf column v := by
  induction v using Data.induct generalizing column with
  | list items ih =>
    rw [Data.ordered, writeAt, writeAt, writeItems_eq_map, writeItems_eq_map, Data.orderedList_eq_map,
      List.map_map]
    exact congrArg _ (List.map_congr_left fun v hv ↦ ih v hv (column + 1))
  | record ms ih =>
    have hvalues : (Dictionary.sort ms).map (fun m ↦ (m.1, writeAt style leaf (column + 1) m.2.ordered)) =
        (Dictionary.sort ms).map fun m ↦ (m.1, writeAt style leaf (column + 1) m.2) :=
      List.map_congr_left fun m hm ↦ by rw [ih m ((Dictionary.sort_perm ms).mem_iff.1 hm)]
    rw [Data.ordered, writeAt, writeAt, sort_writeMembers, sort_writeMembers, Dictionary.sort_sort,
      Data.orderedMembers_eq, ← Dictionary.mapValues_sort, ← hvalues, Dictionary.mapValues]
    simp only [List.map_map]
    rfl
  | _ => rfl

/-- **The order of members does not show.** -/
theorem pretty_ordered (v : Json) : pretty v.ordered = pretty v :=
  congrArg String.ofList (writeAt_ordered _ _ v 0)

theorem Denoted.dropNulls {v : Json} (h : Denoted v) : Denoted v.dropNulls := by
  induction h with
  | null => exact .null
  | bool b => exact .bool b
  | int hn => exact .int hn
  | float x => exact .float x
  | text s => exact .text s
  | list _ ih =>
    rw [Data.dropNulls, Data.dropNullsList_eq_map]
    exact .list (List.forall_mem_map.2 ih)
  | @record ms hn _ ih =>
    refine .record (hn.sublist (Data.names_dropNullsMembers ms)) fun m hm ↦ ?_
    obtain ⟨v, hv, heq⟩ := Data.exists_of_mem_dropNullsMembers hm
    rw [heq]
    exact ih _ hv

end Json

end ModelServer
