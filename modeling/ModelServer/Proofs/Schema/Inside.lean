import ModelServer.Proofs.Json.Members
import ModelServer.Proofs.Schema.Checked

/-!
# Where what was read came from

`Data.Inside w v` says that `w` stands somewhere in `v`. What a reader makes of a value may hold parts
which another reader, `inner`, made of values that stand in it; `Draws inner read parts` says that
all the parts which `parts` lists came about in this way, so that none was made up.

The rules are one for each way of putting readers together, and a record is taken apart field by
field: the rules for fields (`Draws.field`, `Draws.listField`, `Draws.optionField`) speak of what a
single field was read as.
-/

namespace ModelServer

/-- The value is the other one, or stands somewhere in it. -/
inductive Data.Inside {α : Type} (w : Data α) : Data α → Prop
  | refl : Inside w w
  | item {v : Data α} {items : List (Data α)} (mem : v ∈ items) (inside : Inside w v) :
      Inside w (.list items)
  | member {name : String} {v : Data α} {members : List (String × Data α)}
      (mem : (name, v) ∈ members) (inside : Inside w v) : Inside w (.record members)

namespace Data.Inside

variable {α : Type} {u v w : Data α}

theorem trans (h : u.Inside v) (h' : v.Inside w) : u.Inside w := by
  induction h' with
  | refl => exact h
  | item mem _ ih => exact .item mem ih
  | member mem _ ih => exact .member mem ih

theorem of_lookup {name : String} {ms : List (String × Data α)}
    (h : Data.lookup name ms = some v) : v.Inside (.record ms) :=
  .member (Dictionary.mem_of_lookup h) .refl

end Data.Inside

/-- Where no name is there twice, none is in what stands in the value. -/
theorem Data.Distinct.of_inside {α : Type} {v w : Data α} (hd : v.Distinct) (h : w.Inside v) :
    w.Distinct := by
  induction h with
  | refl => exact hd
  | item mem _ ih => exact ih (distinct_list_iff.1 hd _ mem)
  | member mem _ ih => exact ih ((distinct_record_iff.1 hd).2 _ mem)

namespace Schema

variable {α β σ : Type}

/-- It was read from the value or from one that stands in it. -/
def StandsIn (inner : Reader σ) (v : Json) (i : σ) : Prop :=
  ∃ w : Json, w.Inside v ∧ inner w = .ok i

theorem StandsIn.inside {inner : Reader σ} {v w : Json} {i : σ} (h : StandsIn inner w i)
    (hw : w.Inside v) : StandsIn inner v i := by
  obtain ⟨u, hu, hread⟩ := h
  exact ⟨u, hu.trans hw, hread⟩

/-- Whatever is read, all its `parts` were read by `inner` from values that stand in what it was read
from. -/
def Draws (inner : Reader σ) (read : Reader α) (parts : α → List σ) : Prop :=
  ∀ ⦃v a⦄, read v = .ok a → ∀ i ∈ parts a, StandsIn inner v i

namespace Draws

variable {inner : Reader σ} {read : Reader α} {parts : α → List σ}

/-- A reader has itself read all that it reads. -/
theorem self : Draws inner inner fun i ↦ [i] := by
  intro v a h i hi
  obtain rfl := List.mem_singleton.1 hi
  exact ⟨v, .refl, h⟩

theorem map (h : Draws inner read parts) {f : α → β} {parts' : β → List σ}
    (hf : ∀ a, parts' (f a) = parts a) : Draws inner (fun v ↦ (read v).map f) parts' := by
  intro v b hb
  obtain ⟨a, ha, rfl⟩ := Checked.map_eq_ok.1 hb
  rw [hf]
  exact h ha

theorem record {title : String} {fields : Members → Checked α}
    (h : ∀ {ms a}, fields ms = .ok a → ∀ i ∈ parts a, StandsIn inner (.record ms) i) :
    Draws inner (Schema.record title fields) parts := by
  intro v a hv
  obtain ⟨ms, rfl, hms⟩ := record_eq_ok.1 hv
  exact h hms

theorem union {cases : List (String × Reader α)} (h : ∀ c ∈ cases, Draws inner c.2 parts) :
    Draws inner (Schema.union cases) parts := by
  intro v a hv
  obtain ⟨ms, tag, read, -, -, hfind, hread⟩ := union_eq_ok.1 hv
  exact h (tag, read) (List.mem_of_find?_eq_some hfind) hread

theorem list (h : Draws inner read parts) : Draws inner (list read) (·.flatMap parts) := by
  intro v as hv i hi
  obtain ⟨vs, rfl, hitems⟩ := list_eq_ok.1 hv
  obtain ⟨a, ha, hia⟩ := List.mem_flatMap.1 hi
  obtain ⟨w, hw, hread⟩ := exists_of_forall₂ hitems a ha
  exact (h hread i hia).inside (.item hw .refl)

theorem nullable (h : Draws inner read parts) :
    Draws inner (nullable read) (·.toList.flatMap parts) := by
  intro v o hv i hi
  obtain ⟨a, ha, hia⟩ := List.mem_flatMap.1 hi
  obtain rfl := Option.mem_toList.1 ha
  obtain ⟨-, hnone⟩ | ⟨-, b, hread, hsome⟩ := nullable_eq_ok.1 hv
  · cases hnone
  · obtain rfl := Option.some.inj hsome
    exact h hread i hia

/-! ### Fields -/

section Fields

variable {name : String} {ms : Members}

/-- What a field was read as has its parts from the record, and so has what stands for a field that is
left out, if it has none. -/
theorem field (h : Draws inner read parts) {absent a : α} (habsent : parts absent = [])
    (hread : fieldOr name read absent ms = .ok a) : ∀ i ∈ parts a, StandsIn inner (.record ms) i := by
  obtain ⟨v, hv, hread⟩ | ⟨-, rfl⟩ := fieldOr_eq_ok.1 hread
  · exact fun i hi ↦ (h hread i hi).inside (.of_lookup hv)
  · rw [habsent]
    exact List.forall_mem_nil _

theorem listField (h : Draws inner read parts) {as : List α}
    (hread : fieldOr name (Schema.list read) [] ms = .ok as) :
    ∀ i ∈ as.flatMap parts, StandsIn inner (.record ms) i :=
  h.list.field rfl hread

theorem optionField (h : Draws inner read parts) {o : Option α}
    (hread : fieldOr name (Schema.nullable read) none ms = .ok o) :
    ∀ i ∈ o.toList.flatMap parts, StandsIn inner (.record ms) i :=
  h.nullable.field rfl hread

end Fields

end Draws

section Fields

variable {read : Reader α} {name : String} {ms : Members}

/-- What was read of a field is itself read from a value that stands in the record. -/
theorem standsIn_of_listField {as : List α} (h : fieldOr name (list read) [] ms = .ok as) :
    ∀ a ∈ as, StandsIn read (.record ms) a := by
  have hself : Draws read read fun a ↦ [a] := .self
  have hfield := hself.listField h
  rwa [List.flatMap_singleton'] at hfield

theorem standsIn_of_optionField {o : Option α} (h : fieldOr name (nullable read) none ms = .ok o) :
    ∀ a ∈ o.toList, StandsIn read (.record ms) a := by
  have hself : Draws read read fun a ↦ [a] := .self
  have hfield := hself.optionField h
  rwa [List.flatMap_singleton'] at hfield

end Fields

end Schema

end ModelServer
