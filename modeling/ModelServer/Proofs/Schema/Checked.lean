import Mathlib.Data.List.Forall2
import ModelServer.Schema.Checked

/-!
# What is known of a value that was read

A record is read by reading its members, and everything that is known of the record is known of its
members: `seq_eq_ok`, `field_eq_ok` and their like take a reading that succeeded apart, one member at a
time. `record_eq_ok`, `list_eq_ok` and `union_eq_ok` do so with a value, down to the values it is made
of. Nothing here speaks of issues.
-/

namespace ModelServer.Schema

variable {α β : Type}

namespace Checked

theorem map_eq_ok {f : α → β} {c : Checked α} {b : β} :
    c.map f = ok b ↔ ∃ a, c = ok a ∧ f a = b := by
  cases c <;> simp [map]

theorem seq_eq_ok {f : Checked (α → β)} {c : Checked α} {b : β} :
    f.seq c = ok b ↔ ∃ g a, f = ok g ∧ c = ok a ∧ g a = b := by
  cases f <;> cases c <;> simp [seq]

theorem andThen_eq_ok {f : α → Checked β} {c : Checked α} {b : β} :
    c.andThen f = ok b ↔ ∃ a, c = ok a ∧ f a = ok b := by
  cases c <;> simp [andThen]

@[simp]
theorem under_eq_ok {step : Step} {c : Checked α} {a : α} : c.under step = ok a ↔ c = ok a := by
  cases c <;> simp [under]

@[simp]
theorem fail_ne_ok {cause : Cause} {a : α} : fail cause ≠ ok a := nofun

end Checked

variable {read : Reader α} {ms : Members} {a : α}

theorem field_eq_ok {name : String} :
    field name read ms = .ok a ↔ ∃ v, Data.lookup name ms = some v ∧ read v = .ok a := by
  rw [field]
  cases Data.lookup name ms <;> simp

theorem fieldOr_eq_ok {name : String} {absent : α} :
    fieldOr name read absent ms = .ok a ↔
      (∃ v, Data.lookup name ms = some v ∧ read v = .ok a) ∨
        (Data.lookup name ms = none ∧ absent = a) := by
  rw [fieldOr]
  cases Data.lookup name ms <;> simp

theorem record_eq_ok {title : String} {fields : Members → Checked α} {v : Json} :
    record title fields v = .ok a ↔ ∃ ms, v = .record ms ∧ fields ms = .ok a := by
  cases v <;> simp [record]

theorem nullable_eq_ok {v : Json} {o : Option α} :
    nullable read v = .ok o ↔
      (v = .null ∧ o = none) ∨ (v ≠ .null ∧ ∃ a, read v = .ok a ∧ o = some a) := by
  cases v <;> simp [nullable, Checked.map_eq_ok, eq_comm]

/-- Items are read one by one. -/
theorem items_eq_ok {index : Nat} {vs : List Json} {as : List α} :
    items read index vs = .ok as ↔ List.Forall₂ (fun v a ↦ read v = .ok a) vs as := by
  induction vs generalizing index as with
  | nil => simp [items, eq_comm]
  | cons v rest ih =>
    rw [items, Checked.seq_eq_ok, List.forall₂_cons_left_iff]
    constructor
    · rintro ⟨_, bs, hfirst, hrest, rfl⟩
      obtain ⟨b, hb, rfl⟩ := Checked.map_eq_ok.1 hfirst
      exact ⟨b, bs, Checked.under_eq_ok.1 hb, ih.1 hrest, rfl⟩
    · rintro ⟨b, bs, hb, hrest, rfl⟩
      exact ⟨_, bs, Checked.map_eq_ok.2 ⟨b, Checked.under_eq_ok.2 hb, rfl⟩, ih.2 hrest, rfl⟩

theorem list_eq_ok {v : Json} {as : List α} :
    list read v = .ok as ↔ ∃ vs, v = .list vs ∧ List.Forall₂ (fun v a ↦ read v = .ok a) vs as := by
  cases v <;> simp [list, items_eq_ok]

/-- The names of what is read from a record are the names of its members. -/
theorem names_of_values {entries : List (String × α)}
    (h : values read ms = .ok entries) : entries.map Prod.fst = ms.map Prod.fst := by
  induction ms generalizing entries with
  | nil =>
    cases h
    rfl
  | cons m rest ih =>
    obtain ⟨_, entries, hfirst, hrest, rfl⟩ := Checked.seq_eq_ok.1 h
    obtain ⟨a, -, rfl⟩ := Checked.map_eq_ok.1 hfirst
    rw [List.map_cons, List.map_cons, ih hrest]

/-- Of lists that are related item by item, each item of the second has its item of the first. -/
theorem exists_of_forall₂ {R : α → β → Prop} {as : List α} {bs : List β}
    (h : List.Forall₂ R as bs) : ∀ b ∈ bs, ∃ a ∈ as, R a b := by
  induction h with
  | nil => exact fun b hb ↦ absurd hb List.not_mem_nil
  | cons hfirst _ ih =>
    refine List.forall_mem_cons.2 ⟨⟨_, List.mem_cons_self, hfirst⟩, fun b hb ↦ ?_⟩
    obtain ⟨a, ha, hab⟩ := ih b hb
    exact ⟨a, List.mem_cons_of_mem _ ha, hab⟩

/-- A record of one of several kinds is read by the reader of the kind it names. -/
theorem union_eq_ok {cases : List (String × Reader α)} {v : Json} :
    union cases v = .ok a ↔ ∃ ms tag read, v = .record ms ∧
      Data.lookup "kind" ms = some (.text tag) ∧ cases.find? (·.1 = tag) = some (tag, read) ∧
      read v = .ok a := by
  constructor
  · intro h
    cases v with
    | record ms =>
      rw [union] at h
      split at h
      · exact absurd h Checked.fail_ne_ok
      · next value hkind =>
        split at h
        · next t read ht =>
          obtain ⟨tag, htag, hfind⟩ := Option.bind_eq_some_iff.1 ht
          have hname := List.find?_some hfind
          obtain rfl : t = tag := of_decide_eq_true hname
          obtain rfl : value = .text t := by
            cases value <;> cases htag
            rfl
          exact ⟨ms, t, read, rfl, hkind, hfind, Checked.under_eq_ok.1 h⟩
        · exact absurd h Checked.fail_ne_ok
    | _ => cases h
  · rintro ⟨ms, tag, read, rfl, hkind, hfind, hread⟩
    rw [union, hkind]
    simp only [Data.text?, Option.bind_some, hfind, Checked.under_eq_ok, hread]

theorem text_eq_ok {v : Json} {s : String} : text v = .ok s ↔ v = .text s := by
  cases v <;> simp [text]

theorem someText_eq_ok {v : Json} {s : String} :
    someText v = .ok s ↔ v = .text s ∧ Text.isWhole s = true ∧ s.isEmpty = false := by
  simp only [someText, wholeText, Checked.andThen_eq_ok, text_eq_ok]
  constructor
  · rintro ⟨a, ⟨b, rfl, hb⟩, ha⟩
    split at hb
    · next hwhole =>
      obtain rfl := Checked.ok.inj hb
      split at ha
      · exact absurd ha Checked.fail_ne_ok
      · next hempty =>
        obtain rfl := Checked.ok.inj ha
        exact ⟨rfl, hwhole, eq_false_of_ne_true hempty⟩
    · exact absurd hb Checked.fail_ne_ok
  · rintro ⟨rfl, hwhole, hempty⟩
    exact ⟨s, ⟨s, rfl, by rw [if_pos hwhole]⟩, by rw [hempty, if_neg Bool.false_ne_true]⟩

end ModelServer.Schema
