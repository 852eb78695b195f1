import Mathlib.Data.List.TakeDrop
import Mathlib.Data.List.TakeWhile
import ModelServer.CommandLine.Pairs
import ModelServer.Proofs.Dictionary
import ModelServer.Proofs.Except

/-!
# Names and values on a command line

An entry that gives a name a text is `Pairs.entry`, and every entry is either one of these or malformed
(`Pairs.entry_or_malformed`): a name is not empty and holds no sign of equality, so the first sign in an
entry is where its name ends, and what stands behind may hold further ones.

A list of entries comes to the dictionary that they make (`Pairs.texts_entries`, `Pairs.values_entries`),
in which the last text for a name is the one that counts (`Dictionary.lookup_ofList`). If one is malformed
the whole list is refused (`Pairs.texts_of_malformed`). Where texts are read as values there is one more
way to fail: a text may be nested too deep to be read (`Pairs.Unfit`, `Pairs.values_of_unfit`).
-/

namespace ModelServer.CommandLine

namespace Pairs

/-- The entry that gives the name the text. -/
def entry (p : String × String) : String :=
  p.1 ++ "=" ++ p.2

/-- A name that can be given: it is not empty, and there is no sign of equality in it. -/
structure IsName (name : String) : Prop where
  ne_empty : name ≠ ""
  not_mem : '=' ∉ name.toList

instance (name : String) : Decidable (IsName name) :=
  decidable_of_iff (name ≠ "" ∧ '=' ∉ name.toList) ⟨fun h ↦ ⟨h.1, h.2⟩, fun h ↦ ⟨h.1, h.2⟩⟩

/-- The entry has no sign of equality, or no name before it. -/
def Malformed (e : String) : Prop :=
  '=' ∉ e.toList ∨ e.toList.head? = some '='

/-- What a text stands for: the value that it denotes as JSON, or the text itself if it is no JSON. -/
def denoted [Depths] (text : String) : Json :=
  match Json.read text with
  | .ok v => v
  | .error _ => .text text

/-- The text is not nested too deep to be read. -/
def Shallow [Depths] (text : String) : Prop :=
  ∀ f, Json.read text = .error f → f.isDepth = false

/-! ### One entry -/

theorem toList_entry (name text : String) :
    (entry (name, text)).toList = name.toList ++ '=' :: text.toList := by
  rw [entry, String.toList_append, String.toList_append, List.append_assoc]
  rfl

theorem splitAtEquals_of_not_mem {e : String} (h : '=' ∉ e.toList) : splitAtEquals e = (e, none) := by
  have hall : ∀ c ∈ e.toList, (c != '=') = true := fun c hc ↦ bne_iff_ne.2 (ne_of_mem_of_not_mem hc h)
  rw [splitAtEquals, List.span_eq_takeWhile_dropWhile, List.dropWhile_eq_nil_iff.2 hall]

/-- An entry is split at its first sign of equality. -/
theorem splitAtEquals_entry {name : String} (h : '=' ∉ name.toList) (text : String) :
    splitAtEquals (entry (name, text)) = (name, some text) := by
  have hall : ∀ c ∈ name.toList, (c != '=') = true :=
    fun c hc ↦ bne_iff_ne.2 (ne_of_mem_of_not_mem hc h)
  have hbefore : (name.toList ++ '=' :: text.toList).takeWhile (· != '=') = name.toList := by
    rw [List.takeWhile_append_of_pos hall, List.takeWhile_cons_of_neg (by decide), List.append_nil]
  have hbehind : (name.toList ++ '=' :: text.toList).dropWhile (· != '=') = '=' :: text.toList := by
    rw [List.dropWhile_append_of_pos hall, List.dropWhile_cons_of_neg (by decide)]
  rw [splitAtEquals, List.span_eq_takeWhile_dropWhile, toList_entry, hbefore, hbehind]
  dsimp only
  rw [String.ofList_toList, String.ofList_toList]

/-- **Every entry gives a name a text, or is malformed.** -/
theorem entry_or_malformed (e : String) : (∃ p, IsName p.1 ∧ e = entry p) ∨ Malformed e := by
  by_cases h : '=' ∈ e.toList
  · obtain ⟨before, behind, he, hbefore⟩ := List.eq_append_cons_of_mem h
    have hentry : e = entry (String.ofList before, String.ofList behind) := by
      apply String.toList_injective
      rw [toList_entry, String.toList_ofList, String.toList_ofList, he]
    cases before with
    | nil => exact .inr (.inr (congrArg List.head? he))
    | cons c cs =>
      refine .inl ⟨_, ⟨fun hempty ↦ ?_, ?_⟩, hentry⟩
      · have hchars := congrArg String.toList hempty
        rw [String.toList_ofList] at hchars
        cases hchars
      · rwa [String.toList_ofList]
  · exact .inr (.inl h)

theorem split_entry {p : String × String} (h : IsName p.1) (option : String) :
    split option (entry p) = .ok p := by
  have hname : p.1.isEmpty = false := by
    rw [Bool.eq_false_iff, ne_eq, String.isEmpty_iff]
    exact h.ne_empty
  rw [split, splitAtEquals_entry h.not_mem]
  dsimp only
  rw [hname, if_neg Bool.false_ne_true]

theorem split_of_malformed {e : String} (h : Malformed e) (option : String) :
    split option e = .error (split.refusal option e) := by
  rcases h with h | h
  · rw [split, splitAtEquals_of_not_mem h]
  · obtain ⟨behind, he⟩ := List.head?_eq_some_iff.1 h
    have hentry : e = entry ("", String.ofList behind) := by
      apply String.toList_injective
      rw [toList_entry, String.toList_ofList, String.toList_ofList, he, List.nil_append]
    rw [hentry, split, splitAtEquals_entry List.not_mem_nil]
    rfl

/-- A text that is not nested too deep comes to what it denotes. -/
theorem decode_eq_ok_iff [Depths] {text : String} {v : Json} :
    decode text = .ok v ↔ Shallow text ∧ denoted text = v := by
  rw [decode, denoted, Shallow]
  cases hread : Json.read text with
  | ok w =>
    refine ⟨fun h ↦ ⟨fun f hf ↦ ?_, Except.ok.inj h⟩, fun h ↦ congrArg Except.ok h.2⟩
    cases hf
  | error f =>
    dsimp only
    cases hdepth : f.isDepth with
    | true =>
      rw [if_pos rfl]
      refine ⟨fun h ↦ ?_, fun h ↦ ?_⟩
      · cases h
      · rw [h.1 f rfl] at hdepth
        cases hdepth
    | false =>
      rw [if_neg Bool.false_ne_true]
      refine ⟨fun h ↦ ⟨fun g hg ↦ ?_, Except.ok.inj h⟩, fun h ↦ congrArg Except.ok h.2⟩
      rw [← Except.error.inj hg, hdepth]

theorem member_entry [Depths] {p : String × String} (h : IsName p.1) (option : String) :
    member option (entry p) = ((decode p.2).mapError .fault).map (p.1, ·) := by
  rw [member, split_entry h]
  show ((decode p.2).mapError Stop.fault >>= fun v ↦ pure (p.1, v)) = _
  cases decode p.2 <;> rfl

/-- Why an entry is none that gives a name a value. -/
inductive Unfit [Depths] (option e : String) : Stop → Prop
  | malformed (h : Malformed e) : Unfit option e (.usage (split.refusal option e))
  | deep {p : String × String} {f : Json.Fault} (hname : IsName p.1) (he : e = entry p)
      (hread : Json.read p.2 = .error f) (hdepth : f.isDepth = true) :
      Unfit option e (.fault (.unreadable f))

/-- **An entry comes to nothing exactly if it is unfit.** -/
theorem member_eq_error_iff [Depths] {option e : String} {stop : Stop} :
    member option e = .error stop ↔ Unfit option e stop := by
  constructor
  · intro h
    rcases entry_or_malformed e with ⟨p, hp, rfl⟩ | hbad
    · rw [member_entry hp, decode] at h
      cases hread : Json.read p.2 with
      | ok v =>
        rw [hread] at h
        cases h
      | error f =>
        rw [hread] at h
        dsimp only at h
        split at h
        · next hdepth =>
          cases h
          exact .deep hp rfl hread hdepth
        · cases h
    · rw [member, split_of_malformed hbad] at h
      cases h
      exact .malformed hbad
  · intro h
    cases h with
    | malformed hbad =>
      rw [member, split_of_malformed hbad]
      rfl
    | deep hname he hread hdepth =>
      rw [he, member_entry hname, decode, hread]
      dsimp only
      rw [hdepth, if_pos rfl]
      rfl

/-! ### Lists of entries -/

/-- **Entries that give names texts come to the dictionary that they make.** -/
theorem texts_entries {ps : List (String × String)} (h : ∀ p ∈ ps, IsName p.1) (option : String) :
    texts option (ps.map entry) = .ok (Dictionary.ofList ps) := by
  have hall : ∀ p ∈ ps, (split option ∘ entry) p = .ok (id p) := fun p hp ↦ split_entry (h p hp) option
  rw [texts, List.mapM_map, mapM_eq_ok hall, List.map_id]
  rfl

/-- Every list without a malformed entry is such a list. -/
theorem eq_map_entry {entries : List String} (h : ¬∃ e ∈ entries, Malformed e) :
    ∃ ps : List (String × String), (∀ p ∈ ps, IsName p.1) ∧ entries = ps.map entry := by
  induction entries with
  | nil => exact ⟨[], List.forall_mem_nil _, rfl⟩
  | cons e rest ih =>
    obtain ⟨p, hp, rfl⟩ := (entry_or_malformed e).resolve_right fun hbad ↦
      h ⟨e, List.mem_cons_self, hbad⟩
    obtain ⟨ps, hps, rfl⟩ := ih fun ⟨e, he, hbad⟩ ↦ h ⟨e, List.mem_cons_of_mem _ he, hbad⟩
    exact ⟨p :: ps, List.forall_mem_cons.2 ⟨hp, hps⟩, rfl⟩

/-- **A list with a malformed entry is refused**, and what is told is one that is malformed. -/
theorem texts_of_malformed {entries : List String} (h : ∃ e ∈ entries, Malformed e)
    (option : String) :
    ∃ e ∈ entries, Malformed e ∧ texts option entries = .error (split.refusal option e) := by
  obtain ⟨e, he, hbad⟩ := h
  obtain ⟨e, he, u, hfails, hrun⟩ := mapM_eq_error ⟨e, he, _, split_of_malformed hbad option⟩
  have hbad : Malformed e := by
    refine (entry_or_malformed e).resolve_left ?_
    rintro ⟨p, hp, rfl⟩
    rw [split_entry hp] at hfails
    cases hfails
  obtain rfl := Except.error.inj ((split_of_malformed hbad option).symm.trans hfails)
  refine ⟨e, he, hbad, ?_⟩
  rw [texts, hrun]
  rfl

/-- **Where values are read, the dictionary holds what the texts denote.** -/
theorem values_entries [Depths] {ps : List (String × String)} (h : ∀ p ∈ ps, IsName p.1 ∧ Shallow p.2)
    (option : String) :
    values option (ps.map entry) =
      .ok (Dictionary.ofList (Dictionary.mapValues (fun _ text ↦ denoted text) ps)) := by
  have hall : ∀ p ∈ ps, (member option ∘ entry) p = .ok (p.1, denoted p.2) := by
    intro p hp
    rw [Function.comp, member_entry (h p hp).1, decode_eq_ok_iff.2 ⟨(h p hp).2, rfl⟩]
    rfl
  rw [values, List.mapM_map, mapM_eq_ok hall]
  rfl

/-- **A list of values with an entry that is unfit ends for the reason of one.** -/
theorem values_of_unfit [Depths] {option : String} {entries : List String}
    (h : ∃ e ∈ entries, ∃ stop, Unfit option e stop) :
    ∃ e ∈ entries, ∃ stop, Unfit option e stop ∧ values option entries = .error stop := by
  obtain ⟨e, he, stop, hunfit⟩ := h
  obtain ⟨e, he, stop, hfails, hrun⟩ := mapM_eq_error ⟨e, he, stop, member_eq_error_iff.2 hunfit⟩
  refine ⟨e, he, stop, member_eq_error_iff.1 hfails, ?_⟩
  rw [values, hrun]
  rfl

end Pairs

end ModelServer.CommandLine
