import ModelServer.Proofs.Except
import ModelServer.Proofs.Json.Pruned
import ModelServer.Value

/-!
# What is shown for an output

`Value.Shows` says without the functions that show it which text stands for a value: a text for itself,
octets for the characters that they are, and everything else is set out as the JSON that comes of it when
each leaf that JSON has no form for is put as its text (`Value.plain`). There is just one such text, and it
is the one that is rendered (`shows_iff`).

As JSON it is read again as that value, its members in the order of their names (`read_renderOutput`): by
this what a collaborator hands over is not lost where it is shown, unless it was no JSON to begin with.
-/

namespace ModelServer

/-! ### Octets as text -/

namespace Text.Utf8

/-- The octets are these characters, if U+FFFD stands for each run that is ill-formed. -/
inductive Reads : List UInt8 → List Char → Prop
  | nil : Reads [] []
  | char {b : UInt8} {rest rest' : List UInt8} {c : Char} {cs : List Char} (h : step b rest = .char c rest')
    (hrest : Reads rest' cs) : Reads (b :: rest) (c :: cs)
  | fault {b : UInt8} {run rest rest' : List UInt8} {reason : Reason} {cs : List Char}
    (h : step b rest = .fault run reason rest') (hrest : Reads rest' cs) :
    Reads (b :: rest) ('\uFFFD' :: cs)

/-- What octets are read as is theirs alone. -/
theorem Reads.unique {bs : List UInt8} {cs ds : List Char} (h : Reads bs cs) (h' : Reads bs ds) :
    cs = ds := by
  induction h generalizing ds with
  | nil =>
    cases h'
    rfl
  | char hstep _ ih =>
    cases h' with
    | char hstep' hrest' =>
      cases hstep.symm.trans hstep'
      exact congrArg _ (ih hrest')
    | fault hstep' _ => cases hstep.symm.trans hstep'
  | fault hstep _ ih =>
    cases h' with
    | char hstep' _ => cases hstep.symm.trans hstep'
    | fault hstep' hrest' =>
      cases hstep.symm.trans hstep'
      exact congrArg _ (ih hrest')

/-- The octets behind a character or a run. -/
def Step.rest : Step → List UInt8
  | .char _ rest => rest
  | .fault _ _ rest => rest

theorem length_rest_continueWith_le (seen : List UInt8) (value owed : Nat) (lo hi : UInt8)
    (bs : List UInt8) : (continueWith seen value owed lo hi bs).rest.length ≤ bs.length := by
  fun_induction continueWith seen value owed lo hi bs with
  | case1 => exact Nat.le_refl _
  | case2 => exact Nat.le_refl _
  | case3 seen value owed lo hi b rest _ ih => exact Nat.le_succ_of_le ih
  | case4 => exact Nat.le_refl _

/-- A step takes its first octet, and leaves no more than what was behind it. -/
theorem length_rest_step_le (b : UInt8) (bs : List UInt8) : (step b bs).rest.length ≤ bs.length := by
  rw [step]
  split
  · exact Nat.le_refl _
  split
  · exact length_rest_continueWith_le _ _ _ _ _ _
  split
  · exact length_rest_continueWith_le _ _ _ _ _ _
  split
  · exact length_rest_continueWith_le _ _ _ _ _ _
  · exact Nat.le_refl _

theorem reads_decodeLossyFrom {fuel : Nat} {bs : List UInt8} (h : bs.length ≤ fuel) :
    Reads bs (decodeLossyFrom fuel bs) := by
  induction fuel generalizing bs with
  | zero =>
    obtain rfl := List.eq_nil_of_length_eq_zero (Nat.le_zero.1 h)
    exact .nil
  | succ fuel ih =>
    cases bs with
    | nil => exact .nil
    | cons b rest =>
      have hrest := length_rest_step_le b rest
      rw [decodeLossyFrom]
      cases hstep : step b rest with
      | char c rest' =>
        rw [hstep] at hrest
        exact .char hstep (ih (Nat.le_trans hrest (Nat.le_of_succ_le_succ h)))
      | fault run reason rest' =>
        rw [hstep] at hrest
        exact .fault hstep (ih (Nat.le_trans hrest (Nat.le_of_succ_le_succ h)))

/-- **Octets are shown as what they are read as.** -/
theorem reads_decodeLossy (bs : List UInt8) : Reads bs (decodeLossy bs).toList := by
  rw [decodeLossy, String.toList_ofList]
  exact reads_decodeLossyFrom (Nat.le_refl _)

theorem decodeLossyFrom_of_decodeFrom {fuel offset : Nat} {bs : List UInt8} {cs : List Char}
    (h : decodeFrom fuel offset bs = .ok cs) : decodeLossyFrom fuel bs = cs := by
  fun_induction decodeFrom fuel offset bs generalizing cs with
  | case1 => exact Except.ok.inj h
  | case2 => exact Except.ok.inj h
  | case3 fuel offset b rest c rest' hstep ih =>
    obtain ⟨cs', hcs', hcs⟩ := bind_eq_ok_iff.1 h
    obtain rfl := Except.ok.inj hcs
    rw [decodeLossyFrom, hstep]
    exact congrArg _ (ih hcs')
  | case4 => cases h

/-- **Well-formed octets are shown as the text that they are.** -/
theorem decodeLossy_of_decode {bs : List UInt8} {s : String} (h : decode bs = .ok s) :
    decodeLossy bs = s := by
  obtain ⟨cs, hcs, rfl⟩ := map_eq_ok_iff.1 h
  rw [decodeLossy, decodeLossyFrom_of_decodeFrom hcs]

end Text.Utf8

/-! ### Leaves that JSON has no form for -/

namespace Data

variable {α β : Type} (f : α → Data β)

theorem bindList_eq_map (vs : List (Data α)) : bindList f vs = vs.map (bind f) := by
  induction vs with
  | nil => rfl
  | cons v rest ih => rw [bindList, ih, List.map_cons]

theorem bindMembers_eq (ms : List (String × Data α)) :
    bindMembers f ms = Dictionary.mapValues (fun _ v ↦ bind f v) ms := by
  induction ms with
  | nil => rfl
  | cons m rest ih =>
    rw [bindMembers, ih]
    rfl

end Data

namespace Json

/-- **A leaf is written as the text in its place would be.** -/
theorem writeAt_bind {α β : Type} (style : Style) (leaf : α → String) (leaf' : β → String) (v : Data α)
    (column : Nat) :
    writeAt style leaf' column (v.bind fun a ↦ .text (leaf a)) = writeAt style leaf column v := by
  induction v using Data.induct generalizing column with
  | list items ih =>
    rw [Data.bind, writeAt, writeAt, writeItems_eq_map, writeItems_eq_map, Data.bindList_eq_map,
      List.map_map]
    exact congrArg _ (List.map_congr_left fun v hv ↦ ih v hv (column + 1))
  | record ms ih =>
    have hvalues : (Dictionary.sort ms).map (fun m ↦
          (m.1, writeAt style leaf' (column + 1) (m.2.bind fun a ↦ .text (leaf a)))) =
        (Dictionary.sort ms).map fun m ↦ (m.1, writeAt style leaf (column + 1) m.2) :=
      List.map_congr_left fun m hm ↦ by rw [ih m ((Dictionary.sort_perm ms).mem_iff.1 hm)]
    rw [Data.bind, writeAt, writeAt, sort_writeMembers, sort_writeMembers, Data.bindMembers_eq,
      ← Dictionary.mapValues_sort, ← hvalues, Dictionary.mapValues]
    simp only [List.map_map]
    rfl
  | _ => rfl

end Json

namespace Value

/-- The value with each leaf that JSON has no form for put as its text. -/
def plain (v : Value) : Json :=
  v.bind fun a ↦ .text a.describe

/-- The text that stands for a value. -/
inductive Shows : Value → String → Prop
  | text (s : String) : Shows (.text s) s
  | octets {bs : List UInt8} {s : String} (h : Text.Utf8.Reads bs s.toList) :
    Shows (.foreign (.octets bs)) s
  | set {v : Value} (htext : ∀ s, v ≠ .text s) (hoctets : ∀ bs, v ≠ .foreign (.octets bs)) :
    Shows v (Json.pretty v.plain)

theorem renderOutput_eq_pretty {v : Value} (htext : ∀ s, v ≠ .text s)
    (hoctets : ∀ bs, v ≠ .foreign (.octets bs)) : v.renderOutput = Json.pretty v.plain := by
  rw [Json.pretty, plain, Json.writeAt_bind, renderOutput]
  · exact htext
  · exact hoctets

/-- A value is shown as a text that stands for it. -/
theorem shows_renderOutput (v : Value) : v.Shows v.renderOutput := by
  by_cases htext : ∃ s, v = .text s
  · obtain ⟨s, rfl⟩ := htext
    exact .text s
  by_cases hoctets : ∃ bs, v = .foreign (.octets bs)
  · obtain ⟨bs, rfl⟩ := hoctets
    exact .octets (Text.Utf8.reads_decodeLossy bs)
  rw [not_exists] at htext hoctets
  rw [renderOutput_eq_pretty htext hoctets]
  exact .set htext hoctets

/-- **Each value is shown as the one text that stands for it.** -/
theorem shows_iff {v : Value} {s : String} : v.Shows s ↔ v.renderOutput = s := by
  refine ⟨fun h ↦ ?_, fun h ↦ h ▸ shows_renderOutput v⟩
  cases h with
  | text => rfl
  | octets h => exact String.toList_inj.1 ((Text.Utf8.reads_decodeLossy _).unique h)
  | set htext hoctets => exact renderOutput_eq_pretty htext hoctets

/-- **What is set out is read again**, with a text in the place of each leaf that JSON has no form for. -/
theorem read_renderOutput [Depths] {v : Value} (htext : ∀ s, v ≠ .text s)
    (hoctets : ∀ bs, v ≠ .foreign (.octets bs)) (hv : Json.Denoted v.plain) (hapart : v.plain.Apart)
    (hdepth : v.plain.height ≤ Depths.reading) :
    Json.read v.renderOutput = .ok v.plain.ordered := by
  rw [shows_iff.1 (.set htext hoctets)]
  exact Json.read_pretty hv hapart hdepth

end Value

/-- **An output is shown unless it is obscure**, and then by the text that stands for its value. -/
theorem Output.render_eq_ok_iff {o : Output} {s : String} :
    o.render = .ok s ↔ ∃ v, o = .value v ∧ v.Shows s := by
  cases o with
  | obscure f =>
    constructor
    · intro h
      cases h
    · rintro ⟨v, h, -⟩
      cases h
  | value v =>
    constructor
    · exact fun h ↦ ⟨v, rfl, Value.shows_iff.2 (Except.ok.inj h)⟩
    · rintro ⟨w, h, hw⟩
      cases h
      exact congrArg _ (Value.shows_iff.1 hw)

end ModelServer
