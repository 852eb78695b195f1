import ModelServer.Proofs.Json.Pruned
import ModelServer.Proofs.Registration.Response

/-!
# How an answer is shown is canonical

An answer that is JSON is shown as a text that stands for the same value, but for null members, and that is
the only text by which any answer of that value is shown (`formatResponse_canonical`). Shown once more it
stays as it is, since what is pruned can be pruned no further and what is in order is in order.

Two things bound this. An answer that is nested too deep is not shown (`TooDeep`), whether or not it is JSON;
nothing tells such an answer from one that is no JSON before the depth is reached
(`openings_not_shown`). And a text that keeps a high surrogate alone right before a low one is shown by two
escapes which read back as one character, so such texts are left out (`Data.Apart`).
-/

namespace ModelServer.Registration

open Json

variable {text : String}

/-! ### What is shown of JSON -/

theorem formatResponse_of_read [Depths] {v : Json} (hread : Json.read text = .ok v)
    (hheight : v.height ≤ Depths.showing) : formatResponse text = .ok (pretty v.dropNulls) := by
  rw [formatResponse, hread]
  exact if_neg (Nat.not_lt.2 hheight)

/-- Values that can be pruned to the same are set out alike … -/
theorem pretty_of_pruned {v w : Json} (hv : v.Distinct) (h : v.Pruned w) :
    pretty v.dropNulls = pretty w := by
  rw [← pretty_ordered v.dropNulls, ← h.ordered_eq hv, pretty_ordered]

/-- … if they are, since they are equally deep. -/
theorem height_of_pruned {v w : Json} (hv : v.Distinct) (h : v.Pruned w) : v.height = w.height := by
  rw [← Data.height_dropNulls v, ← Data.height_ordered v.dropNulls, ← h.ordered_eq hv, Data.height_ordered]

/-- **What is shown of JSON stands for its value without null members, and is shown as it is.** -/
theorem exists_shown_of_read [Depths] {v : Json} (hread : Json.read text = .ok v)
    (hheight : v.height ≤ Depths.showing) (hapart : v.dropNulls.Apart) :
    ∃ shown w, formatResponse text = .ok shown ∧ Json.read shown = .ok w ∧ v.Pruned w ∧
      formatResponse shown = .ok shown := by
  have hv := denoted_of_read hread
  have hpruned : v.Pruned v.dropNulls.ordered := (Data.pruned_dropNulls hv.distinct).ordered
  have hdepth : v.dropNulls.height ≤ Depths.reading := by
    rw [Data.height_dropNulls]
    exact Nat.le_trans hheight Depths.showing_le_reading
  have hback : Json.read (pretty v.dropNulls) = .ok v.dropNulls.ordered :=
    read_pretty hv.dropNulls hapart hdepth
  refine ⟨_, _, formatResponse_of_read hread hheight, hback, hpruned, ?_⟩
  rw [formatResponse_of_read hback (height_of_pruned hv.distinct hpruned ▸ hheight),
    pretty_of_pruned hpruned.distinct hpruned.self, pretty_ordered]

/-- **JSON that comes to the same without null members is shown alike.** -/
theorem formatResponse_eq_of_pruned [Depths] {other : String} {u v w : Json}
    (hu : Json.read other = .ok u) (hv : Json.read text = .ok v) (hheight : v.height ≤ Depths.showing)
    (h : u.Pruned w) (h' : v.Pruned w) : formatResponse other = formatResponse text := by
  have hdu := (denoted_of_read hu).distinct
  have hdv := (denoted_of_read hv).distinct
  have hheight' : u.height ≤ Depths.showing := by
    rwa [height_of_pruned hdu h, ← height_of_pruned hdv h']
  rw [formatResponse_of_read hu hheight', formatResponse_of_read hv hheight, pretty_of_pruned hdu h,
    pretty_of_pruned hdv h']

/-! ### What is shown of any answer -/

/-- **What is shown is canonical.** An answer that is nested too deep is not shown. Any other is shown
verbatim if it is no JSON. If it is, then what is shown stands for its value without null members, and is
shown as it is; and whatever other JSON comes to the same without null members, but for the order of
members, is shown as the same text. -/
theorem formatResponse_canonical [Depths] (text : String) :
    (TooDeep text → ∃ f, formatResponse text = .error f ∧ f.name = "RecursionError") ∧
    (¬TooDeep text →
      (∀ f, Json.read text = .error f → formatResponse text = .ok text) ∧
      (∀ v, Json.read text = .ok v → v.dropNulls.Apart →
        ∃ shown w, formatResponse text = .ok shown ∧ Json.read shown = .ok w ∧ v.Pruned w ∧
          formatResponse shown = .ok shown) ∧
      ∀ v w, Json.read text = .ok v → v.Pruned w →
        ∀ other u, Json.read other = .ok u → u.Pruned w →
          formatResponse other = formatResponse text) := by
  refine ⟨formatResponse_of_tooDeep, fun hdeep ↦ ⟨fun f hread ↦ ?_, fun v hread hapart ↦ ?_,
    fun v w hread hpruned other u hother hpruned' ↦ ?_⟩⟩
  · rw [formatResponse, hread]
    exact if_neg (mt (tooDeep_iff_of_not_read hread).2 hdeep)
  · have hheight := Nat.not_lt.1 (mt (tooDeep_iff_of_read hread).2 hdeep)
    exact exists_shown_of_read hread hheight hapart
  · have hheight := Nat.not_lt.1 (mt (tooDeep_iff_of_read hread).2 hdeep)
    exact formatResponse_eq_of_pruned hother hread hheight hpruned' hpruned

/-- An answer with nulls in a record and in a list. -/
def sampleText : String :=
  "\x7b\"b\": null, \"a\": [null, \x7b\"c\": null\x7d]\x7d"

/-- The value that it stands for. -/
def sampleValue : Json :=
  .record [("b", .null), ("a", .list [.null, .record [("c", .null)]])]

open Depths in
/-- An answer is shown as JSON, another of the same value but for nulls is shown alike, and one that is no
JSON is shown verbatim. -/
theorem formatResponse_sampleText :
    (∃ shown w, formatResponse sampleText = .ok shown ∧ Json.read shown = .ok w ∧ sampleValue.Pruned w ∧
      formatResponse shown = .ok shown) ∧
    formatResponse "\x7b\"a\":[null,\x7b\x7d]\x7d" = formatResponse sampleText ∧
    formatResponse "plain text" = .ok "plain text" := by
  have hread : Json.read sampleText = .ok sampleValue := by
    simp only [Json.read, sampleText, String.reduceToList]
    rfl
  have hother : Json.read "\x7b\"a\":[null,\x7b\x7d]\x7d" =
      .ok (.record [("a", .list [.null, .record []])]) := by
    simp only [Json.read, String.reduceToList]
    rfl
  have hplain : Json.read "plain text" = .error ⟨.value, []⟩ := by
    simp only [Json.read, String.reduceToList]
    rfl
  have hdeep : ¬TooDeep sampleText := mt (tooDeep_iff_of_read hread).1 (by decide)
  have hdeep' : ¬TooDeep "plain text" := mt (tooDeep_iff_of_not_read hplain).1 (by decide)
  obtain ⟨-, hshown, halike⟩ := (formatResponse_canonical sampleText).2 hdeep
  have hapart : sampleValue.dropNulls.Apart := by
    have hname : Text.Apart "a" := by decide
    show (Data.record [("a", Data.list [.null, .record []])]).Apart
    simp [Data.apart_record_iff, Data.apart_list_iff, hname, Data.Apart.null]
  refine ⟨hshown _ hread hapart, ?_, ?_⟩
  · exact halike _ _ hread (Data.pruned_dropNulls (denoted_of_read hread).distinct) _ _ hother
      (Data.pruned_dropNulls (denoted_of_read hother).distinct)
  · exact ((formatResponse_canonical "plain text").2 hdeep').1 _ hplain

/-- An answer that opens list upon list and closes none. -/
def openings : String :=
  String.ofList (List.replicate 5000 '[' ++ [])

open Depths in
/-- **An answer that is no JSON may not be shown**: the depth is reached before the fault. -/
theorem openings_not_shown :
    (¬∃ v, Json.read openings = .ok v) ∧ formatResponse openings ≠ .ok openings := by
  have hunread : ∃ f, Json.read openings = .error f ∧ f.isDepth = true :=
    read_of_opening (by decide) []
  have hdeep : TooDeep openings := tooDeep_of_opening (by decide) []
  obtain ⟨f, hunread, -⟩ := hunread
  obtain ⟨g, hshown, -⟩ := formatResponse_of_tooDeep hdeep
  refine ⟨?_, ?_⟩
  · rintro ⟨v, hread⟩
    rw [hunread] at hread
    cases hread
  · rw [hshown]
    intro h
    cases h

end ModelServer.Registration
