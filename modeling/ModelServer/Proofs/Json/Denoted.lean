import ModelServer.Proofs.Except
import ModelServer.Proofs.Json.Members
import ModelServer.Proofs.Json.Number

/-!
# What a text denotes

Not every value can be read from a text. A record is never made but by putting its members one after the
other, so no name is there twice (`Dictionary.nodup_ofList`), and integers of too many digits are refused.
`Denoted` states both, at every depth, and `denoted_of_read` proves them of whatever is read: each of the
three readers keeps them, given that the one with a smaller bound does (`Keeps`).
-/

namespace ModelServer

namespace Text

theorem natOfDigits_lt {ds : List Char} (h : ∀ c ∈ ds, isAsciiDigit c = true) :
    natOfDigits ds < 10 ^ ds.length := by
  rw [natOfDigits_eq]
  induction ds with
  | nil => exact Nat.one_pos
  | cons c ds ih =>
    obtain ⟨hc, hds⟩ := List.forall_mem_cons.1 h
    have hdigit : c.toNat - '0'.toNat ≤ 9 := Nat.sub_le_of_le_add (isAsciiDigit_iff.1 hc).2
    have hlead : 10 ^ ds.length * (c.toNat - '0'.toNat) ≤ 10 ^ ds.length * 9 :=
      Nat.mul_le_mul_left _ hdigit
    have hrest := ih hds
    rw [Nat.ofDigitChars_cons, Nat.mul_zero, Nat.zero_add, Nat.ofDigitChars_eq_ofDigitChars_zero,
      List.length_cons, Nat.pow_succ]
    omega

end Text

namespace Json

open Text

/-- No record of the value has a name twice, and no integer has more digits than are read. -/
inductive Denoted : Json → Prop
  | null : Denoted .null
  | bool (b : Bool) : Denoted (.bool b)
  | int {n : Int} (h : Decimal.digitCount n.natAbs ≤ maxDigits) : Denoted (.int n)
  | float (x : Binary64) : Denoted (.float x)
  | text (s : String) : Denoted (.text s)
  | list {items : List Json} (h : ∀ v ∈ items, Denoted v) : Denoted (.list items)
  | record {ms : Members} (hn : (ms.map Prod.fst).Nodup) (h : ∀ m ∈ ms, Denoted m.2) :
      Denoted (.record ms)

namespace Denoted

theorem distinct {v : Json} (h : Denoted v) : v.Distinct := by
  induction h with
  | null => exact .null
  | bool b => exact .bool b
  | int => exact .int _
  | float x => exact .float x
  | text s => exact .text s
  | list _ ih => exact .list ih
  | record hn _ ih => exact .record hn ih

/-- A record that is made by putting members has no name twice. -/
theorem ofWritten {ms : Members} (h : ∀ m ∈ ms, Denoted m.2) : Denoted (Data.ofWritten ms) := by
  refine .record (Dictionary.nodup_ofList ms) fun m hm ↦ ?_
  obtain ⟨d, hd, hm⟩ := Dictionary.mem_ofList hm
  exact hm ▸ h d hd

end Denoted

/-! ### Words and numbers -/

theorem allDigits_of_digits {cs : List Char} : AllDigits (digits cs).1 := by
  rw [digits, List.span_eq_takeWhile_dropWhile]
  exact fun c hc ↦ List.all_eq_true.1 List.all_takeWhile c hc

theorem allDigits_of_wholePart {cs ds rest : List Char} (h : wholePart cs = some (ds, rest)) :
    AllDigits ds := by
  unfold wholePart at h
  split at h
  · cases h
    exact .zeros 1
  · split at h
    · obtain rfl : (digits _).1 = ds := congrArg Prod.fst (Option.some.inj h)
      exact allDigits_of_digits
    · cases h
  · cases h

/-- A run of digits denotes a number of no more digits. -/
theorem digitCount_natOfDigits_le {ds : List Char} (hd : AllDigits ds) (hfew : ds.length ≤ maxDigits) :
    Decimal.digitCount (natOfDigits ds) ≤ maxDigits := by
  rcases ds with _ | ⟨c, ds⟩
  · exact Nat.succ_pos _
  · exact Nat.le_trans ((Decimal.digitCount_le_iff (Nat.succ_pos _)).2 (natOfDigits_lt hd)) hfew

theorem denoted_of_integer {negative : Bool} {digits cs rest : List Char} {v : Json}
    (hd : AllDigits digits) (h : integer negative digits cs = .ok (v, rest)) : Denoted v := by
  rw [integer] at h
  by_cases hmany : maxDigits < digits.length
  · rw [if_pos hmany] at h
    cases h
  · rw [if_neg hmany] at h
    cases h
    refine .int ?_
    have hcount := digitCount_natOfDigits_le hd (Nat.not_lt.1 hmany)
    cases negative with
    | true => rwa [if_pos rfl, Int.natAbs_neg, Int.natAbs_natCast]
    | false => rwa [if_neg Bool.false_ne_true, Int.natAbs_natCast]

theorem denoted_of_number {whole cs rest : List Char} {negative : Bool} {v : Json}
    (h : number whole negative cs = .ok (v, rest)) : Denoted v := by
  rw [number] at h
  split at h
  · cases h
  · next hwhole =>
    dsimp only at h
    split at h
    · exact denoted_of_integer (allDigits_of_wholePart hwhole) h
    · cases h
      exact .float _
    · cases h
      exact .float _

theorem denoted_of_mem_words {w : String × Json} (h : w ∈ words) : Denoted w.2 := by
  simp only [words, List.mem_cons, List.not_mem_nil, or_false] at h
  rcases h with rfl | rfl | rfl | rfl | rfl | rfl
  exacts [.null, .bool _, .bool _, .float _, .float _, .float _]

theorem denoted_of_atom {cs rest : List Char} {v : Json} (h : atom cs = .ok (v, rest)) : Denoted v := by
  unfold atom at h
  cases hword : words.findSome? fun w ↦ (after? w.1.toList cs).map (w.2, ·) with
  | some r =>
    rw [hword] at h
    cases h
    obtain ⟨w, hw, hr⟩ := List.exists_of_findSome?_eq_some hword
    obtain ⟨rest', -, hr⟩ := Option.map_eq_some_iff.1 hr
    cases hr
    exact denoted_of_mem_words hw
  | none =>
    rw [hword] at h
    dsimp only at h
    split at h
    · exact denoted_of_number h
    · exact denoted_of_number h

/-! ### Values, members, items -/

/-- The three readers, each with the bound `fuel`, hand back what a text may denote. -/
structure Keeps (fuel : Nat) : Prop where
  value : ∀ {depth cs v rest}, value fuel depth cs = .ok (v, rest) → Denoted v
  members : ∀ {depth seen cs ms rest}, (∀ m ∈ seen, Denoted m.2) →
    membersFrom fuel depth seen cs = .ok (ms, rest) → ∀ m ∈ ms, Denoted m.2
  items : ∀ {depth seen cs vs rest}, (∀ v ∈ seen, Denoted v) →
    itemsFrom fuel depth seen cs = .ok (vs, rest) → ∀ v ∈ vs, Denoted v

theorem Keeps.zero : Keeps 0 where
  value h := by
    unfold Json.value at h
    cases h
  members _ h := by
    unfold membersFrom at h
    cases h
  items _ h := by
    unfold itemsFrom at h
    cases h

variable {fuel : Nat}

theorem Keeps.value_succ (hk : Keeps fuel) {depth : Nat} {cs rest : List Char} {v : Json}
    (h : Json.value (fuel + 1) depth cs = .ok (v, rest)) : Denoted v := by
  unfold Json.value at h
  split at h
  · obtain ⟨r, -, hv⟩ := map_eq_ok_iff.1 h
    cases hv
    exact .text _
  · cases h
  · split at h
    · cases h
      exact .record List.nodup_nil fun _ hm ↦ absurd hm List.not_mem_nil
    · obtain ⟨r, hr, hv⟩ := map_eq_ok_iff.1 h
      cases hv
      have hmembers := hk.members (fun _ hm ↦ absurd hm List.not_mem_nil) hr
      exact .ofWritten fun m hm ↦ hmembers m (List.mem_reverse.1 hm)
  · cases h
  · split at h
    · cases h
      exact .list fun _ hm ↦ absurd hm List.not_mem_nil
    · obtain ⟨r, hr, hv⟩ := map_eq_ok_iff.1 h
      cases hv
      have hitems := hk.items (fun _ hm ↦ absurd hm List.not_mem_nil) hr
      exact .list fun w hw ↦ hitems w (List.mem_reverse.1 hw)
  · exact denoted_of_atom h

theorem Keeps.members_succ (hk : Keeps fuel) {depth : Nat} {seen ms : Members}
    {cs rest : List Char} (hseen : ∀ m ∈ seen, Denoted m.2)
    (h : membersFrom (fuel + 1) depth seen cs = .ok (ms, rest)) : ∀ m ∈ ms, Denoted m.2 := by
  unfold membersFrom at h
  split at h
  · obtain ⟨⟨name, afterName⟩, -, h⟩ := bind_eq_ok_iff.1 h
    dsimp only at h
    split at h
    · obtain ⟨⟨v, afterValue⟩, hv, h⟩ := bind_eq_ok_iff.1 h
      have hall : ∀ m ∈ (name, v) :: seen, Denoted m.2 :=
        List.forall_mem_cons.2 ⟨hk.value hv, hseen⟩
      dsimp only at h
      split at h
      · cases h
        exact hall
      · exact hk.members hall h
      · cases h
    · cases h
  · cases h

theorem Keeps.items_succ (hk : Keeps fuel) {depth : Nat} {seen vs : List Json}
    {cs rest : List Char} (hseen : ∀ v ∈ seen, Denoted v)
    (h : itemsFrom (fuel + 1) depth seen cs = .ok (vs, rest)) : ∀ v ∈ vs, Denoted v := by
  unfold itemsFrom at h
  obtain ⟨⟨v, afterValue⟩, hv, h⟩ := bind_eq_ok_iff.1 h
  have hall : ∀ w ∈ v :: seen, Denoted w := List.forall_mem_cons.2 ⟨hk.value hv, hseen⟩
  dsimp only at h
  split at h
  · cases h
    exact hall
  · exact hk.items hall h
  · cases h

theorem keeps (fuel : Nat) : Keeps fuel := by
  induction fuel with
  | zero => exact .zero
  | succ fuel ih => exact ⟨ih.value_succ, ih.members_succ, ih.items_succ⟩

/-- **Whatever is read is what a text may denote.** -/
theorem denoted_of_read [Depths] {text : String} {v : Json} (h : read text = .ok v) : Denoted v := by
  rw [read] at h
  cases hchars : readChars text.toList with
  | error stop => rw [hchars] at h; cases h
  | ok w =>
    rw [hchars] at h
    cases h
    unfold readChars at hchars
    split at hchars
    · cases hchars
    · obtain ⟨⟨w, rest⟩, hw, hchars⟩ := bind_eq_ok_iff.1 hchars
      dsimp only at hchars
      split at hchars
      · cases hchars
        exact (keeps _).value hw
      · cases hchars

end Json

end ModelServer
