import ModelServer.Proofs.Settings.Reading
import ModelServer.Proofs.Text.Trim
import ModelServer.Settings.Collaborators

/-!
# The normal form of settings

What is read from settings is brought into a normal form: addresses and names of collaborators without
blanks around them, a limit greater than zero. `Normal` says what holds of all settings that are read, and
of an address it says less than one would expect. Blanks are cut off before slashes are, so a blank that
stands right before the slashes is left at the end (`Exposes`); just then the address is not at rest, and
would lose the blank if it was read once more (`url?_self_iff`).
-/

namespace ModelServer.Settings

open Text

variable {file : FileContent} {environment : String → Option String} {t : Table} {s : Settings}
  {given u : String}

/-! ### Addresses -/

/-- Once blanks around it are cut off, a blank stands right before the slashes at the end. -/
def Exposes (given : String) : Prop :=
  ∃ before blank slashes, (trim given).toList = before ++ blank :: slashes ∧ isBlank blank = true ∧
    ∀ c ∈ slashes, c = '/'

/-- An address that is read is not empty, no blank stands before it, and no slash at its end. -/
structure IsAddress (u : String) : Prop where
  ne_empty : u ≠ ""
  head : ∀ c ∈ u.toList.head?, isBlank c = false
  last : '/' ∉ u.toList.getLast?

theorem isAddress_of_url? (h : url? given = some u) : IsAddress u := by
  obtain ⟨rfl, hne⟩ := url?_eq_some_iff.1 h
  refine ⟨hne, fun c hc ↦ ?_, fun hc ↦ ?_⟩
  · rw [trimSlashes, String.toList_ofList] at hc
    have htrimmed := mem_head?_of_isPrefix (trimRight_isPrefix _ _) hc
    rw [trim, String.toList_ofList] at htrimmed
    exact of_mem_head?_trimBoth htrimmed
  · rw [trimSlashes, String.toList_ofList] at hc
    exact absurd (of_mem_getLast?_trimRight hc) (by decide)

/-- **An address ends in a blank just if what was given exposes one.** -/
theorem exists_getLast?_isBlank_iff (h : url? given = some u) :
    (∃ c ∈ u.toList.getLast?, isBlank c = true) ↔ Exposes given := by
  obtain ⟨rfl, hne⟩ := url?_eq_some_iff.1 h
  rw [trimSlashes, String.toList_ofList, Exposes]
  constructor
  · rintro ⟨c, hc, hblank⟩
    obtain ⟨cut, hcut, hslashes⟩ := exists_trimRight_append (· == '/') (trim given).toList
    obtain ⟨before, hbefore⟩ := List.getLast?_eq_some_iff.1 (Option.mem_def.1 hc)
    refine ⟨before, c, cut, ?_, hblank, fun d hd ↦ beq_iff_eq.1 (hslashes d hd)⟩
    rw [hcut, hbefore, List.append_assoc, List.singleton_append]
  · rintro ⟨before, c, slashes, heq, hblank, hslashes⟩
    refine ⟨c, ?_, hblank⟩
    have hslash : c ≠ '/' := by
      rintro rfl
      exact absurd hblank (by decide)
    have hleft : trimRight (· == '/') (before ++ [c]) = before ++ [c] := by
      rw [trimRight_eq_self_iff, List.getLast?_concat]
      rintro d ⟨⟩
      exact beq_eq_false_iff_ne.2 hslash
    rw [heq, List.append_cons, trimRight_append fun d hd ↦ beq_iff_eq.2 (hslashes d hd), hleft,
      List.getLast?_concat]
    rfl

/-- **An address is at rest just if it does not end in a blank.** -/
theorem url?_self_iff (h : IsAddress u) :
    url? u = some u ↔ ∀ c ∈ u.toList.getLast?, isBlank c = false := by
  rw [url?_eq_some_iff, and_iff_left h.ne_empty]
  constructor
  · intro heq
    -- Both cuts leave a beginning of what there was, so neither has cut anything off.
    have htrim : (trim u).toList <+: u.toList := by
      rw [trim, String.toList_ofList, trimBoth, dropWhile_eq_self_iff.2 h.head]
      exact trimRight_isPrefix _ _
    have hslashes : u.toList <+: (trim u).toList := by
      have hprefix := trimRight_isPrefix (· == '/') (trim u).toList
      rwa [← String.toList_ofList (l := trimRight _ _), ← trimSlashes, ← heq] at hprefix
    have hrest : trim u = u :=
      String.toList_inj.1 (htrim.eq_of_length (Nat.le_antisymm htrim.length_le hslashes.length_le))
    exact (trim_eq_self_iff.1 hrest).2
  · intro hlast
    rw [trim_eq_self_iff.2 ⟨h.head, hlast⟩, trimSlashes_eq_self_iff.2 h.last]

/-! ### All settings -/

/-- The text that the address is taken from: the one in the environment if anything is left of it, and else
the one in the file. -/
inductive Given (environment : String → Option String) (t : Table) : String → Prop
  | environment {given u : String} (h : environment urlVariable = some given) (hu : url? given = some u) :
    Given environment t given
  | file {given : String} (h : (environment urlVariable).bind url? = none)
    (hf : entryAt? "engine" "url" t = some (.text given)) : Given environment t given

/-- The address of settings is that of the text it is taken from. -/
theorem Tells.address_eq_some_iff (h : Tells environment t s) :
    s.engineUrl = some u ↔ ∃ given, Given environment t given ∧ url? given = some u := by
  rw [h.address]
  constructor
  · rintro (hu | ⟨hnone, given, hf, hu⟩)
    · obtain ⟨given, hgiven, hu⟩ := Option.bind_eq_some_iff.1 hu
      exact ⟨given, .environment hgiven hu, hu⟩
    · exact ⟨given, .file hnone hf, hu⟩
  · rintro ⟨given, hgiven, hu⟩
    cases hgiven with
    | environment he _ => exact .inl (Option.bind_eq_some_iff.2 ⟨given, he, hu⟩)
    | file hnone hf => exact .inr ⟨hnone, given, hf, hu⟩

/-- Settings as they are read. -/
structure Normal (s : Settings) : Prop where
  address : ∀ u, s.engineUrl = some u → IsAddress u
  limit : ∀ x, s.timeout = some x → x.isPositive = true
  spec : ∀ e ∈ s.collaborators, e.2 ≠ "" ∧ trim e.2 = e.2
  ordered : (s.collaborators.map Prod.fst).Sublist Role.all
  nodup : (s.collaborators.map (·.1.key)).Nodup

theorem sublist_all_of_ofTable (h : ofTable environment t = .ok s) :
    (s.collaborators.map Prod.fst).Sublist Role.all := by
  obtain ⟨limit, -, rfl⟩ := map_eq_ok_iff.1 h
  dsimp only
  -- Whatever is looked at, a role is kept or left out.
  generalize Role.all = roles
  induction roles with
  | nil => exact .slnil
  | cons r rest ih =>
    rw [List.filterMap_cons]
    cases specOf (entryAt? "collaborators" r.key t) with
    | none => exact ih.cons r
    | some spec => exact ih.cons_cons r

theorem normal_of_ofTable (h : ofTable environment t = .ok s) : s.Normal := by
  have htells := tells_of_ofTable h
  have hsub := sublist_all_of_ofTable h
  refine ⟨fun u hu ↦ ?_, fun x hx ↦ ?_, fun e he ↦ ?_, hsub, ?_⟩
  · obtain ⟨given, -, hu⟩ := htells.address_eq_some_iff.1 hu
    exact isAddress_of_url? hu
  · obtain ⟨v, -, hx⟩ := (htells.limit x).1 hx
    exact hx.isPositive
  · obtain ⟨given, -, hspec, hne⟩ := (htells.spec e.1 e.2).1 he
    rw [hspec] at hne ⊢
    exact ⟨hne, trim_trim given⟩
  · have hkeys : (Role.all.map Role.key).Nodup := by decide
    have := (hsub.map Role.key).nodup hkeys
    rwa [List.map_map] at this

/-- The client of an address posts under that address. -/
theorem IsAddress.client (h : IsAddress u) (hu : s.engineUrl = some u) : ∃ c, s.client? = some c ∧
    ∀ path, c.url path = u ++ "/" ++ dropSlashes path ∧ '/' ∉ (dropSlashes path).toList.head? := by
  refine ⟨.new u (s.timeout.map .float), ?_, fun path ↦ ⟨?_, fun hc ↦ ?_⟩⟩
  · have hengine : s.hasEngine = true := by
      rw [hasEngine, hu]
      simpa using h.ne_empty
    rw [client?, if_pos hengine, hu]
    rfl
  · rw [Registration.Client.url, Registration.Client.new, trimSlashes_eq_self_iff.2 h.last]
  · rw [dropSlashes, String.toList_ofList] at hc
    exact absurd (of_mem_head?_dropWhile hc) (by decide)

/-- **Settings that are read are in normal form, but for a blank that an address may end in.** The address
is not empty, has no blank before it and no slash at its end; it is the one in the environment if anything
is left of that, and else the one in the file; and the client posts under the address, one slash and the
path without the slashes before it. It ends in a blank, and would not be at rest, just if the text that it
is taken from exposes one. Limits are greater than zero, and the collaborators that are named are in order,
each once, their names trimmed and not empty. -/
theorem read_normal [Depths] (h : read file environment = .ok s) :
    s.Normal ∧ ∃ t, tableOf file = .ok t ∧
    (∀ u, s.engineUrl = some u ↔ ∃ given, Given environment t given ∧ url? given = some u) ∧
    (∀ given u, Given environment t given → url? given = some u →
      ((∃ c ∈ u.toList.getLast?, isBlank c = true) ↔ Exposes given) ∧
        (url? u = some u ↔ ¬Exposes given)) ∧
    ∀ u, s.engineUrl = some u → ∃ c, s.client? = some c ∧
      ∀ path, c.url path = u ++ "/" ++ dropSlashes path ∧ '/' ∉ (dropSlashes path).toList.head? := by
  rw [read_eq_bind] at h
  obtain ⟨t, ht, h⟩ := bind_eq_ok_iff.1 h
  have hnormal := normal_of_ofTable h
  refine ⟨hnormal, t, ht, fun u ↦ (tells_of_ofTable h).address_eq_some_iff, ?_, ?_⟩
  · intro given u _ hu
    refine ⟨exists_getLast?_isBlank_iff hu, ?_⟩
    rw [url?_self_iff (isAddress_of_url? hu), ← exists_getLast?_isBlank_iff hu]
    simp
  · exact fun u hu ↦ (hnormal.address u hu).client hu

/-- An address with a blank before the slash at its end, and one collaborator. -/
def exposingText : String :=
  "[engine]\nurl = \" http://a /\"\n[collaborators]\ntest_runner = \" m:n \"\n"

open Depths in
theorem read_exposingText : read (.octets exposingText.toUTF8.toList) (fun _ ↦ none) =
    .ok ⟨some "http://a ", none, [(.testRunner, "m:n")]⟩ :=
  eq_ok_of_toOption (by decide +kernel)

open Depths in
/-- These settings are normal, and their address is not at rest: what it is taken from exposes a blank. -/
theorem normal_exposingText :
    ∃ s, read (.octets exposingText.toUTF8.toList) (fun _ ↦ none) = .ok s ∧ s.Normal ∧
      ∃ given u, s.engineUrl = some u ∧ url? given = some u ∧ Exposes given ∧ url? u ≠ some u := by
  obtain ⟨hnormal, t, -, haddress, hrest, -⟩ := read_normal read_exposingText
  obtain ⟨given, hgiven, hu⟩ := (haddress _).1 rfl
  obtain ⟨hends, hself⟩ := hrest given _ hgiven hu
  have hexposes : Exposes given := hends.1 ⟨' ', by decide +kernel, by decide⟩
  exact ⟨_, read_exposingText, hnormal, given, _, rfl, hu, hexposes, fun h ↦ hself.1 h hexposes⟩

open Depths in
/-- The blank before the slash is left at the end of the address, which is not at rest. -/
theorem exposed_address : ∃ s, read (.octets exposingText.toUTF8.toList) (fun _ ↦ none) = .ok s ∧
    s.engineUrl = some "http://a " ∧ url? "http://a " = some "http://a" :=
  ⟨_, read_exposingText, rfl, by decide +kernel⟩

end ModelServer.Settings
