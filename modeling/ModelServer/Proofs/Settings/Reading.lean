import Mathlib.Logic.Relation
import ModelServer.Proofs.Dictionary
import ModelServer.Proofs.Except
import ModelServer.Proofs.Number.Range
import ModelServer.Settings.Basic

/-!
# What settings say

Settings come of the members of a file (`tableOf`) and of five entries among these, each of which is looked
at on its own (`ofTable`). So there are two places where reading them can fail, and `Fails` lists how: the
octets are no text, an integer is too long to be read, values are nested too deep, or the limit on waiting
is an integer too large for a double.

All else that may be wrong says nothing. A file that cannot be opened, or is no well-formed document, counts
as empty (`CountsEmpty`); a table or an entry of the wrong kind, or with a value that does not count
(`SaysNothing`), may as well not be there (`Drops`), and whatever else is said stays as it is.
-/

namespace ModelServer.Settings

variable {t t' : Table} {environment : String → Option String} {s : Settings}

/-! ### Entries -/

/-- The entry of that key in the table of that name. -/
def entryAt? (name key : String) (t : Table) : Option Toml.Value :=
  (subtable name t).lookup key

theorem entryAt?_eq_some_iff {name key : String} {v : Toml.Value} : entryAt? name key t = some v ↔
    ∃ members, t.lookup name = some (.record members) ∧ members.lookup key = some v := by
  rw [entryAt?, subtable]
  split
  · next members h => simp [h]
  · next h =>
    refine ⟨fun hv ↦ ?_, fun ⟨members, hm, _⟩ ↦ absurd hm (h members)⟩
    cases hv

/-- The settings that the members of a file and the environment give. -/
def ofTable (environment : String → Option String) (t : Table) : Except Fault Settings :=
  (timeoutOf (entryAt? "engine" "timeout_seconds" t)).map fun timeout ↦ {
    engineUrl := (environment urlVariable).bind url? <|> urlOf (entryAt? "engine" "url" t)
    timeout
    collaborators := Role.all.filterMap fun r ↦ (specOf (entryAt? "collaborators" r.key t)).map (r, ·) }

theorem ofTable_eq_error_iff {f : Fault} : ofTable environment t = .error f ↔
    timeoutOf (entryAt? "engine" "timeout_seconds" t) = .error f := by
  rw [ofTable]
  cases timeoutOf (entryAt? "engine" "timeout_seconds" t) <;> simp [Except.map]

/-- Settings are read from a file by way of its members. -/
theorem read_eq_bind [Depths] (file : FileContent) (environment : String → Option String) :
    read file environment = (tableOf file).bind (ofTable environment) := by
  cases h : tableOf file with
  | error f =>
    rw [read, h]
    rfl
  | ok t =>
    rw [read, h]
    show (timeoutOf (entryAt? "engine" "timeout_seconds" t) >>= _) = ofTable environment t
    rw [ofTable]
    cases timeoutOf (entryAt? "engine" "timeout_seconds" t) <;> rfl

/-! ### A limit on waiting -/

/-- The value gives that limit: it is a number greater than zero, or a text of one. -/
inductive GivesLimit : Toml.Value → Binary64 → Prop
  | int {n : Int} {x : Binary64} (hn : 0 < n) (hx : Binary64.ofInt? n = some x) : GivesLimit (.int n) x
  | float {x : Binary64} (hx : x.isPositive = true) : GivesLimit (.float x) x
  | text {s : String} {x : Binary64} (hs : Entered.double? s = some x) (hx : x.isPositive = true) :
    GivesLimit (.text s) x

/-- The value is an integer too large for a double. -/
def TooLarge (v : Toml.Value) : Prop :=
  ∃ n : Nat, v = .int n ∧ (2 ^ 54 - 1) * 2 ^ 970 ≤ n

theorem GivesLimit.isPositive {v : Toml.Value} {x : Binary64} (h : GivesLimit v x) :
    x.isPositive = true := by
  cases h with
  | int hn hx => exact Binary64.isPositive_of_ofInt? hn hx
  | float hx => exact hx
  | text _ hx => exact hx

theorem tooLarge_int_iff {n : Int} : TooLarge (.int n) ↔ 0 < n ∧ Binary64.ofInt? n = none := by
  rw [Binary64.ofInt?_eq_none_iff]
  have hpow (e : Nat) : 0 < 2 ^ e := Nat.two_pow_pos e
  have hbound : 0 < (2 ^ 54 - 1) * 2 ^ 970 := Nat.mul_pos (by decide) (hpow _)
  constructor
  · rintro ⟨m, hm, hle⟩
    obtain rfl : n = m := Data.int.inj hm
    rw [Int.natAbs_natCast]
    exact ⟨Int.natCast_pos.2 (Nat.lt_of_lt_of_le hbound hle), hle⟩
  · rintro ⟨hn, hle⟩
    exact ⟨n.natAbs, by rw [Int.natAbs_of_nonneg (Int.le_of_lt hn)], hle⟩

theorem GivesLimit.timeoutOf_eq {v : Toml.Value} {x : Binary64} (h : GivesLimit v x) :
    timeoutOf (some v) = .ok (some x) := by
  cases h with
  | int hn hx => rw [timeoutOf, if_pos hn, hx]
  | float hx => rw [timeoutOf, positive, if_pos hx]
  | text hs hx => rw [timeoutOf, hs, Option.bind_some, positive, if_pos hx]

theorem TooLarge.timeoutOf_eq {v : Toml.Value} (h : TooLarge v) :
    timeoutOf (some v) = .error (.plain .overflow "int too large to convert to float") := by
  obtain ⟨n, rfl, hle⟩ := h
  obtain ⟨hn, hx⟩ := tooLarge_int_iff.1 ⟨n, rfl, hle⟩
  rw [timeoutOf, if_pos hn, hx]

/-- All other values are as good as absent. -/
theorem timeoutOf_eq_ok_none {v : Toml.Value} (hnone : ∀ x, ¬GivesLimit v x) (hsmall : ¬TooLarge v) :
    timeoutOf (some v) = .ok none := by
  cases v with
  | int n =>
    have hn : ¬0 < n := by
      intro hn
      cases hx : Binary64.ofInt? n with
      | some x => exact hnone x (.int hn hx)
      | none => exact hsmall (tooLarge_int_iff.2 ⟨hn, hx⟩)
    rw [timeoutOf, if_neg hn]
  | float x => rw [timeoutOf, positive, if_neg fun hx ↦ hnone x (.float hx)]
  | text s =>
    rw [timeoutOf]
    cases hs : Entered.double? s with
    | none => rfl
    | some x => rw [Option.bind_some, positive, if_neg fun hx ↦ hnone x (.text hs hx)]
  | null | bool _ | list _ | record _ | foreign _ => rfl

/-- **A value is a limit, too large, or as good as absent.** -/
theorem timeoutOf_cases (v : Toml.Value) :
    (∃ x, GivesLimit v x) ∨ TooLarge v ∨ timeoutOf (some v) = .ok none := by
  by_cases hx : ∃ x, GivesLimit v x
  · exact .inl hx
  · by_cases hlarge : TooLarge v
    · exact .inr (.inl hlarge)
    · exact .inr (.inr (timeoutOf_eq_ok_none (fun x h ↦ hx ⟨x, h⟩) hlarge))

theorem timeoutOf_eq_error_iff {entry : Option Toml.Value} {f : Fault} : timeoutOf entry = .error f ↔
    (∃ v, entry = some v ∧ TooLarge v) ∧ f = .plain .overflow "int too large to convert to float" := by
  constructor
  · intro h
    cases entry with
    | none => cases h
    | some v =>
      rcases timeoutOf_cases v with ⟨x, hx⟩ | hlarge | hnone
      · cases hx.timeoutOf_eq.symm.trans h
      · exact ⟨⟨v, rfl, hlarge⟩, (Except.error.inj (hlarge.timeoutOf_eq.symm.trans h)).symm⟩
      · cases hnone.symm.trans h
  · rintro ⟨⟨v, rfl, hlarge⟩, rfl⟩
    exact hlarge.timeoutOf_eq

theorem timeoutOf_eq_some_iff {entry : Option Toml.Value} {x : Binary64} :
    timeoutOf entry = .ok (some x) ↔ ∃ v, entry = some v ∧ GivesLimit v x := by
  constructor
  · intro h
    cases entry with
    | none => cases h
    | some v =>
      rcases timeoutOf_cases v with ⟨y, hy⟩ | hlarge | hnone
      · cases hy.timeoutOf_eq.symm.trans h
        exact ⟨v, rfl, hy⟩
      · cases hlarge.timeoutOf_eq.symm.trans h
      · cases hnone.symm.trans h
  · rintro ⟨v, rfl, hx⟩
    exact hx.timeoutOf_eq

/-! ### Where reading fails -/

/-- The octets are a text, and that is read as a document in this way. -/
def Reads [Depths] (bs : List UInt8) (r : Except Toml.Failure Table) : Prop :=
  ∃ text, FileContent.decode bs = .ok text ∧ Toml.read text.toList = r

/-- There is no file that can be opened, or it is no well-formed document. -/
inductive CountsEmpty [Depths] : FileContent → Prop
  | missing : CountsEmpty .missing
  | tooLong : CountsEmpty .tooLong
  | directory : CountsEmpty .directory
  | closed : CountsEmpty .closed
  | malformed {bs : List UInt8} (h : Reads bs (.error .malformed)) : CountsEmpty (.octets bs)

/-- How reading settings fails. -/
inductive Fails [Depths] : FileContent → Fault → Prop
  | undecodable {bs : List UInt8} {e : Text.Utf8.Fault} (h : Text.Utf8.decode bs = .error e) :
    Fails (.octets bs) (.undecodable e)
  | tooLong {bs : List UInt8} {digits : Nat} (h : Reads bs (.error (.tooLong digits))) :
    Fails (.octets bs) (.plain .value (Text.tooLongMessage digits))
  | tooDeep {bs : List UInt8} (h : Reads bs (.error .tooDeep)) : Fails (.octets bs) Fault.tooDeep
  | tooLarge {file : FileContent} {t : Table} {v : Toml.Value} (ht : tableOf file = .ok t)
    (hv : entryAt? "engine" "timeout_seconds" t = some v) (hlarge : TooLarge v) :
    Fails file (.plain .overflow "int too large to convert to float")

theorem tableOf_of_undecodable [Depths] {bs : List UInt8} {e : Text.Utf8.Fault}
    (h : Text.Utf8.decode bs = .error e) : tableOf (.octets bs) = .error (.undecodable e) := by
  rw [tableOf, FileContent.decode, h]
  rfl

/-- The members of a document that is read in this way: none, if it is not well formed. -/
def membersOf : Except Toml.Failure Table → Except Fault Table
  | .ok t => .ok t
  | .error .malformed => .ok []
  | .error (.tooLong digits) => .error (.plain .value (Text.tooLongMessage digits))
  | .error .tooDeep => .error Fault.tooDeep

theorem tableOf_of_reads [Depths] {bs : List UInt8} {r : Except Toml.Failure Table} (h : Reads bs r) :
    tableOf (.octets bs) = membersOf r := by
  obtain ⟨text, htext, rfl⟩ := h
  rw [tableOf, htext]
  cases hr : Toml.read text.toList with
  | ok t => simp only [bind, Except.bind, hr, membersOf, pure, Except.pure]
  | error f =>
    cases f <;> simp only [bind, Except.bind, hr, membersOf, pure, Except.pure, throw, throwThe,
      MonadExceptOf.throw]

/-- Octets are no text, or the text is read in some way. -/
theorem undecodable_or_reads [Depths] (bs : List UInt8) :
    (∃ e, Text.Utf8.decode bs = .error e) ∨ ∃ r, Reads bs r := by
  cases hd : Text.Utf8.decode bs with
  | error e => exact .inl ⟨e, rfl⟩
  | ok s =>
    have htext : FileContent.decode bs = .ok (String.ofList (Text.unifyNewlines s.toList)) := by
      rw [FileContent.decode, hd]
      rfl
    exact .inr ⟨_, _, htext, rfl⟩

/-- A file that counts as empty has no members. -/
theorem CountsEmpty.tableOf_eq [Depths] {file : FileContent} (h : CountsEmpty file) :
    tableOf file = .ok [] := by
  cases h with
  | missing | tooLong | directory | closed => rfl
  | malformed h => exact tableOf_of_reads h

theorem fails_of_tableOf [Depths] {file : FileContent} {f : Fault} (h : tableOf file = .error f) :
    Fails file f := by
  cases file with
  | missing | tooLong | directory | closed => cases h
  | octets bs =>
    rcases undecodable_or_reads bs with ⟨e, he⟩ | ⟨r, hr⟩
    · obtain rfl := Except.error.inj ((tableOf_of_undecodable he).symm.trans h)
      exact .undecodable he
    · rw [tableOf_of_reads hr] at h
      match r with
      | .ok t => cases h
      | .error .malformed => cases h
      | .error (.tooLong digits) =>
        cases h
        exact .tooLong hr
      | .error .tooDeep =>
        cases h
        exact .tooDeep hr

/-- **Reading fails just where and as it was said to.** -/
theorem read_eq_error_iff [Depths] {file : FileContent} {f : Fault} :
    read file environment = .error f ↔ Fails file f := by
  rw [read_eq_bind]
  constructor
  · intro h
    cases ht : tableOf file with
    | error f' =>
      rw [ht] at h
      cases h
      exact fails_of_tableOf ht
    | ok t =>
      rw [ht] at h
      obtain ⟨⟨v, hv, hlarge⟩, rfl⟩ := timeoutOf_eq_error_iff.1 (ofTable_eq_error_iff.1 h)
      exact .tooLarge ht hv hlarge
  · intro h
    cases h with
    | undecodable h =>
      rw [tableOf_of_undecodable h]
      rfl
    | tooLong h | tooDeep h =>
      rw [tableOf_of_reads h]
      rfl
    | tooLarge ht hv hlarge =>
      rw [ht]
      exact ofTable_eq_error_iff.2 (timeoutOf_eq_error_iff.2 ⟨⟨_, hv, hlarge⟩, rfl⟩)

/-! ### What is told -/

/-- The settings tell what the environment and those members say: the address from the environment first,
and each entry that says something as it is. -/
structure Tells (environment : String → Option String) (t : Table) (s : Settings) : Prop where
  address : ∀ u, s.engineUrl = some u ↔ (environment urlVariable).bind url? = some u ∨
    (environment urlVariable).bind url? = none ∧
      ∃ given, entryAt? "engine" "url" t = some (.text given) ∧ url? given = some u
  limit : ∀ x, s.timeout = some x ↔ ∃ v, entryAt? "engine" "timeout_seconds" t = some v ∧ GivesLimit v x
  spec : ∀ r spec, (r, spec) ∈ s.collaborators ↔ ∃ given,
    entryAt? "collaborators" r.key t = some (.text given) ∧ spec = Text.trim given ∧ spec ≠ ""

/-- A text that is kept unless it is empty. -/
theorem keep_eq_some_iff {a b : String} : (if a.isEmpty then none else some a) = some b ↔ b = a ∧ b ≠ "" := by
  have hempty : a.isEmpty = true ↔ a = "" := String.isEmpty_iff
  by_cases ha : a = ""
  · rw [if_pos (hempty.2 ha), ha]
    exact iff_of_false (fun h ↦ nomatch h) fun h ↦ h.2 h.1
  · rw [if_neg fun h ↦ ha (hempty.1 h), Option.some.injEq]
    exact ⟨fun h ↦ ⟨h.symm, h ▸ ha⟩, fun h ↦ h.1.symm⟩

/-- An address in normal form is what trimming leaves, if that is anything. -/
theorem url?_eq_some_iff {given u : String} :
    url? given = some u ↔ u = Text.trimSlashes (Text.trim given) ∧ u ≠ "" := by
  rw [url?, keep_eq_some_iff]

theorem urlOf_eq_some_iff {entry : Option Toml.Value} {u : String} :
    urlOf entry = some u ↔ ∃ given, entry = some (.text given) ∧ url? given = some u := by
  rw [urlOf.eq_def]
  split
  · simp
  · next h =>
    refine ⟨fun hu ↦ ?_, fun ⟨given, hgiven, _⟩ ↦ absurd hgiven (h given)⟩
    cases hu

theorem specOf_eq_some_iff {entry : Option Toml.Value} {spec : String} : specOf entry = some spec ↔
    ∃ given, entry = some (.text given) ∧ spec = Text.trim given ∧ spec ≠ "" := by
  rw [specOf.eq_def]
  split
  · next given =>
    dsimp only
    rw [keep_eq_some_iff]
    simp
  · next h =>
    refine ⟨fun hs ↦ ?_, fun ⟨given, hgiven, _⟩ ↦ absurd hgiven (h given)⟩
    cases hs

theorem tells_of_ofTable (h : ofTable environment t = .ok s) : Tells environment t s := by
  obtain ⟨limit, hlimit, rfl⟩ := map_eq_ok_iff.1 h
  refine ⟨fun u ↦ ?_, fun x ↦ ?_, fun r spec ↦ ?_⟩
  · rw [← urlOf_eq_some_iff]
    cases (environment urlVariable).bind url? <;> simp
  · rw [← timeoutOf_eq_some_iff, hlimit]
    simp
  · rw [← specOf_eq_some_iff]
    have hall : r ∈ Role.all := by cases r <;> decide
    simp [List.mem_filterMap, hall]

/-! ### What says nothing -/

/-- That value says nothing as the entry of that key: if it is one that is looked at, it is of the wrong kind
or does not count. -/
structure SaysNothing (name key : String) (v : Toml.Value) : Prop where
  address : (name, key) = ("engine", "url") → ∀ given, v = .text given → url? given = none
  limit : (name, key) = ("engine", "timeout_seconds") → (∀ x, ¬GivesLimit v x) ∧ ¬TooLarge v
  spec : ∀ r : Role, (name, key) = ("collaborators", r.key) → ∀ given, v = .text given → Text.trim given = ""

/-- The other table is this one without something that says nothing. -/
inductive Drops (t : Table) : Table → Prop
  | table {name : String} {v : Toml.Value} (hv : t.lookup name = some v)
    (hkind : ∀ members, v ≠ .record members) : Drops t (Dictionary.erase name t)
  | entry {name key : String} {v : Toml.Value} (hv : entryAt? name key t = some v)
    (h : SaysNothing name key v) :
    Drops t (Dictionary.put name (.record (Dictionary.erase key (subtable name t))) t)

/-- Settings are told by what five entries give. -/
theorem ofTable_congr (hurl : urlOf (entryAt? "engine" "url" t) = urlOf (entryAt? "engine" "url" t'))
    (hlimit : timeoutOf (entryAt? "engine" "timeout_seconds" t) =
      timeoutOf (entryAt? "engine" "timeout_seconds" t'))
    (hspec : ∀ r : Role, specOf (entryAt? "collaborators" r.key t) =
      specOf (entryAt? "collaborators" r.key t')) :
    ofTable environment t = ofTable environment t' := by
  simp only [ofTable, hurl, hlimit, hspec]

/-- An entry is missing once what is no table is dropped, and was before. -/
theorem entryAt?_erase {name : String} {v : Toml.Value} (hv : t.lookup name = some v)
    (hkind : ∀ members, v ≠ .record members) (name' key : String) :
    entryAt? name' key (Dictionary.erase name t) = entryAt? name' key t := by
  refine Option.ext fun w ↦ ?_
  rw [entryAt?_eq_some_iff, entryAt?_eq_some_iff, Dictionary.lookup_erase]
  by_cases hname : name' = name
  · have hother (members : Table) : t.lookup name ≠ some (.record members) :=
      fun h ↦ hkind members (Option.some.inj (hv.symm.trans h))
    simp [hname, hother]
  · simp [hname]

/-- Once an entry is dropped it is missing, and all others are as they were. -/
theorem entryAt?_put_erase (name key name' key' : String) :
    entryAt? name' key' (Dictionary.put name (.record (Dictionary.erase key (subtable name t))) t) =
      if (name', key') = (name, key) then none else entryAt? name' key' t := by
  rw [entryAt?, subtable, Dictionary.lookup_put]
  by_cases hname : name' = name
  · simp only [hname, beq_self_eq_true, if_true, Dictionary.lookup_erase, Prod.mk.injEq, true_and,
      beq_iff_eq, entryAt?]
  · simp [hname, entryAt?, subtable]

/-- What looks at an entry sees nothing of what is dropped, if that gives it as much as no entry does. -/
theorem look_put_erase {α : Type} (look : Option Toml.Value → α) {name key name' key' : String}
    {v : Toml.Value} (hv : entryAt? name key t = some v)
    (hlook : (name, key) = (name', key') → look (some v) = look none) :
    look (entryAt? name' key' (Dictionary.put name (.record (Dictionary.erase key (subtable name t))) t)) =
      look (entryAt? name' key' t) := by
  rw [entryAt?_put_erase]
  split
  · next heq =>
    cases heq
    rw [hv]
    exact (hlook rfl).symm
  · rfl

namespace SaysNothing

variable {name key : String} {v : Toml.Value} (h : SaysNothing name key v)

include h

theorem urlOf_eq (heq : (name, key) = ("engine", "url")) : urlOf (some v) = urlOf none := by
  refine Option.eq_none_iff_forall_ne_some.2 fun u hu ↦ ?_
  obtain ⟨given, hgiven, hu⟩ := urlOf_eq_some_iff.1 hu
  cases (h.address heq given (Option.some.inj hgiven)).symm.trans hu

theorem timeoutOf_eq (heq : (name, key) = ("engine", "timeout_seconds")) :
    timeoutOf (some v) = timeoutOf none := by
  obtain ⟨hnone, hsmall⟩ := h.limit heq
  exact timeoutOf_eq_ok_none hnone hsmall

theorem specOf_eq (r : Role) (heq : (name, key) = ("collaborators", r.key)) :
    specOf (some v) = specOf none := by
  refine Option.eq_none_iff_forall_ne_some.2 fun spec hspec ↦ ?_
  obtain ⟨given, hgiven, rfl, hne⟩ := specOf_eq_some_iff.1 hspec
  exact hne (h.spec r heq given (Option.some.inj hgiven))

end SaysNothing

/-- **Dropping what says nothing changes nothing.** -/
theorem Drops.ofTable_eq (h : Drops t t') : ofTable environment t' = ofTable environment t := by
  cases h with
  | table hv hkind =>
    exact ofTable_congr (by rw [entryAt?_erase hv hkind]) (by rw [entryAt?_erase hv hkind])
      fun r ↦ by rw [entryAt?_erase hv hkind]
  | entry hv h =>
    exact ofTable_congr (look_put_erase urlOf hv h.urlOf_eq) (look_put_erase timeoutOf hv h.timeoutOf_eq)
      fun r ↦ look_put_erase specOf hv (h.specOf_eq r)

/-- **Settings are read unless the file is beyond reading or the limit too large.** Reading fails just as
`Fails` says; a file that is missing, cannot be opened or is no well-formed document leaves what the
environment tells; and of the members of any other file each entry tells what it says, while tables and
entries that say nothing may as well not be there. -/
theorem read_total [Depths] (file : FileContent) (environment : String → Option String) :
    (∀ f, read file environment = .error f ↔ Fails file f) ∧
      (CountsEmpty file → read file environment = .ok ⟨(environment urlVariable).bind url?, none, []⟩) ∧
      ∀ t, tableOf file = .ok t →
        (∀ s, read file environment = .ok s → Tells environment t s) ∧
          ∀ t', Relation.ReflTransGen Drops t t' → read file environment = ofTable environment t' := by
  refine ⟨fun f ↦ read_eq_error_iff, fun h ↦ ?_, fun t ht ↦ ?_⟩
  · rw [read_eq_bind, h.tableOf_eq]
    show Except.ok (Settings.mk ((environment urlVariable).bind url? <|> none) none []) = _
    cases (environment urlVariable).bind url? <;> rfl
  · have hread : read file environment = ofTable environment t := by
      rw [read_eq_bind, ht]
      rfl
    rw [hread]
    refine ⟨fun s hs ↦ tells_of_ofTable hs, fun t' h ↦ ?_⟩
    -- The induction is on what is dropped, one after the other.
    induction h with
    | refl => rfl
    | tail _ hdrop ih => rw [ih, hdrop.ofTable_eq]

open Depths in
/-- A file of one octet that begins no character is beyond reading. -/
theorem read_undecodable : ∃ e, read (.octets [0xFF]) (fun _ ↦ none) = .error (.undecodable e) :=
  ⟨_, rfl⟩

end ModelServer.Settings
