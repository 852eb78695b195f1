import Mathlib.Data.List.TakeDrop
import ModelServer.CommandLine.Run
import ModelServer.Proofs.Text.Digits
import ModelServer.Proofs.Text.Trim

/-!
# Serving at an address

An address is to name a host and a port. It is read in two steps: behind the last colon there must be
characters that stand for digits, or the address is refused; then these are read as a number. The second step
takes less than the first lets through: a character may stand for a digit and be no decimal digit, such as a
superscript two, and a number may be longer than numbers are read. At such an address there is neither a
server nor a refusal, but a fault. `run_serve` says for each address which of the three there is.
-/

namespace ModelServer.CommandLine

namespace Endpoint

variable {address host port : String}

/-- The host stands before the last colon of the address, and the port behind it. -/
def Splits (address host port : String) : Prop :=
  address = host ++ ":" ++ port ∧ ':' ∉ port.toList

/-- There is a character, and each stands for a digit. -/
def OfDigits (port : String) : Prop :=
  port ≠ "" ∧ ∀ c ∈ port.toList, Text.isDigit c = true

/-- There is a character, each is a decimal digit, and they are not too many to be read. -/
def Readable (port : String) : Prop :=
  port ≠ "" ∧ (∀ c ∈ port.toList, (Text.decimalValue? c).isSome = true) ∧ port.length ≤ Text.maxDigits

/-- A host, or the one where none is named. -/
def hostOr (host : String) : String :=
  if host = "" then localHost else host

/-- There is no colon in the address, or none that has digits behind it. -/
def Malformed (address : String) : Prop :=
  ∀ host port, Splits address host port → ¬OfDigits port

/-- The address names a host, or leaves it out, and a number. -/
def Names (address : String) (e : Endpoint) : Prop :=
  ∃ host port n, Splits address host port ∧ Text.Denotes port.toList n ∧
    port.length ≤ Text.maxDigits ∧ e = .tcp (hostOr host) n

/-- The address has digits for its port, and they cannot be read. -/
def Unreadable (address : String) : Prop :=
  ∃ host port, Splits address host port ∧ OfDigits port ∧ ¬Readable port

/-! ### The last colon -/

theorem splits_iff : Splits address host port ↔
    address.toList = host.toList ++ ':' :: port.toList ∧ ':' ∉ port.toList := by
  rw [Splits, ← String.toList_inj, String.toList_append, String.toList_append, List.append_assoc]
  rfl

/-- **An address is split where it is said to be.** -/
theorem split?_eq_some_iff {cs ds : List Char} :
    split? address = some (cs, ds) ↔ Splits address (String.ofList cs) (String.ofList ds) := by
  rw [splits_iff, String.toList_ofList, String.toList_ofList, split?, List.span_eq_takeWhile_dropWhile]
  constructor
  · intro h
    have hwhole := List.takeWhile_append_dropWhile (p := (· != ':')) (l := address.toList.reverse)
    cases hbehind : address.toList.reverse.dropWhile (· != ':') with
    | nil =>
      rw [hbehind] at h
      cases h
    | cons c rest =>
      have hhead : c ∈ (address.toList.reverse.dropWhile (· != ':')).head? := by rw [hbehind]; rfl
      have hcolon : c = ':' := by simpa using Text.of_mem_head?_dropWhile hhead
      rw [hbehind, hcolon] at hwhole
      rw [hbehind] at h
      cases h
      refine ⟨(List.reverse_eq_iff.1 hwhole.symm).trans (by simp), fun hmem ↦ ?_⟩
      simpa using List.mem_takeWhile_imp (List.mem_reverse.1 hmem)
  · rintro ⟨hwhole, hlast⟩
    have hbefore : ∀ c ∈ ds.reverse, (c != ':') = true := fun c hc ↦
      bne_iff_ne.2 fun heq ↦ hlast (heq ▸ List.mem_reverse.1 hc)
    have hreverse : address.toList.reverse = ds.reverse ++ ':' :: cs.reverse := by simp [hwhole]
    rw [hreverse, List.takeWhile_append_of_pos hbefore, List.dropWhile_append_of_pos hbefore]
    simp

theorem Splits.split? (h : Splits address host port) :
    Endpoint.split? address = some (host.toList, port.toList) := by
  rw [split?_eq_some_iff, String.ofList_toList, String.ofList_toList]
  exact h

/-! ### Ports -/

theorem ofDigits_iff :
    OfDigits port ↔ (port.toList.isEmpty || !port.toList.all Text.isDigit) = false := by
  simp [OfDigits]

theorem Readable.ofDigits (h : Readable port) : OfDigits port :=
  ⟨h.1, fun c hc ↦ Text.isDigit_of_isSome (h.2.1 c hc)⟩

/-- A port that can be read denotes a number. -/
theorem readable_iff :
    Readable port ↔ (∃ n, Text.Denotes port.toList n) ∧ port.length ≤ Text.maxDigits := by
  rw [Text.exists_denotes_iff, and_assoc, Readable, ne_eq, ne_eq, String.toList_eq_nil_iff]

/-- All characters of a numeral stand at its front. -/
theorem decimals_of_denotes {cs : List Char} {n : Nat} (h : Text.Denotes cs n) :
    decimals cs = cs.length := by
  rw [decimals, List.takeWhile_eq_self_iff.2 h.isSome]

/-! ### What an address names -/

theorem ofAddress_of_malformed (h : Malformed address) : ofAddress address = .error (.form address) := by
  rw [ofAddress]
  cases hsplit : split? address with
  | none => rfl
  | some parts =>
    obtain ⟨cs, ds⟩ := parts
    have hport := h _ _ (split?_eq_some_iff.1 hsplit)
    rw [ofDigits_iff, String.toList_ofList, Bool.not_eq_false] at hport
    exact if_pos hport

/-- What counts as digits is read as a number. -/
theorem ofAddress_of_ofDigits (hsplits : Splits address host port) (hport : OfDigits port) :
    ofAddress address =
      if Text.maxDigits < decimals port.toList then .error (.long (decimals port.toList))
      else
        match Text.nat? port.toList with
        | some n => .ok (.tcp (hostOr host) n)
        | none => .error (.port (Text.quotedWithin shownWidth port)) := by
  rw [ofAddress, hsplits.split?]
  dsimp only
  rw [ofDigits_iff.1 hport, if_neg Bool.false_ne_true, String.ofList_toList, String.ofList_toList]
  simp only [List.isEmpty_iff, String.toList_eq_nil_iff]
  rfl

theorem ofAddress_of_names {e : Endpoint} (h : Names address e) : ofAddress address = .ok e := by
  obtain ⟨host, port, n, hsplits, hn, hlength, rfl⟩ := h
  have hport : OfDigits port := (readable_iff.2 ⟨⟨n, hn⟩, hlength⟩).ofDigits
  have hshort : ¬Text.maxDigits < decimals port.toList := by
    rw [decimals_of_denotes hn]
    exact Nat.not_lt.2 hlength
  rw [ofAddress_of_ofDigits hsplits hport, if_neg hshort, Text.nat?_eq_some_iff.2 hn]

/-- What counts as digits and cannot be read is no number, or there is too much of it. -/
theorem ofAddress_of_unreadable (h : Unreadable address) :
    (∃ shown, ofAddress address = .error (.port shown)) ∨
      ∃ digits, ofAddress address = .error (.long digits) := by
  obtain ⟨host, port, hsplits, hport, hunreadable⟩ := h
  rw [ofAddress_of_ofDigits hsplits hport]
  split
  · exact .inr ⟨_, rfl⟩
  · next hshort =>
    cases hread : Text.nat? port.toList with
    | none => exact .inl ⟨_, rfl⟩
    | some n =>
      have hn := Text.nat?_eq_some_iff.1 hread
      rw [decimals_of_denotes hn] at hshort
      exact absurd (readable_iff.2 ⟨⟨n, hn⟩, Nat.le_of_not_lt hshort⟩) hunreadable

/-- An address names one endpoint at most. -/
theorem Names.unique {e e' : Endpoint} (h : Names address e) (h' : Names address e') : e = e' :=
  Except.ok.inj ((ofAddress_of_names h).symm.trans (ofAddress_of_names h'))

theorem Names.not_malformed {e : Endpoint} (h : Names address e) : ¬Malformed address := by
  intro hmalformed
  cases (ofAddress_of_names h).symm.trans (ofAddress_of_malformed hmalformed)

theorem Names.not_unreadable {e : Endpoint} (h : Names address e) : ¬Unreadable address := by
  intro hunreadable
  rcases ofAddress_of_unreadable hunreadable with ⟨_, heq⟩ | ⟨_, heq⟩
  · cases (ofAddress_of_names h).symm.trans heq
  · cases (ofAddress_of_names h).symm.trans heq

theorem Unreadable.not_malformed (h : Unreadable address) : ¬Malformed address := by
  obtain ⟨host, port, hsplits, hport, -⟩ := h
  exact fun hmalformed ↦ hmalformed host port hsplits hport

/-- There is nothing else that an address can be. -/
theorem malformed_or (address : String) :
    Malformed address ∨ (∃ e, Names address e) ∨ Unreadable address := by
  by_cases hdigits : ∃ host port, Splits address host port ∧ OfDigits port
  · obtain ⟨host, port, hsplits, hport⟩ := hdigits
    by_cases hread : Readable port
    · obtain ⟨⟨n, hn⟩, hlength⟩ := readable_iff.1 hread
      exact .inr (.inl ⟨_, host, port, n, hsplits, hn, hlength, rfl⟩)
    · exact .inr (.inr ⟨host, port, hsplits, hport, hread⟩)
  · exact .inl fun host port hsplits hport ↦ hdigits ⟨host, port, hsplits, hport⟩

end Endpoint

/-! ### The command -/

section Command

variable {H : Type} {address : String} {words : List String} {sh : Shell H} {s : Session H}

open Endpoint

/-- Any word behind the option is its value. -/
theorem ofWords_serve (address : String) :
    Invocation.ofWords ["serve", "--tcp", address] = .ok (.serve (some address)) :=
  rfl

/-- What the command comes to is what the address does, and the session is left as it is. -/
theorem run_of_serve [Depths] (hwords : Invocation.ofWords words = .ok (.serve (some address))) :
    run sh words s =
      (match ofAddress address with
        | .ok e => .serving e
        | .error (.form address) =>
          .refused (.invalid ("--tcp expects host:port, got " ++ Text.quoted address))
        | .error (.port shown) =>
          .failed (.plain .value ("invalid literal for int() with base 10: " ++ shown))
        | .error (.long digits) => .failed (.plain .value (Text.tooLongMessage digits)), s) := by
  rw [run, hwords]
  dsimp only [perform, endpoint]
  rcases ofAddress address with (_ | _ | _) | e <;> rfl

/-- **What comes of serving at an address.** Whatever word is given, nothing has changed in the session, and
the command is refused, it goes on to serve, or it fails: it is refused just if the address is malformed,
serves at an endpoint just if the address names it, and fails just if what it has for a port counts as digits
and cannot be read. -/
theorem run_serve [Depths] (sh : Shell H) (s : Session H) (address : String) :
    Invocation.ofWords ["serve", "--tcp", address] = .ok (.serve (some address)) ∧
      ∀ words, Invocation.ofWords words = .ok (.serve (some address)) →
        (run sh words s).2 = s ∧
        ((run sh words s).1 =
            .refused (.invalid ("--tcp expects host:port, got " ++ Text.quoted address)) ↔
          Malformed address) ∧
        (∀ e, (run sh words s).1 = .serving e ↔ Names address e) ∧
        ((∃ message, (run sh words s).1 = .failed (.plain .value message)) ↔ Unreadable address) := by
  refine ⟨ofWords_serve address, fun words hwords ↦ ?_⟩
  rw [run_of_serve hwords]
  refine ⟨rfl, ?_⟩
  rcases malformed_or address with h | ⟨e, h⟩ | h
  · rw [ofAddress_of_malformed h]
    exact ⟨iff_of_true rfl h, fun e ↦ iff_of_false nofun fun hnames ↦ hnames.not_malformed h,
      iff_of_false nofun fun hunreadable ↦ hunreadable.not_malformed h⟩
  · rw [ofAddress_of_names h]
    refine ⟨iff_of_false nofun h.not_malformed, fun e' ↦ ⟨fun heq ↦ ?_, fun h' ↦ ?_⟩,
      iff_of_false nofun h.not_unreadable⟩
    · exact Report.serving.inj heq ▸ h
    · rw [h.unique h']
  · rcases ofAddress_of_unreadable h with ⟨shown, haddress⟩ | ⟨digits, haddress⟩
    all_goals
      rw [haddress]
      exact ⟨iff_of_false nofun h.not_malformed,
        fun e ↦ iff_of_false nofun fun hnames ↦ hnames.not_unreadable h, iff_of_true ⟨_, rfl⟩ h⟩

/-- A directory in which there are no files. -/
def bare : Shell Unit where
  environment := ⟨fun _ ↦ none, ⟨fun _ ↦ .error .tooDeep, fun _ ↦ .error .tooDeep, fun _ ↦ .error .tooDeep⟩,
    fun _ ↦ .fail .tooDeep, ⟨[], []⟩⟩
  directory := "/workspace"
  file _ := .missing

open Depths in
/-- The host may have colons in it, and the digits may be those of any script. -/
theorem serves_at_fullwidth :
    (run bare ["serve", "--tcp=[::1]:８０"] (.new ())).1 = .serving (.tcp "[::1]" 80) := by
  have hwords : Invocation.ofWords ["serve", "--tcp=[::1]:８０"] = .ok (.serve (some "[::1]:８０")) := rfl
  obtain ⟨-, -, hserving, -⟩ := (run_serve bare (.new ()) "[::1]:８０").2 _ hwords
  exact (hserving _).2 ⟨"[::1]", "８０", 80, ⟨rfl, by decide⟩, ⟨by decide, [8, 0], rfl, rfl⟩, by decide, rfl⟩

open Depths in
/-- **A superscript digit is let through and cannot be read**: the command is not refused, and there is a
fault. -/
theorem superscript_fails : (run bare ["serve", "--tcp", ":²"] (.new ())).1 =
    .failed (.plain .value "invalid literal for int() with base 10: '²'") := by
  have haddress : ofAddress ":²" = .error (.port "'²'") := by decide +kernel
  rw [run_of_serve (ofWords_serve ":²"), haddress]
  rfl

end Command

end ModelServer.CommandLine
