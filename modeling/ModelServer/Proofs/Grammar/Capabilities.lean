import ModelServer.Proofs.Grammar.Offers
import ModelServer.Proofs.Workspace.Exactness

/-!
# Declared capabilities

What can be done to an element is declared with it: it has tests, a lambda or an older test, and a
service can be registered where there is an execution server. `Capability.declared` says so without
mention of extensions, offers or the collector that puts them together; `Capability.descriptors` are the
commands that come of it, in the order of `Capability.all`. The offers of the extensions that are always
there are just these (`commands_eq_descriptors` of each).

The collector goes over offers from the left with what it has taken so far. What it ends with is
`Command.firsts`, which has no state: `foldl_offer` is the invariant of the walk, for whatever was taken
before it.
-/

namespace ModelServer

namespace Command

/-! ### The first command of each key -/

/-- The commands that are the first with their key. -/
def firsts : List Command → List Command
  | [] => []
  | c :: rest => c :: (firsts rest).filter (·.key ≠ c.key)

/-- **Collecting goes on as it began**: behind what was taken before stand the first offers of each key
that none of these has. -/
theorem foldl_offer (taken offers : List Command) :
    offers.foldl offer taken =
      taken ++ (firsts offers).filter fun d ↦ ¬taken.any (·.key = d.key) := by
  induction offers generalizing taken with
  | nil => exact (List.append_nil taken).symm
  | cons c rest ih =>
    rw [List.foldl_cons, ih, offer, firsts]
    by_cases hc : taken.any (·.key = c.key)
    · -- The offer is passed over, and so is whatever has its key.
      rw [if_pos hc, List.filter_cons_of_neg (by simpa using hc), List.filter_filter]
      congr 1
      refine List.filter_congr fun d _ ↦ ?_
      by_cases hd : d.key = c.key
      · simp [hd, hc]
      · simp [hd]
    · rw [if_neg hc, List.filter_cons_of_pos (by simpa using hc), List.filter_filter,
        List.append_assoc, List.singleton_append]
      congr 2
      refine List.filter_congr fun d _ ↦ ?_
      rw [List.any_append, List.any_cons, List.any_nil, Bool.or_false]
      by_cases hd : d.key = c.key
      · simp [hd]
      · simp [hd, Ne.symm hd]

theorem collect_eq_firsts (offers : List Command) : collect offers = firsts offers := by
  rw [collect, foldl_offer]
  simp

theorem firsts_sublist (offers : List Command) : (firsts offers).Sublist offers := by
  induction offers with
  | nil => exact .slnil
  | cons c rest ih => exact (List.filter_sublist.trans ih).cons_cons c

/-- No two of them have one key. -/
theorem nodup_firsts (offers : List Command) : ((firsts offers).map key).Nodup := by
  induction offers with
  | nil => exact List.nodup_nil
  | cons c rest ih =>
    rw [firsts, List.map_cons, List.nodup_cons]
    refine ⟨fun hmem ↦ ?_, ih.sublist (List.filter_sublist.map key)⟩
    obtain ⟨d, hd, hkey⟩ := List.mem_map.1 hmem
    exact of_decide_eq_true (List.mem_filter.1 hd).2 hkey

/-- Every key has a first command. -/
theorem exists_mem_firsts {offers : List Command} {k : String × String} :
    (∃ c ∈ firsts offers, c.key = k) ↔ ∃ c ∈ offers, c.key = k := by
  rw [← collect_eq_firsts, exists_mem_collect]

/-- To leave out keys makes no difference to which commands of the others are first. -/
theorem filter_firsts {p : Command → Bool} (hp : ∀ c d : Command, c.key = d.key → p c = p d)
    (offers : List Command) : (firsts offers).filter p = firsts (offers.filter p) := by
  induction offers with
  | nil => rfl
  | cons c rest ih =>
    have hcomm : ((firsts rest).filter (·.key ≠ c.key)).filter p =
        ((firsts rest).filter p).filter (·.key ≠ c.key) := by
      rw [List.filter_filter, List.filter_filter]
      exact List.filter_congr fun d _ ↦ Bool.and_comm _ _
    rw [firsts]
    cases hc : p c with
    | true =>
      rw [List.filter_cons_of_pos hc, List.filter_cons_of_pos hc, firsts, hcomm, ih]
    | false =>
      have hc' : ¬p c = true := by simp [hc]
      rw [List.filter_cons_of_neg hc', List.filter_cons_of_neg hc', hcomm, ih, List.filter_eq_self]
      intro d hd
      refine decide_eq_true fun hkey ↦ ?_
      rw [← ih] at hd
      exact hc' (hp d c hkey ▸ (List.mem_filter.1 hd).2)

end Command

/-! ### Capabilities -/

/-- What an element may be able to do. -/
inductive Capability where
  | runTests
  | execute
  | register
  | runLegacyTests
  deriving DecidableEq, Repr

namespace Capability

/-- All capabilities, in the order in which they are listed. -/
def all : List Capability :=
  [.runTests, .execute, .register, .runLegacyTests]

def id : Capability → String
  | runTests => Command.runTestsId
  | execute => Command.executeId
  | register => Command.registerId
  | runLegacyTests => Command.runLegacyTestsId

def title : Capability → String
  | runTests => Command.runTestsTitle
  | execute => Command.executeTitle
  | register => Command.registerTitle
  | runLegacyTests => Command.runLegacyTestsTitle

/-- What the element declares in a section of that grammar; `registering` tells that there is an
execution server. -/
def declared (registering : Bool) (grammar : String) (e : Element) : Capability → Bool
  | runTests =>
    grammar == "Service" && e.service?.any (!·.suites.isEmpty) ||
      grammar == "Function" && e.function?.any (!·.suites.isEmpty)
  | execute =>
    grammar == "Service" && e.service?.any (fun s ↦ (s.execution.bind (·.func)).isSome) ||
      grammar == "Function" && e.function?.any (·.func.isSome)
  | register => grammar == "Service" && e.service?.isSome && registering
  | runLegacyTests => grammar == "Service" && e.service?.any (·.legacyTest.isSome)

/-- The command that makes use of the capability, at the place of the element. -/
def command (e : Element) (c : Capability) : Command :=
  .plain e.path c.id c.title e.source

/-- The commands that come of what the element declares. -/
def descriptors (registering : Bool) (grammar : String) (e : Element) : List Command :=
  (all.filter (declared registering grammar e)).map (command e)

theorem id_injective : Function.Injective id := by
  intro c d h
  cases c <;> cases d <;> first | rfl | exact absurd h (by decide)

variable {registering : Bool} {grammar : String} {e : Element}

theorem entityPath_of_mem {c : Command} (hc : c ∈ descriptors registering grammar e) :
    c.entityPath = e.path := by
  obtain ⟨a, -, rfl⟩ := List.mem_map.1 hc
  rfl

/-- Elements in other sections have no capabilities. -/
theorem descriptors_of_ne (hs : grammar ≠ "Service") (hf : grammar ≠ "Function") :
    descriptors registering grammar e = [] := by
  have hnone : ∀ c ∈ all, ¬declared registering grammar e c = true := by
    intro c _
    cases c <;> simp [declared, hs, hf]
  rw [descriptors, List.filter_eq_nil_iff.2 hnone]
  rfl

/-- **Without an execution server just the commands to register are missing.** -/
theorem filter_descriptors :
    (descriptors true grammar e).filter (·.id ≠ Command.registerId) =
      descriptors false grammar e := by
  have hid (c : Capability) : (command e c).id ≠ Command.registerId ↔ c ≠ .register :=
    not_congr ⟨fun h ↦ id_injective h, fun h ↦ h ▸ rfl⟩
  have hdeclared (c : Capability) :
      (decide (c ≠ .register) && declared true grammar e c) = declared false grammar e c := by
    cases c <;> simp [declared]
  rw [descriptors, descriptors, List.filter_map, List.filter_filter]
  congr 1
  refine List.filter_congr fun c _ ↦ ?_
  rw [← hdeclared, Function.comp_apply, decide_eq_decide.2 (hid c)]

/-- Only services in their own sections are listed to be registered. -/
theorem filter_descriptors_register :
    (descriptors true grammar e).filter (·.id = Command.registerId) =
      if grammar = "Service" ∧ e.isService then [command e .register] else [] := by
  have hid (c : Capability) : (command e c).id = Command.registerId ↔ c = .register :=
    ⟨fun h ↦ id_injective h, fun h ↦ h ▸ rfl⟩
  have hdeclared : declared true grammar e .register = decide (grammar = "Service" ∧ e.isService) := by
    rw [Bool.decide_and, Bool.decide_eq_true, declared, Bool.and_true]
    rfl
  have honly : (all.filter (declared true grammar e)).filter (· = .register) =
      if declared true grammar e .register then [.register] else [] := by
    rw [List.filter_filter]
    simp [all, List.filter_cons]
  rw [descriptors, List.filter_map]
  simp only [Function.comp_def, hid, honly, hdeclared, decide_eq_true_eq]
  split <;> rfl

end Capability

/-! ### Offers are what is declared -/

open Capability

variable {H : Type}

theorem ServiceGrammar.commands_eq_descriptors [Depths] (s : Surroundings H) (e : Element) :
    ((extension (H := H)).offers s e).commands = descriptors (canRegister s) "Service" e := by
  have hgrammar : ("Service" == "Function") = false := by decide
  rw [commands_offers, descriptors]
  cases he : e.service? with
  | none =>
    simp [suitesOf, lambda, ownOffers, Offers.these, Testable.commandsFor, Executable.commandsFor,
      all, declared, he, hgrammar]
  | some service =>
    cases hsuites : service.suites <;> cases hfunc : service.execution.bind (·.func) <;>
      cases hserver : canRegister s <;> cases hlegacy : service.legacyTest <;>
      simp [suitesOf, lambda, ownOffers, Offers.these, Testable.commandsFor, Executable.commandsFor,
        all, declared, command, Capability.id, title, he, hgrammar, hsuites, hfunc, hserver, hlegacy]

theorem FunctionGrammar.commands_eq_descriptors (s : Surroundings H) (registering : Bool)
    (e : Element) :
    ((extension (H := H)).offers s e).commands = descriptors registering "Function" e := by
  have hgrammar : ("Function" == "Service") = false := by decide
  rw [commands_offers, descriptors]
  cases he : e.function? with
  | none =>
    simp [suitesOf, lambda, Testable.commandsFor, Executable.commandsFor, all, declared, he, hgrammar]
  | some f =>
    cases hsuites : f.suites <;> cases hfunc : f.func <;>
      simp [suitesOf, lambda, Testable.commandsFor, Executable.commandsFor, all, declared, command,
        Capability.id, title, he, hgrammar, hsuites, hfunc]

end ModelServer
