import ModelServer.Server.Routing

/-!
# What is offered

An extension offers an element commands, and of the offers of a section the first with its key is kept.
Which keys are offered does not depend on what is kept (`Command.exists_mem_collect`), so a command is
offered for an element exactly if the extension offers it (`Extension.Offered`).

For the extensions that are always there this comes to what the element has: tests, a lambda, an older
test, and, for services, an execution server to be registered with (`offered_iff` of each).
-/

namespace ModelServer

namespace Command

theorem exists_mem_offer {taken : List Command} {c : Command} {key : String × String} :
    (∃ d ∈ offer taken c, d.key = key) ↔ (∃ d ∈ taken, d.key = key) ∨ c.key = key := by
  rw [offer]
  split
  · next hany =>
    obtain ⟨d, hd, hkey⟩ := List.any_eq_true.1 hany
    have hkey : d.key = c.key := of_decide_eq_true hkey
    refine ⟨.inl, ?_⟩
    rintro (h | hc)
    · exact h
    · exact ⟨d, hd, hkey.trans hc⟩
  · simp only [List.mem_append, List.mem_singleton, or_and_right, exists_or, exists_eq_left]

/-- Collecting offers neither adds a key nor loses one. -/
theorem exists_mem_collect {offers : List Command} {key : String × String} :
    (∃ c ∈ collect offers, c.key = key) ↔ ∃ c ∈ offers, c.key = key := by
  suffices h : ∀ taken, (∃ c ∈ offers.foldl offer taken, c.key = key) ↔
      (∃ c ∈ taken, c.key = key) ∨ ∃ c ∈ offers, c.key = key by
    exact (h []).trans (by simp)
  induction offers with
  | nil => simp
  | cons c rest ih =>
    intro taken
    rw [List.foldl_cons, ih, exists_mem_offer, or_assoc]
    simp

end Command

variable {H : Type}

namespace Extension

/-- The extension offers the command for the element. -/
def Offered (x : Extension H) (s : Surroundings H) (e : Element) (id : String) : Prop :=
  ∃ c ∈ (x.offers s e).commands, c.id = id

/-- Every offer for an element names the element. -/
def Names (x : Extension H) : Prop :=
  ∀ s e, ∀ c ∈ (x.offers s e).commands, c.entityPath = e.path

/-- **A section offers a command for a path exactly if it is offered for an element of that path.** -/
theorem exists_mem_commandsOf {x : Extension H} (hx : x.Names) {s : Surroundings H}
    {elements : List Element} {path id : String} :
    (∃ c ∈ x.commandsOf s elements, c.entityPath = path ∧ c.id = id) ↔
      ∃ e ∈ elements, e.path = path ∧ x.Offered s e id := by
  have hkey (c : Command) : c.entityPath = path ∧ c.id = id ↔ c.key = (path, id) :=
    Prod.mk.injEq .. ▸ Iff.rfl
  simp only [hkey, commandsOf, Command.exists_mem_collect, List.mem_flatMap]
  constructor
  · rintro ⟨c, ⟨e, he, hc⟩, hk⟩
    obtain ⟨hpath, hid⟩ := (hkey c).2 hk
    exact ⟨e, he, (hx s e c hc).symm.trans hpath, c, hc, hid⟩
  · rintro ⟨e, he, hpath, c, hc, hid⟩
    exact ⟨c, ⟨e, he, hc⟩, (hkey c).1 ⟨(hx s e c hc).trans hpath, hid⟩⟩

end Extension

/-! ### The extensions that are always there -/

/-- The commands that an element with those suites is offered. -/
def Testable.commandsFor (suites : List (TestSuite Location)) (e : Element) : List Command :=
  if suites.isEmpty then []
  else [.plain e.path Command.runTestsId Command.runTestsTitle e.source]

/-- The commands that an element with that lambda is offered. -/
def Executable.commandsFor (func? : Option (Lambda Location)) (e : Element) : List Command :=
  match func? with
  | some _ => [.plain e.path Command.executeId Command.executeTitle e.source]
  | none => []

theorem Testable.mem_commandsFor {suites : List (TestSuite Location)} {e : Element} {c : Command} :
    c ∈ commandsFor suites e ↔
      suites ≠ [] ∧ c = .plain e.path Command.runTestsId Command.runTestsTitle e.source := by
  cases suites <;> simp [commandsFor]

theorem Executable.mem_commandsFor {func? : Option (Lambda Location)} {e : Element} {c : Command} :
    c ∈ commandsFor func? e ↔
      func?.isSome ∧ c = .plain e.path Command.executeId Command.executeTitle e.source := by
  cases func? <;> simp [commandsFor]

namespace ServiceGrammar

/-- The suites of the service that the element is; none if it is no service. -/
def suitesOf (e : Element) : List (TestSuite Location) :=
  (e.service?.map (·.suites)).getD []

theorem mem_ownOffers {s : Surroundings H} {e : Element} {c : Command} :
    c ∈ (ownOffers s e).commands ↔ ∃ service, e.service? = some service ∧
      (canRegister s ∧ c = .plain e.path Command.registerId Command.registerTitle e.source ∨
        service.legacyTest.isSome ∧
          c = .plain e.path Command.runLegacyTestsId Command.runLegacyTestsTitle e.source) := by
  rw [ownOffers]
  cases e.service? with
  | none => simp [Offers.these]
  | some service =>
    cases canRegister s <;> cases service.legacyTest <;> simp [Offers.these]

theorem commands_offers [Depths] (s : Surroundings H) (e : Element) :
    ((extension (H := H)).offers s e).commands =
      Testable.commandsFor (suitesOf e) e ++ Executable.commandsFor (lambda e) e ++
        (ownOffers s e).commands := by
  have hoffers : (extension (H := H)).offers s e = offers suites s e := rfl
  rw [hoffers, offers]
  cases h : e.service? with
  | none =>
    have hlambda : lambda e = none := by rw [lambda, h]; rfl
    rw [hlambda, ownOffers, h]
    simp [Offers.andThen, Offers.these, Testable.offers, Offers.ofExcept, suites, Except.map,
      Testable.commandsFor, Executable.commandsFor, suitesOf, h]
  | some service =>
    have hexecution : (execution (H := H)).lambda e = .ok (lambda e) := rfl
    simp only [Offers.andThen, Testable.offers, Executable.offers, hexecution, Offers.ofExcept,
      suites, Except.map, List.append_assoc]
    rfl

theorem names [Depths] : (extension (H := H)).Names := by
  intro s e c hc
  rw [commands_offers, List.mem_append, List.mem_append, Testable.mem_commandsFor,
    Executable.mem_commandsFor, mem_ownOffers] at hc
  rcases hc with (⟨-, rfl⟩ | ⟨-, rfl⟩) | ⟨-, -, ⟨-, rfl⟩ | ⟨-, rfl⟩⟩ <;> rfl

theorem offered_iff [Depths] (s : Surroundings H) (e : Element) (id : String) :
    (extension (H := H)).Offered s e id ↔
      (suitesOf e ≠ [] ∧ Command.runTestsId = id) ∨
      ((lambda e).isSome ∧ Command.executeId = id) ∨
      (∃ service, e.service? = some service ∧
        (canRegister s ∧ Command.registerId = id ∨
          service.legacyTest.isSome ∧ Command.runLegacyTestsId = id)) := by
  simp only [Extension.Offered, commands_offers, List.mem_append, Testable.mem_commandsFor,
    Executable.mem_commandsFor, mem_ownOffers]
  constructor
  · rintro ⟨c, (⟨h, rfl⟩ | ⟨h, rfl⟩) | ⟨service, he, ⟨h, rfl⟩ | ⟨h, rfl⟩⟩, rfl⟩
    · exact .inl ⟨h, rfl⟩
    · exact .inr (.inl ⟨h, rfl⟩)
    · exact .inr (.inr ⟨service, he, .inl ⟨h, rfl⟩⟩)
    · exact .inr (.inr ⟨service, he, .inr ⟨h, rfl⟩⟩)
  · rintro (⟨h, hid⟩ | ⟨h, hid⟩ | ⟨service, he, ⟨h, hid⟩ | ⟨h, hid⟩⟩)
    · exact ⟨_, .inl (.inl ⟨h, rfl⟩), hid⟩
    · exact ⟨_, .inl (.inr ⟨h, rfl⟩), hid⟩
    · exact ⟨_, .inr ⟨service, he, .inl ⟨h, rfl⟩⟩, hid⟩
    · exact ⟨_, .inr ⟨service, he, .inr ⟨h, rfl⟩⟩, hid⟩

end ServiceGrammar

namespace FunctionGrammar

/-- The suites of the function that the element is; none if it is no function. -/
def suitesOf (e : Element) : List (TestSuite Location) :=
  (e.function?.map (·.suites)).getD []

theorem commands_offers (s : Surroundings H) (e : Element) :
    ((extension (H := H)).offers s e).commands =
      Testable.commandsFor (suitesOf e) e ++ Executable.commandsFor (lambda e) e :=
  rfl

theorem names : (extension (H := H)).Names := by
  intro s e c hc
  rw [commands_offers, List.mem_append, Testable.mem_commandsFor, Executable.mem_commandsFor] at hc
  rcases hc with ⟨-, rfl⟩ | ⟨-, rfl⟩ <;> rfl

theorem offered_iff (s : Surroundings H) (e : Element) (id : String) :
    (extension (H := H)).Offered s e id ↔
      (suitesOf e ≠ [] ∧ Command.runTestsId = id) ∨
      ((lambda e).isSome ∧ Command.executeId = id) := by
  simp only [Extension.Offered, commands_offers, List.mem_append, Testable.mem_commandsFor,
    Executable.mem_commandsFor]
  constructor
  · rintro ⟨c, ⟨h, rfl⟩ | ⟨h, rfl⟩, rfl⟩
    · exact .inl ⟨h, rfl⟩
    · exact .inr ⟨h, rfl⟩
  · rintro (⟨h, hid⟩ | ⟨h, hid⟩)
    · exact ⟨_, .inl ⟨h, rfl⟩, hid⟩
    · exact ⟨_, .inr ⟨h, rfl⟩, hid⟩

end FunctionGrammar

namespace RuntimeGrammar

theorem names : (extension (H := H)).Names :=
  fun _ _ _ hc ↦ absurd hc List.not_mem_nil

/-- Runtimes are offered nothing. -/
theorem not_offered {s : Surroundings H} {e : Element} {id : String} :
    ¬(extension (H := H)).Offered s e id :=
  fun ⟨_, hc, _⟩ ↦ absurd hc List.not_mem_nil

end RuntimeGrammar

/-- **What is offered does not depend on what else there is**: of its surroundings an extension that is
always there asks for nothing but whether there is an execution server. -/
theorem Extension.offers_congr [Depths] {x : Extension H} (hx : x ∈ Server.defaultExtensions)
    {s t : Surroundings H}
    (h : s.collaborators.executionServer.isSome = t.collaborators.executionServer.isSome)
    (e : Element) : x.offers s e = x.offers t e := by
  simp only [Server.defaultExtensions, List.mem_cons, List.not_mem_nil, or_false] at hx
  rcases hx with rfl | rfl | rfl
  · show ServiceGrammar.offers ServiceGrammar.suites s e = ServiceGrammar.offers ServiceGrammar.suites t e
    have hown : ServiceGrammar.ownOffers s e = ServiceGrammar.ownOffers t e := by
      rw [ServiceGrammar.ownOffers, ServiceGrammar.ownOffers, ServiceGrammar.canRegister,
        ServiceGrammar.canRegister, h]
    rw [ServiceGrammar.offers, ServiceGrammar.offers, hown]
  · rfl
  · rfl

end ModelServer
