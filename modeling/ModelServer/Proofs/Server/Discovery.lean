import Mathlib.Data.List.Flatten
import ModelServer.Proofs.Grammar.Capabilities
import ModelServer.Proofs.Server.Agreement
import ModelServer.Proofs.Server.Project
import ModelServer.Proofs.Server.References

/-!
# What a document lists

The commands that a document lists are those of its sections in order, and of a section the first of each
key among those that come of what its elements declare (`Server.listing`). Nothing else enters: not what
was asked before, and of the collaborators nothing but whether there is an execution server.

In a project that compiles no path is declared twice, so no two commands of a document have one key. An
execution server makes commands to register appear and touches no other (`filter_listing`), because to
leave commands of one id out goes through `Command.firsts`.
-/

namespace ModelServer

open Capability

namespace Section

/-- The commands that the elements of the section declare, the first of each key. -/
def listed (registering : Bool) (sec : Section) : List Command :=
  Command.firsts (sec.parse.toList.flatMap (descriptors registering sec.grammar))

/-- The services that the section declares in their own grammar. -/
def services (sec : Section) : List Element :=
  if sec.grammar = "Service" then sec.parse.toList.filter (·.isService) else []

/-- The commands to register them, one for each path. -/
def registrations (sec : Section) : List Command :=
  Command.firsts (sec.services.map (command · .register))

/-- **Without an execution server a section lists what it lists with one, but for the commands to
register.** -/
theorem filter_listed (sec : Section) :
    (sec.listed true).filter (·.id ≠ Command.registerId) = sec.listed false := by
  rw [listed, Command.filter_firsts (fun c d h ↦ ?_), List.filter_flatMap]
  · simp only [filter_descriptors, listed]
  · rw [(Prod.mk.inj h).2]

theorem filter_listed_register (sec : Section) :
    (sec.listed true).filter (·.id = Command.registerId) = sec.registrations := by
  have hservices : (sec.parse.toList.flatMap fun e ↦
      if sec.grammar = "Service" ∧ e.isService then [command e .register] else []) =
        sec.services.map (command · .register) := by
    rw [services]
    by_cases hg : sec.grammar = "Service"
    · rw [if_pos hg]
      induction sec.parse.toList with
      | nil => rfl
      | cons e rest ih =>
        rw [List.flatMap_cons, ih]
        by_cases he : e.isService = true
        · rw [if_pos ⟨hg, he⟩, List.filter_cons_of_pos he]
          rfl
        · rw [if_neg fun h ↦ he h.2, List.filter_cons_of_neg he]
          rfl
    · simp [hg]
  rw [listed, Command.filter_firsts (fun c d h ↦ ?_), List.filter_flatMap, registrations, ← hservices]
  · simp only [filter_descriptors_register]
  · rw [(Prod.mk.inj h).2]

theorem exists_service_of_mem {sec : Section} {c : Command} (hc : c ∈ sec.registrations) :
    ∃ e ∈ sec.services, c = command e .register := by
  obtain ⟨e, he, rfl⟩ := List.mem_map.1 ((Command.firsts_sublist _).mem hc)
  exact ⟨e, he, rfl⟩

/-- **Each path of a service is registered by one command**, and no other path. -/
theorem paths_registrations (sec : Section) :
    (sec.registrations.map (·.entityPath)).Nodup ∧
      ∀ path, path ∈ sec.registrations.map (·.entityPath) ↔ ∃ e ∈ sec.services, e.path = path := by
  refine ⟨?_, fun path ↦ ?_⟩
  · -- All of them have one id, so they differ in their paths.
    refine List.Nodup.of_map (fun path ↦ (path, Command.registerId)) ?_
    have hkey : sec.registrations.map Command.key =
        sec.registrations.map ((fun path ↦ (path, Command.registerId)) ∘ (·.entityPath)) := by
      refine List.map_congr_left fun c hc ↦ ?_
      obtain ⟨e, -, rfl⟩ := exists_service_of_mem hc
      rfl
    rw [List.map_map, ← hkey]
    exact Command.nodup_firsts _
  · rw [List.mem_map]
    constructor
    · rintro ⟨c, hc, hpath⟩
      obtain ⟨e, he, rfl⟩ := exists_service_of_mem hc
      exact ⟨e, he, hpath⟩
    · rintro ⟨e, he, rfl⟩
      obtain ⟨c, hc, hkey⟩ := Command.exists_mem_firsts.2
        ⟨_, List.mem_map_of_mem (f := (command · .register)) he, rfl⟩
      exact ⟨c, hc, (Prod.mk.inj hkey).1⟩

theorem path_mem_of_mem_listed {registering : Bool} {sec : Section} {c : Command}
    (hc : c ∈ sec.listed registering) : c.entityPath ∈ sec.parse.toList.map Element.path := by
  obtain ⟨e, he, hc⟩ := List.mem_flatMap.1 ((Command.firsts_sublist _).mem hc)
  exact List.mem_map.2 ⟨e, he, (entityPath_of_mem hc).symm⟩

end Section

namespace Server

variable {H : Type}

/-- What a document with those sections lists. -/
def listing (registering : Bool) (sections : List Section) : List Command :=
  sections.flatMap (·.listed registering)

/-- The server with another execution server, or with none. -/
def serving (v : Server H) (server? : Option (ExecutionServer H)) : Server H :=
  { v with collaborators := { v.collaborators with executionServer := server? } }

/-- **An execution server changes nothing but the commands to register.** -/
theorem filter_listing (sections : List Section) :
    (listing true sections).filter (·.id ≠ Command.registerId) = listing false sections ∧
      (listing true sections).filter (·.id = Command.registerId) =
        sections.flatMap Section.registrations := by
  rw [listing, List.filter_flatMap, List.filter_flatMap, listing]
  simp only [Section.filter_listed, Section.filter_listed_register, and_self]

/-- **No two commands have one key where no path is declared twice.** -/
theorem nodup_listing (registering : Bool) {sections : List Section} (hn : (pathsOf sections).Nodup) :
    ((listing registering sections).map Command.key).Nodup := by
  rw [pathsOf, elementsOf, List.map_flatMap, List.nodup_flatMap] at hn
  rw [listing, List.map_flatMap, List.nodup_flatMap]
  refine ⟨fun sec _ ↦ Command.nodup_firsts _, hn.2.imp fun {sec sec'} hdisjoint k hk hk' ↦ ?_⟩
  obtain ⟨c, hc, rfl⟩ := List.mem_map.1 hk
  obtain ⟨d, hd, hkey⟩ := List.mem_map.1 hk'
  refine hdisjoint (Section.path_mem_of_mem_listed hc) ?_
  rw [← (Prod.mk.inj hkey).1]
  exact Section.path_mem_of_mem_listed hd

variable {v : Server H}

/-- **What a section offers is what its elements declare.** -/
theorem commandsOf_eq_listed [Depths] (hx : v.extensions = defaultExtensions) (sec : Section) :
    v.commandsOf sec = sec.listed v.collaborators.executionServer.isSome := by
  have hnothing (hs : sec.grammar ≠ "Service") (hf : sec.grammar ≠ "Function") :
      sec.listed v.collaborators.executionServer.isSome = [] := by
    rw [Section.listed, List.flatMap_eq_nil_iff.2 fun _ _ ↦ descriptors_of_ne hs hf]
    rfl
  rw [commandsOf]
  obtain ⟨hg, h⟩ | ⟨hg, h⟩ | ⟨hg, h⟩ | ⟨hg, h⟩ := extensionFor_cases hx sec
  · rw [h, Section.listed, hg]
    show ServiceGrammar.extension.commandsOf v.surroundings sec.parse.toList = _
    rw [Extension.commandsOf, Command.collect_eq_firsts]
    simp only [ServiceGrammar.commands_eq_descriptors]
    rfl
  · rw [h, hnothing (by rw [hg]; decide) (by rw [hg]; decide)]
    show RuntimeGrammar.extension.commandsOf v.surroundings sec.parse.toList = _
    have hnone : (sec.parse.toList.flatMap fun e ↦
        ((RuntimeGrammar.extension (H := H)).offers v.surroundings e).commands) = [] :=
      List.flatMap_eq_nil_iff.2 fun _ _ ↦ rfl
    rw [Extension.commandsOf, hnone]
    rfl
  · rw [h, Section.listed, hg]
    show FunctionGrammar.extension.commandsOf v.surroundings sec.parse.toList = _
    rw [Extension.commandsOf, Command.collect_eq_firsts]
    simp only [FunctionGrammar.commands_eq_descriptors _ v.collaborators.executionServer.isSome]
  · rw [h]
    simp only [referringGrammars, List.mem_cons, List.not_mem_nil, or_false, not_or] at hg
    exact (hnothing hg.1 hg.2.2).symm

end Server

namespace History

open Texts

variable {H : Type}

/-- The commands of a document are those of the sections of its text. -/
theorem documentCommands_apply [Depths] {v w : Server H}
    (hv : v.collaborators.provider = DocumentProvider.provider)
    (hw : w.collaborators.provider = DocumentProvider.provider)
    (hx : w.extensions = Server.defaultExtensions) (host : H) (operations : List Operation)
    {s : Session H} (hs : s.workspace = (after v host operations).session.workspace)
    (document : String) :
    (w.documentCommands document s).1 =
      .ok (Server.listing w.collaborators.executionServer.isSome
        ((openAfter operations).sectionsOf document)) := by
  have hf := follows_after hv host operations
  have hsound : s.workspace.Sound := sound_of_after hv hs
  have hsections : (Server.sections document s : _ × Session H) =
      (.ok (s.workspace.sectionsOf document), s) := rfl
  obtain ⟨w', -, hrun⟩ := Workspace.Answers.commandsIn (v := w) hw
    (fun sec hsec ↦ (hsound.held hsec).2) s hsound.learns
  have hlisted (sec : Section) : w.commandsOf sec.unrevised = w.commandsOf sec :=
    w.commandsOf_map Section.redates_unrevised sec
  rw [Server.documentCommands, Action.bind_of_ok hsections, hrun, ← hf.sectionsOf document, ← hs,
    Server.listing, List.flatMap_map]
  simp only [← Server.commandsOf_eq_listed hx, hlisted]

/-- **A document lists what its elements declare**: each element, in the order of declaration, the
commands of its capabilities at its own place, and of a section the first of each key. In a project that
compiles no key is listed twice, and an execution server adds one command to register for each path of a
service in its own section, in the same state, and leaves all others as they are. -/
theorem documentCommands_lists_declared [Depths] (v : Server H)
    (hp : v.collaborators.provider = DocumentProvider.provider)
    (hx : v.extensions = Server.defaultExtensions) (host : H) (operations : List Operation)
    {s : Session H} (hs : s.workspace = (after v host operations).session.workspace)
    (document : String) :
    let sections := (openAfter operations).sectionsOf document
    (v.documentCommands document s).1 =
        .ok (sections.flatMap fun sec ↦ Command.firsts (sec.parse.toList.flatMap
          (descriptors v.collaborators.executionServer.isSome sec.grammar))) ∧
      (∀ m, (v.collaborators.compile s).1 = .ok (.model m) →
        ∀ cs, (v.documentCommands document s).1 = .ok cs → (cs.map Command.key).Nodup) ∧
      ∀ server, ∃ without added,
        ((v.serving none).documentCommands document s).1 = .ok without ∧
        ((v.serving (some server)).documentCommands document s).1 = .ok added ∧
        added.filter (·.id ≠ Command.registerId) = without ∧
        added.filter (·.id = Command.registerId) = sections.flatMap Section.registrations ∧
        ∀ sec ∈ sections, (sec.registrations.map (·.entityPath)).Nodup ∧
          ∀ path, path ∈ sec.registrations.map (·.entityPath) ↔ ∃ e ∈ sec.services, e.path = path := by
  intro sections
  have hlists := documentCommands_apply hp hp hx host operations hs document
  refine ⟨hlists, fun m hm cs hcs ↦ ?_, fun server ↦ ?_⟩
  · have hcompiled : Compiled.ofSections (openAfter operations).allSections = .model m :=
      Except.ok.inj ((compile_eq_ofSections hp hs).symm.trans hm)
    obtain rfl := Except.ok.inj (hlists.symm.trans hcs)
    have hf := follows_after hp host operations
    -- No path of the project is declared twice, so none is in a part of it.
    have hsub := (s.workspace.sectionsOf_sublist document).map Section.unrevised
    rw [hs, hf.sectionsOf, hf.allSections] at hsub
    exact Server.nodup_listing _
      ((Compiled.nodup_of_ofSections hcompiled).sublist ((hsub.flatMap _).map Element.path))
  · obtain ⟨hothers, hregister⟩ := Server.filter_listing sections
    exact ⟨_, _, documentCommands_apply (w := v.serving none) hp hp hx host operations hs document,
      documentCommands_apply (w := v.serving (some server)) hp hp hx host operations hs document,
      hothers, hregister, fun sec _ ↦ sec.paths_registrations⟩

/-- Two services of one path, the second with a test of the older kind. -/
def offeringText : String :=
  "\x7b\"sections\":[\x7b\"grammar\":\"Service\",\"elements\":[" ++
    "\x7b\"kind\":\"service\",\"path\":\"s\"\x7d," ++
    "\x7b\"kind\":\"service\",\"path\":\"s\",\"legacy_test\":\x7b\"data\":\"\"\x7d\x7d]\x7d]\x7d"

/-- An execution server that answers nothing. -/
def silentServer : ExecutionServer Unit :=
  ⟨fun _ _ ↦ pure ""⟩

open Depths in
/-- The second declaration of `s` offers what the first does not. With an execution server both offer to
register the path, which is listed once. Where only `f` is declared, the project compiles, and no key is
listed twice. -/
theorem documentCommands_offeringText :
    (∃ added : List Command,
      ((Server.reading.serving (some silentServer)).documentCommands "a"
        (after .reading () [.set "a" offeringText 1]).session).1 = .ok added ∧
      added.map Command.key = [("s", Command.registerId), ("s", Command.runLegacyTestsId)] ∧
      ((Server.reading.serving none).documentCommands "a"
        (after .reading () [.set "a" offeringText 1]).session).1 =
          .ok (added.filter (·.id ≠ Command.registerId))) ∧
    ∃ m, (Server.reading.collaborators.compile
        (after .reading () [.set "a" functionText 1]).session).1 = .ok (.model m) ∧
      ∀ cs, (Server.reading.documentCommands "a"
        (after .reading () [.set "a" functionText 1]).session).1 = .ok cs →
          (cs.map Command.key).Nodup := by
  refine ⟨?_, ?_⟩
  · obtain ⟨-, -, hserver⟩ := documentCommands_lists_declared .reading rfl rfl ()
      [.set "a" offeringText 1] (s := (after .reading () [.set "a" offeringText 1]).session) rfl "a"
    obtain ⟨without, added, hwithout, hadded, hothers, -⟩ := hserver silentServer
    have hkeys : ((Server.reading.serving (some silentServer)).documentCommands "a"
        (after .reading () [.set "a" offeringText 1]).session).1.toOption.map (·.map Command.key) =
          some [("s", Command.registerId), ("s", Command.runLegacyTestsId)] := by decide +kernel
    rw [hadded] at hkeys
    exact ⟨added, hadded, Option.some.inj hkeys, hothers ▸ hwithout⟩
  · obtain ⟨-, hnodup, -⟩ := documentCommands_lists_declared .reading rfl rfl ()
      [.set "a" functionText 1] (s := (after .reading () [.set "a" functionText 1]).session) rfl "a"
    have hcompiles : ((Server.reading.collaborators.compile
        (after .reading () [.set "a" functionText 1]).session).1.toOption.bind
          Compiled.model?).isSome = true := by decide +kernel
    rcases hrun : (Server.reading.collaborators.compile
        (after .reading () [.set "a" functionText 1]).session).1 with f | r
    · rw [hrun] at hcompiles
      cases hcompiles
    · rw [hrun] at hcompiles
      cases r with
      | model m => exact ⟨m, rfl, hnodup m hrun⟩
      | faulty _ | nothing => cases hcompiles

end History

end ModelServer
