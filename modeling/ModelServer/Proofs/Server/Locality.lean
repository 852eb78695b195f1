import Mathlib
import ModelServer.Proofs.Grammar.Offers
import ModelServer.Proofs.Server.History

/-!
# What an editor is shown of a document

The sections of a document, what each parses to, the commands and the completions: none of them depends
on what else is open, nor on what was done before (`History.shown_alike`). By `answer_after` each answer
is told by the sections of the open text alone, so that two histories in which a document has the same
text give the same; only the version, which the client sends with the text, is a part of the sections
themselves (`History.sections_tell_version`).

Within a document a section parses by what is written in it (`Section.parse_congr`), so to write something
else in another section changes neither what it parses to nor what is offered for it.
-/

namespace ModelServer

variable {H : Type}

/-! ### Servers that handle the same -/

/-- To an editor the two servers look alike: they have the same extensions, both or none has an execution
server, and both read documents as JSON. Of an extension that is not one of those that are always there
nothing is known, and it is asked to offer the same in both. -/
structure Server.Alike [Depths] (v v' : Server H) : Prop where
  extensions : v.extensions = v'.extensions
  known : ∀ x ∈ v.extensions,
    x ∈ Server.defaultExtensions ∨ x.offers v.surroundings = x.offers v'.surroundings
  executionServer :
    v.collaborators.executionServer.isSome = v'.collaborators.executionServer.isSome
  provider : v.collaborators.provider = DocumentProvider.provider
  provider' : v'.collaborators.provider = DocumentProvider.provider

/-- What a section parses to is told by its body and by the document whose places are named in it. -/
theorem Section.parse_congr {s s' : Section} (hid : s.document.id = s'.document.id)
    (hbody : s.body = s'.body) : s.parse = s'.parse := by
  rw [parse, parse, hid, hbody]

namespace Server.Alike

variable [Depths] {v v' : Server H} (h : v.Alike v')

include h

theorem extensionFor_eq {s s' : Section} (hgrammar : s.grammar = s'.grammar) :
    v.extensionFor s = v'.extensionFor s' := by
  rw [extensionFor, extensionFor, h.extensions, hgrammar]

/-- Sections that parse to the same in the same grammar offer the same. -/
theorem commandsOf_eq {s s' : Section} (hgrammar : s.grammar = s'.grammar)
    (hparse : s.parse = s'.parse) : v.commandsOf s = v'.commandsOf s' := by
  rw [commandsOf, commandsOf, ← h.extensionFor_eq hgrammar, ← hparse]
  cases hx : v.extensionFor s with
  | none => rfl
  | some x =>
    have hoffers : x.offers v.surroundings = x.offers v'.surroundings := by
      rcases h.known x (List.mem_of_find?_eq_some hx) with hknown | hoffers
      · exact funext fun e ↦ Extension.offers_congr hknown h.executionServer e
      · exact hoffers
    show x.commandsOf v.surroundings s.parse.toList = x.commandsOf v'.surroundings s.parse.toList
    rw [Extension.commandsOf, Extension.commandsOf, hoffers]

theorem completionsIn_eq (p : Position) (asked : List String) (found : List Completion)
    (ss : List Section) : v.completionsIn p asked found ss = v'.completionsIn p asked found ss := by
  induction ss generalizing asked found with
  | nil => rfl
  | cons s rest ih => simp only [completionsIn, h.extensionFor_eq (s := s) rfl, ih]

end Server.Alike

/-! ### Sections of one text -/

namespace Texts

variable {texts texts' : Texts} {id : String}

/-- The sections of a text that lists them are the items of its list. -/
theorem getElem?_sectionsOf [Depths] {t : String × Int} (ht : texts.lookup id = some t) {v : Json}
    (hread : Json.read t.1 = .ok v) {items : List Json}
    (hlisted : v.member? "sections" = some (.list items)) (n : Nat) :
    (texts.sectionsOf id)[n]? =
      items[n]?.map fun item ↦ ⟨⟨id, t.1, t.2, 0⟩, n, grammarOf item, .value item⟩ := by
  have hparts : splitSections t.1 = .ok (items.map fun item ↦ (grammarOf item, .value item)) := by
    rw [splitSections, hread]
    dsimp only
    rw [ModelServer.sectionsOf, hlisted]
  rw [sectionsOf_eq, ht, Option.map_some, Option.getD_some, cut, hparts]
  dsimp only
  rw [Document.getElem?_sections, List.getElem?_map, Option.map_map]
  rfl

theorem find?_sectionsOf [Depths] (texts : Texts) (id : String) (n : Nat) :
    (texts.sectionsOf id).find? (fun s ↦ (s.index : Int) = n) = (texts.sectionsOf id)[n]? := by
  rw [sectionsOf_eq]
  cases texts.lookup id with
  | none => rfl
  | some t =>
    rw [Option.map_some, Option.getD_some, cut]
    cases splitSections t.1 with
    | ok parts => exact Document.find?_sections n
    | error f => rfl

/-- Both texts list sections, and but for the `n`-th they list the same. -/
def RewrittenAt [Depths] (n : Nat) (text text' : String) : Prop :=
  ∃ v v' items item, Json.read text = .ok v ∧ v.member? "sections" = some (.list items) ∧
    Json.read text' = .ok v' ∧ v'.member? "sections" = some (.list (items.set n item))

/-- Where another section was rewritten, a section stands in the same grammar and parses to the same. -/
theorem alike_of_rewrittenAt [Depths] {m : Nat} {text text' : String} (h : RewrittenAt m text text')
    (ht : texts.text? id = some text) (ht' : texts'.text? id = some text') {n : Nat} (hn : n ≠ m) :
    (texts.sectionsOf id)[n]?.map (fun s ↦ (s.grammar, s.parse)) =
      (texts'.sectionsOf id)[n]?.map fun s ↦ (s.grammar, s.parse) := by
  obtain ⟨v, v', items, item, hread, hlisted, hread', hlisted'⟩ := h
  obtain ⟨t, hlookup, rfl⟩ := Option.map_eq_some_iff.1 ht
  obtain ⟨t', hlookup', rfl⟩ := Option.map_eq_some_iff.1 ht'
  rw [getElem?_sectionsOf hlookup hread hlisted, getElem?_sectionsOf hlookup' hread' hlisted',
    List.getElem?_set_ne hn.symm, Option.map_map, Option.map_map]
  refine congrArg (Option.map · _) (funext fun w ↦ ?_)
  exact congrArg (Prod.mk (grammarOf w)) (Section.parse_congr rfl rfl)

end Texts

namespace History

open Texts

/-- In both histories an editor is shown the same of the document. -/
structure ShownAlike (v v' : Server H) (h h' : History H) (id : String) : Prop where
  /-- The sections are the same, but for the version that was sent with the text. -/
  sections : (h.session.workspace.sectionsOf id).map Section.plain =
    (h'.session.workspace.sectionsOf id).map Section.plain
  parse : ∀ n, answer v h (.parse id n) = answer v' h' (.parse id n)
  commands : answer v h (.commands id) = answer v' h' (.commands id)
  completions : ∀ p, answer v h (.completions id p) = answer v' h' (.completions id p)

/-- The commands that are offered for the `n`-th section of a document. -/
def commandsAt (v : Server H) (h : History H) (id : String) (n : Nat) :
    Except Fault (List Command) :=
  (v.commandsIn (h.session.workspace.sectionsOf id)[n]?.toList h.session).1

section After

variable [Depths] {v v' : Server H} (halike : v.Alike v') (host host' : H)
  (operations operations' : List Operation) {id : String}

include halike

/-- **Open texts that have the same sections are shown alike.** -/
theorem shownAlike_of_sectionsOf
    (h : ((openAfter operations).sectionsOf id).map Section.plain =
      ((openAfter operations').sectionsOf id).map Section.plain) :
    ShownAlike v v' (after v host operations) (after v' host' operations') id := by
  have hplain (texts : Texts) (n : Int) :
      (((texts.sectionsOf id).map Section.plain).find? fun s ↦ (s.index : Int) = n).map
          Section.parse =
        ((texts.sectionsOf id).find? fun s ↦ (s.index : Int) = n).map Section.parse := by
    rw [List.find?_map, Option.map_map]
    rfl
  have hcommands (texts : Texts) (v : Server H) :
      ((texts.sectionsOf id).map Section.plain).flatMap v.commandsOf =
        (texts.sectionsOf id).flatMap v.commandsOf := by
    rw [List.flatMap_map, funext (v.commandsOf_map Section.redates_plain)]
  refine ⟨?_, fun n ↦ ?_, ?_, fun p ↦ ?_⟩
  · have hf := (follows_after halike.provider host operations).sectionsOf id
    have hf' := (follows_after halike.provider' host' operations').sectionsOf id
    rw [← hf, ← hf', List.map_map, List.map_map] at h
    exact h
  · rw [answer_after halike.provider, answer_after halike.provider', Query.meaning, Query.meaning,
      ← hplain, ← hplain, h]
  · have hsame : v.commandsOf = v'.commandsOf := funext fun s ↦ halike.commandsOf_eq rfl rfl
    rw [answer_after halike.provider, answer_after halike.provider', Query.meaning, Query.meaning,
      ← hcommands, ← hcommands, h, hsame]
  · rw [answer_after halike.provider, answer_after halike.provider', Query.meaning, Query.meaning,
      ← v.completionsIn_map Section.redates_plain, ← v'.completionsIn_map Section.redates_plain, h,
      halike.completionsIn_eq]

omit halike in
theorem commandsAt_after (hp : v.collaborators.provider = DocumentProvider.provider) (n : Nat) :
    commandsAt v (after v host operations) id n =
      .ok (((openAfter operations).sectionsOf id)[n]?.toList.flatMap v.commandsOf) := by
  have hf := follows_after hp host operations
  have hheld : ∀ s ∈ ((after v host operations).session.workspace.sectionsOf id)[n]?.toList,
      (after v host operations).session.workspace.Held s := by
    intro s hs
    have hmem := List.mem_of_getElem? (Option.mem_toList.1 hs)
    exact (hf.sound.held hmem).2
  obtain ⟨w', -, hrun⟩ := Workspace.Answers.commandsIn hp hheld _ hf.sound.learns
  rw [commandsAt, hrun, ← hf.sectionsOf, List.getElem?_map]
  cases ((after v host operations).session.workspace.sectionsOf id)[n]? with
  | none => rfl
  | some s =>
    simp only [Option.toList_some, Option.map_some, List.flatMap_singleton]
    rw [v.commandsOf_map Section.redates_unrevised]

/-- **To write another section anew changes nothing of a section.** -/
theorem unchanged_of_rewrittenAt {m : Nat} {text text' : String} (h : RewrittenAt m text text')
    (ht : (openAfter operations).text? id = some text)
    (ht' : (openAfter operations').text? id = some text') {n : Nat} (hn : n ≠ m) :
    answer v (after v host operations) (.parse id n) =
        answer v' (after v' host' operations') (.parse id n) ∧
      commandsAt v (after v host operations) id n =
        commandsAt v' (after v' host' operations') id n := by
  have hsame := alike_of_rewrittenAt h ht ht' hn
  rw [answer_after halike.provider, answer_after halike.provider', Query.meaning, Query.meaning,
    find?_sectionsOf, find?_sectionsOf, commandsAt_after host operations halike.provider,
    commandsAt_after host' operations' halike.provider']
  cases hs : ((openAfter operations).sectionsOf id)[n]? with
  | none =>
    cases hs' : ((openAfter operations').sectionsOf id)[n]? with
    | none => exact ⟨rfl, rfl⟩
    | some s' =>
      rw [hs, hs'] at hsame
      cases hsame
  | some s =>
    cases hs' : ((openAfter operations').sectionsOf id)[n]? with
    | none =>
      rw [hs, hs'] at hsame
      cases hsame
    | some s' =>
      rw [hs, hs'] at hsame
      obtain ⟨hgrammar, hparse⟩ := Prod.mk.inj (Option.some.inj hsame)
      simp only [Option.map_some, Option.toList_some, List.flatMap_singleton]
      rw [hparse, halike.commandsOf_eq hgrammar hparse]
      exact ⟨rfl, rfl⟩

end After

/-- **Documents do not disturb each other.** Two servers handle the same grammars, and whatever is done
to each, a document is open in both with the same text. Then its sections are the same, but for the
version that was sent with the text and altogether if that is the same too; each parses to the same; and
the document offers the same commands, and the same completions at every position. If in one of the two
another section of the text was rewritten, be it to what it may, a section still parses to the same and is
offered the same commands. -/
theorem editing_undisturbed [Depths] {v v' : Server H} (halike : v.Alike v') (host host' : H)
    (operations operations' : List Operation) (id : String) :
    ((openAfter operations).text? id = (openAfter operations').text? id →
      ShownAlike v v' (after v host operations) (after v' host' operations') id) ∧
    ((openAfter operations).lookup id = (openAfter operations').lookup id →
      ((after v host operations).session.workspace.sectionsOf id).map Section.unrevised =
        ((after v' host' operations').session.workspace.sectionsOf id).map Section.unrevised) ∧
    ∀ m text text', RewrittenAt m text text' → (openAfter operations).text? id = some text →
      (openAfter operations').text? id = some text' → ∀ n ≠ m,
        answer v (after v host operations) (.parse id n) =
            answer v' (after v' host' operations') (.parse id n) ∧
          commandsAt v (after v host operations) id n =
            commandsAt v' (after v' host' operations') id n := by
  refine ⟨fun htext ↦ ?_, fun hlookup ↦ ?_, fun m text text' h ht ht' n hn ↦ ?_⟩
  · exact shownAlike_of_sectionsOf halike host host' operations operations'
      (map_plain_sectionsOf htext)
  · have hf := follows_after halike.provider host operations
    have hf' := follows_after halike.provider' host' operations'
    rw [hf.sectionsOf, hf'.sectionsOf, sectionsOf_eq, sectionsOf_eq, hlookup]
  · exact unchanged_of_rewrittenAt halike host host' operations operations' h ht ht' hn

/-- The first section of the text below. -/
def functionSection : Json :=
  .record [("grammar", .text "Function"), ("elements", .list [.record
    [("kind", .text "function"), ("path", .text "f"), ("func", .record [])]])]

/-- A text with that section, and a number in the place of another. -/
def functionThenNumber : String :=
  "\x7b\"sections\":[\x7b\"grammar\":\"Function\",\"elements\":[" ++
    "\x7b\"kind\":\"function\",\"path\":\"f\",\"func\":\x7b\x7d\x7d]\x7d,1]\x7d"

/-- The same with a list in the place of the number. -/
def functionThenList : String :=
  "\x7b\"sections\":[\x7b\"grammar\":\"Function\",\"elements\":[" ++
    "\x7b\"kind\":\"function\",\"path\":\"f\",\"func\":\x7b\x7d\x7d]\x7d,[]]\x7d"

open Depths in
/-- The text is set behind another document and compiled, or it is set alone, or with another second
section: the function is offered for execution all the same. -/
theorem function_undisturbed :
    let beside := after .reading () [.set "b" "[]" 1, .set "a" functionThenNumber 1, .ask .compile]
    let alone := after .reading () [.set "a" functionThenNumber 2]
    let rewritten := after .reading () [.set "a" functionThenList 1]
    ShownAlike .reading .reading beside alone "a" ∧
      answer .reading beside (.parse "a" (0 : Nat)) =
        answer .reading rewritten (.parse "a" (0 : Nat)) ∧
      commandsAt .reading beside "a" 0 = commandsAt .reading rewritten "a" 0 ∧
      (commandsAt .reading beside "a" 0).toOption.map (·.map (·.id)) = some [Command.executeId] := by
  intro beside alone rewritten
  have halike : Server.reading.Alike Server.reading :=
    ⟨rfl, fun _ h ↦ .inl h, rfl, rfl, rfl⟩
  have hopen : (openAfter [.set "b" "[]" 1, .set "a" functionThenNumber 1, .ask .compile]).text? "a" =
      some functionThenNumber := by decide +kernel
  have halone : (openAfter [.set "a" functionThenNumber 2]).text? "a" = some functionThenNumber := by
    decide +kernel
  have hwritten : (openAfter [.set "a" functionThenList 1]).text? "a" = some functionThenList := by
    decide +kernel
  have hrewritten : RewrittenAt 1 functionThenNumber functionThenList := by
    refine ⟨.record [("sections", .list [functionSection, .int 1])],
      .record [("sections", .list [functionSection, .list []])], _, .list [], ?_, rfl, ?_, rfl⟩
    · cbv
    · cbv
  obtain ⟨hshown, -⟩ := editing_undisturbed halike () () _ [.set "a" functionThenNumber 2] "a"
  obtain ⟨-, -, hunchanged⟩ :=
    editing_undisturbed halike () () _ [.set "a" functionThenList 1] "a"
  obtain ⟨hparse, hcommands⟩ := hunchanged 1 _ _ hrewritten hopen hwritten 0 (by decide)
  refine ⟨hshown (hopen.trans halone.symm), hparse, hcommands, ?_⟩
  rw [commandsAt_after () _ rfl]
  decide +kernel

open Depths in
/-- A client sends a text again, with another version: then the sections are no longer equal. -/
theorem sections_tell_version :
    (openAfter [.set "a" "[]" 1]).text? "a" = (openAfter [.set "a" "[]" 2]).text? "a" ∧
      ((after .reading () [.set "a" "[]" 1]).session.workspace.sectionsOf "a").map
          Section.unrevised ≠
        ((after .reading () [.set "a" "[]" 2]).session.workspace.sectionsOf "a").map
          Section.unrevised := by
  refine ⟨by decide +kernel, fun h ↦ ?_⟩
  have hversions := congrArg (List.map (·.document.version)) h
  rw [(follows_after rfl () _).sectionsOf, (follows_after rfl () _).sectionsOf] at hversions
  revert hversions
  decide +kernel

end History

end ModelServer
