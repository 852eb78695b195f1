import ModelServer.Proofs.Completion
import ModelServer.Proofs.Server.History
import ModelServer.Proofs.Server.References

/-!
# What a document proposes

At a position each grammar of a document proposes what its extension does behind the text that stands there
(`Extension.proposed`), and the document proposes all of this in the order in which its grammars come first,
without repetitions (`Server.documentCompletions_apply`). So a grammar counts once, in however many sections
it is used, and of the sections nothing counts but their grammars and the one text they were cut from.

With the extensions that are always there it can be told what that is, kind by kind (`Server.Proposes`). All
three know the keyword `import`, which is where repetitions come from.
-/

namespace ModelServer

variable {H : Type}

/-- All sections of the document were cut from that text. -/
def Workspace.Shows (w : Workspace) (document text : String) : Prop :=
  ∀ sec ∈ w.sectionsOf document, sec.document.text = text

/-- What an extension proposes behind that text of a line, in its own order. -/
def Extension.proposed (x : Extension H) (before : String) : List Completion :=
  x.proposals before ++ Completion.keywords x.keywords (Completion.lastWord before)

namespace Server

/-- What is proposed in a grammar; nothing, if it has no extension. -/
def proposedIn (v : Server H) (before grammar : String) : List Completion :=
  ((v.extensions.find? (·.name == grammar)).map (·.proposed before)).getD []

/-- **The sections of a text propose what their grammars do**, those that were asked before left out, and
each of the others once. -/
theorem completionsIn_eq (v : Server H) {p : Position} {before : String} {sections : List Section}
    (hbefore : ∀ sec ∈ sections, sec.lineUpTo p = before) (asked : List String)
    (found : List Completion) :
    v.completionsIn p asked found sections = Completion.union found
      (((sections.map (·.grammar)).filter (!asked.contains ·)).eraseDups.flatMap
        (v.proposedIn before)) := by
  induction sections generalizing asked found with
  | nil => rfl
  | cons sec rest ih =>
    obtain ⟨hfirst, hrest⟩ := List.forall_mem_cons.1 hbefore
    rw [completionsIn, List.map_cons]
    cases hx : v.extensionFor sec with
    | none =>
      have hnothing : v.proposedIn before sec.grammar = [] := by
        rw [proposedIn, show v.extensions.find? (·.name == sec.grammar) = none from hx]
        rfl
      dsimp only
      rw [ih hrest]
      by_cases hasked : asked.contains sec.grammar = true
      · rw [List.filter_cons_of_neg (by simpa using hasked)]
      · rw [List.filter_cons_of_pos (by simpa using hasked), flatMap_eraseDups_cons hnothing]
    | some x =>
      have hname : x.name = sec.grammar := by
        have hfound := List.find?_some hx
        exact eq_of_beq hfound
      have hproposed : v.proposedIn before sec.grammar = x.completions sec p := by
        rw [proposedIn, show v.extensions.find? (·.name == sec.grammar) = some x from hx, ← hfirst]
        rfl
      dsimp only
      rw [hname]
      by_cases hasked : asked.contains sec.grammar = true
      · rw [if_pos hasked, ih hrest, List.filter_cons_of_neg (by simpa using hasked)]
      · -- The first section of its grammar: from here on the grammar counts as asked.
        rw [if_neg hasked, ih hrest, List.filter_cons_of_pos (by simpa using hasked),
          List.eraseDups_cons, List.flatMap_cons, hproposed, Completion.union_append,
          List.filter_filter]
        congr 4
        funext g
        rw [List.contains_cons, Bool.not_or]

/-- What is proposed at a position is told by the grammars of the document and by the text before it. -/
theorem documentCompletions_apply (v : Server H) {s : Session H} {document text : String}
    (htext : s.workspace.Shows document text) (p : Position) :
    v.documentCompletions document p s = (.ok
      ((((s.workspace.sectionsOf document).map (·.grammar)).eraseDups.flatMap
        (v.proposedIn (Text.lineUpTo text p.line p.column))).eraseDups), s) := by
  have hbefore : ∀ sec ∈ s.workspace.sectionsOf document,
      sec.lineUpTo p = Text.lineUpTo text p.line p.column := by
    intro sec hsec
    rw [Section.lineUpTo, htext sec hsec]
  have heq := v.completionsIn_eq hbefore [] []
  rw [Completion.union_nil] at heq
  simp only [List.contains_nil, Bool.not_false, List.filter_true] at heq
  rw [← heq]
  rfl

/-- The text before the position decides, in the grammars of these sections, just what is proposed. -/
structure Proposes (v : Server H) (sections : List Section) (before : String) (cs : List Completion) :
    Prop where
  nodup : cs.Nodup
  /-- The word looked at is the longest that the text ends in. -/
  lastWord : Completion.IsLastWord before.toList (Completion.lastWord before).toList
  /-- Keywords are those that it begins, of the extensions that handle a section. -/
  keyword : ∀ k, ⟨Completion.keywordDescription, k⟩ ∈ cs ↔
    Completion.lastWord before ≠ "" ∧ (Completion.lastWord before).toList <+: k.toList ∧
      Completion.lastWord before ≠ k ∧
        ∃ sec ∈ sections, ∃ x, v.extensionFor sec = some x ∧ k ∈ x.keywords
  template : Completion.template ∈ cs ↔
    (∃ sec ∈ sections, sec.grammar = "Service") ∧ ∀ c ∈ before.toList, Text.isBlank c = true
  step : ∀ q ∈ Completion.querySteps, Completion.step q ∈ cs ↔
    (∃ sec ∈ sections, sec.grammar = "Service") ∧ ['-', '>'] <:+ before.toList
  /-- And that is all. -/
  kinds : ∀ c ∈ cs, (∃ k, c = ⟨Completion.keywordDescription, k⟩) ∨ c = Completion.template ∨
    ∃ q ∈ Completion.querySteps, c = Completion.step q
  /-- The grammars stand in the order of their first sections. -/
  ordered : cs = ((sections.map (·.grammar)).eraseDups.flatMap (v.proposedIn before)).eraseDups

section Default

variable [Depths] {v : Server H} (hx : v.extensions = defaultExtensions) {sections : List Section}
  {before : String} {c : Completion}

omit [Depths] in
theorem mem_proposedIn {sec : Section} :
    c ∈ v.proposedIn before sec.grammar ↔
      ∃ x, v.extensionFor sec = some x ∧ c ∈ x.proposed before := by
  rw [proposedIn, show v.extensions.find? (·.name == sec.grammar) = v.extensionFor sec from rfl]
  cases v.extensionFor sec <;> simp

include hx

/-- Besides keywords only services propose something. -/
theorem mem_proposed {sec : Section} {x : Extension H} (h : v.extensionFor sec = some x) :
    c ∈ x.proposed before ↔ (sec.grammar = "Service" ∧ c ∈ Completion.services before) ∨
      c ∈ Completion.keywords x.keywords (Completion.lastWord before) := by
  rw [Extension.proposed, List.mem_append]
  refine or_congr ?_ Iff.rfl
  obtain ⟨hg, h'⟩ | ⟨hg, h'⟩ | ⟨hg, h'⟩ | ⟨-, h'⟩ := extensionFor_cases hx sec
  · obtain rfl := Option.some.inj (h'.symm.trans h)
    exact ⟨fun hc ↦ ⟨hg, hc⟩, fun hc ↦ hc.2⟩
  · obtain rfl := Option.some.inj (h'.symm.trans h)
    exact ⟨fun hc ↦ absurd hc List.not_mem_nil, fun hc ↦ absurd (hg.symm.trans hc.1) (by decide)⟩
  · obtain rfl := Option.some.inj (h'.symm.trans h)
    exact ⟨fun hc ↦ absurd hc List.not_mem_nil, fun hc ↦ absurd (hg.symm.trans hc.1) (by decide)⟩
  · cases h'.symm.trans h

/-- **What all grammars propose together**: services what services do, and every extension its
keywords. -/
theorem mem_union_iff :
    c ∈ ((sections.map (·.grammar)).eraseDups.flatMap (v.proposedIn before)).eraseDups ↔
      ((∃ sec ∈ sections, sec.grammar = "Service") ∧ c ∈ Completion.services before) ∨
        ∃ sec ∈ sections, ∃ x, v.extensionFor sec = some x ∧
          c ∈ Completion.keywords x.keywords (Completion.lastWord before) := by
  rw [List.mem_eraseDups, List.mem_flatMap]
  simp only [List.mem_eraseDups, List.mem_map, exists_exists_and_eq_and, mem_proposedIn]
  constructor
  · rintro ⟨sec, hsec, x, hfor, hc⟩
    rcases (mem_proposed hx hfor).1 hc with ⟨hg, hc⟩ | hc
    · exact .inl ⟨⟨sec, hsec, hg⟩, hc⟩
    · exact .inr ⟨sec, hsec, x, hfor, hc⟩
  · rintro (⟨⟨sec, hsec, hg⟩, hc⟩ | ⟨sec, hsec, x, hfor, hc⟩)
    · have hhandled : (v.extensionFor sec).isSome = true := by
        rw [isSome_extensionFor_iff hx, hg]
        decide
      obtain ⟨x, hfor⟩ := Option.isSome_iff_exists.1 hhandled
      exact ⟨sec, hsec, x, hfor, (mem_proposed hx hfor).2 (.inl ⟨hg, hc⟩)⟩
    · exact ⟨sec, hsec, x, hfor, (mem_proposed hx hfor).2 (.inr hc)⟩

/-- **The proposals of all grammars, in order and without repetitions, are as they should be.** -/
theorem proposes_union : v.Proposes sections before
    ((sections.map (·.grammar)).eraseDups.flatMap (v.proposedIn before)).eraseDups where
  nodup := by
    rw [← Completion.union_nil]
    exact Completion.nodup_union List.nodup_nil _
  lastWord := Completion.isLastWord_lastWord before
  keyword k := by
    simp only [mem_union_iff hx, Completion.mem_keywords]
    constructor
    · rintro (⟨-, hc⟩ | ⟨sec, hsec, x, hfor, k', hk, heq, hword, hbegins, hne⟩)
      · rcases Completion.mem_services.1 hc with ⟨heq, -⟩ | ⟨q, -, heq, -⟩
        · exact absurd heq (Completion.keyword_ne_template k)
        · exact absurd heq (Completion.keyword_ne_step k q)
      · obtain rfl : k = k' := congrArg Completion.suggestion heq
        exact ⟨hword, hbegins, hne, sec, hsec, x, hfor, hk⟩
    · rintro ⟨hword, hbegins, hne, sec, hsec, x, hfor, hk⟩
      exact .inr ⟨sec, hsec, x, hfor, k, hk, rfl, hword, hbegins, hne⟩
  template := by
    simp only [mem_union_iff hx, Completion.mem_keywords, Completion.mem_services]
    constructor
    · rintro (⟨hservice, ⟨-, hblank⟩ | ⟨q, -, heq, -⟩⟩ | ⟨-, -, -, -, k, -, heq, -⟩)
      · exact ⟨hservice, hblank⟩
      · exact absurd heq (Completion.template_ne_step q)
      · exact absurd heq.symm (Completion.keyword_ne_template k)
    · exact fun h ↦ .inl ⟨h.1, .inl ⟨trivial, h.2⟩⟩
  step q hq := by
    simp only [mem_union_iff hx, Completion.mem_keywords, Completion.mem_services]
    constructor
    · rintro (⟨hservice, ⟨heq, -⟩ | ⟨-, -, -, harrow⟩⟩ | ⟨-, -, -, -, k, -, heq, -⟩)
      · exact absurd heq.symm (Completion.template_ne_step q)
      · exact ⟨hservice, harrow⟩
      · exact absurd heq.symm (Completion.keyword_ne_step k q)
    · exact fun h ↦ .inl ⟨h.1, .inr ⟨q, hq, rfl, h.2⟩⟩
  kinds c hc := by
    rcases (mem_union_iff hx).1 hc with ⟨-, hs⟩ | ⟨_, -, x, -, hk⟩
    · rcases Completion.mem_services.1 hs with ⟨rfl, -⟩ | ⟨q, hq, rfl, -⟩
      · exact .inr (.inl rfl)
      · exact .inr (.inr ⟨q, hq, rfl⟩)
    · obtain ⟨k, -, rfl, -⟩ := Completion.mem_keywords.1 hk
      exact .inl ⟨k, rfl⟩
  ordered := rfl

end Default

end Server

namespace History

open Texts

/-- The grammars of a document, as its open text has them. -/
theorem Follows.map_grammar [Depths] {texts : Texts} {h : History H} (hf : Follows texts h)
    (document : String) :
    (h.session.workspace.sectionsOf document).map (·.grammar) =
      (texts.sectionsOf document).map (·.grammar) := by
  rw [← hf.sectionsOf document, List.map_map]
  rfl

/-- The sections of a document show its open text. -/
theorem Follows.shows [Depths] {texts : Texts} {h : History H} (hf : Follows texts h)
    (document : String) :
    h.session.workspace.Shows document ((texts.text? document).getD "") := by
  intro sec hsec
  have hmem : sec.unrevised ∈ texts.sectionsOf document := by
    rw [← hf.sectionsOf document]
    exact List.mem_map_of_mem hsec
  rw [sectionsOf_eq] at hmem
  cases ht : texts.lookup document with
  | none =>
    rw [ht] at hmem
    exact absurd hmem List.not_mem_nil
  | some t =>
    rw [ht, Option.map_some, Option.getD_some, cut] at hmem
    rw [text?, ht]
    cases hparts : splitSections t.1 with
    | error f =>
      rw [hparts] at hmem
      exact absurd hmem List.not_mem_nil
    | ok parts =>
      rw [hparts] at hmem
      exact congrArg Document.text (Document.document_of_mem hmem)

/-- **Completions are what the grammars of a document offer, in order and without repetitions.** Wherever the
sections of a document show one text, completion answers and changes nothing. That text before the position
and the grammars of the sections decide just what is proposed, and the number of sections that share a grammar
does not count: where another document shows the same text, and its grammars are the same when each is listed
once, the same is proposed. Whatever has been done with documents, each shows the text it is open with. -/
theorem documentCompletions_exact [Depths] (v : Server H)
    (hx : v.extensions = Server.defaultExtensions) (document : String) (p : Position) :
    (∀ (s : Session H) (text : String), s.workspace.Shows document text →
      ∃ cs, v.documentCompletions document p s = (.ok cs, s) ∧
        v.Proposes (s.workspace.sectionsOf document) (Text.lineUpTo text p.line p.column) cs ∧
        ∀ (s' : Session H) (document' : String), s'.workspace.Shows document' text →
          ((s'.workspace.sectionsOf document').map (·.grammar)).eraseDups =
            ((s.workspace.sectionsOf document).map (·.grammar)).eraseDups →
          v.documentCompletions document' p s' = (.ok cs, s')) ∧
      (v.collaborators.provider = DocumentProvider.provider → ∀ (host : H) (operations : List Operation),
        (after v host operations).session.workspace.Shows document
          (((openAfter operations).text? document).getD "")) := by
  refine ⟨fun s text htext ↦ ⟨_, v.documentCompletions_apply htext p, Server.proposes_union hx, ?_⟩,
    fun hp host operations ↦ (follows_after hp host operations).shows document⟩
  intro s' document' htext' heq
  rw [← heq]
  exact v.documentCompletions_apply htext' p

/-- Two functions and a service, and the beginning of a keyword on the second line. -/
def importingText : String :=
  "\x7b\"sections\":[\x7b\"grammar\":\"Function\"\x7d,\x7b\"grammar\":\"Service\"\x7d," ++
    "\x7b\"grammar\":\"Function\"\x7d],\n\"x\":\"imp\"\x7d"

open Depths in
/-- The keyword is one of functions and one of services, and there are two sections of functions: it is
proposed once. At the beginning of the line, which is blank so far, there is the template of services. -/
theorem import_proposed_once :
    let s := (after Server.reading () [.set "a" importingText 1]).session
    (s.workspace.sectionsOf "a").map (·.grammar) = ["Function", "Service", "Function"] ∧
      Server.reading.documentCompletions "a" ⟨1, 8⟩ s =
        (.ok [⟨Completion.keywordDescription, "import"⟩], s) ∧
      Server.reading.documentCompletions "a" ⟨1, 0⟩ s = (.ok [Completion.template], s) := by
  intro s
  have hf : Follows (openAfter [.set "a" importingText 1]) (after Server.reading () _) :=
    follows_after rfl () _
  have hgrammars : (s.workspace.sectionsOf "a").map (·.grammar) = ["Function", "Service", "Function"] := by
    rw [hf.map_grammar]
    decide +kernel
  have hword : Text.lineUpTo (((openAfter [.set "a" importingText 1]).text? "a").getD "") 1 8 =
      "\"x\":\"imp" := by decide +kernel
  have hblank : Text.lineUpTo (((openAfter [.set "a" importingText 1]).text? "a").getD "") 1 0 = "" := by
    decide +kernel
  refine ⟨hgrammars, ?_, ?_⟩
  · obtain ⟨hproposes, hshows⟩ := documentCompletions_exact Server.reading rfl "a" ⟨1, 8⟩
    obtain ⟨cs, hrun, hcs, -⟩ := hproposes s _ (hshows rfl () _)
    have honce : ((["Function", "Service", "Function"].eraseDups.flatMap
        (Server.reading.proposedIn "\"x\":\"imp")).eraseDups) =
          [⟨Completion.keywordDescription, "import"⟩] := by decide +kernel
    rw [hrun, hcs.ordered, hgrammars, hword, honce]
  · obtain ⟨hproposes, hshows⟩ := documentCompletions_exact Server.reading rfl "a" ⟨1, 0⟩
    obtain ⟨cs, hrun, hcs, -⟩ := hproposes s _ (hshows rfl () _)
    have htemplate : ((["Function", "Service", "Function"].eraseDups.flatMap
        (Server.reading.proposedIn "")).eraseDups) = [Completion.template] := by decide +kernel
    rw [hrun, hcs.ordered, hgrammars, hblank, htemplate]

end History

end ModelServer
