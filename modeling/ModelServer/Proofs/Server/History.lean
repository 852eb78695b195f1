import ModelServer.Server.Start
import ModelServer.Proofs.Server.Queries

/-!
# A workspace has no history

An `Operation` is anything that can be done to a workspace from outside: documents are set and removed,
sections that were handed out at any time are parsed, and questions are asked. `History.after` does one
operation after the other and keeps every section that is handed out on the way, so that a section whose
document is long gone can still be parsed.

What is open in the end is `openAfter`, a function of the operations alone. `Follows` is the invariant
that ties a history to it; each operation keeps it (`Follows.run`), and so does a run
(`follows_after`). By it what is answered after a run is the meaning of the question for the open texts
(`answer_after`), whence the order of texts does not count, nor does anything that was parsed, compiled,
replaced or removed before (`answers_independent_of_history`).
-/

namespace ModelServer

/-- Texts with their versions, by the ids of their documents. -/
abbrev Texts := List (String × String × Int)

/-- Something that is done to a workspace. -/
inductive Operation where
  | set (id text : String) (version : Int)
  | remove (id : String)
  /-- The `n`-th of the sections that were handed out so far is parsed. -/
  | parse (n : Nat)
  | ask (q : Query)

/-- A session, and all sections that were handed out in it. -/
structure History (H : Type) where
  session : Session H
  handed : List Section

namespace Operation

variable {H : Type}

/-- Does it. An operation that ends in a fault hands nothing out. -/
def run (v : Server H) (h : History H) : Operation → History H
  | set id text version =>
    match v.collaborators.setDocument id text version h.session with
    | (.ok ss, s) => ⟨s, h.handed ++ ss⟩
    | (.error _, s) => ⟨s, h.handed⟩
  | remove id => ⟨(Collaborators.removeDocument id h.session).2, h.handed⟩
  | parse n =>
    match h.handed[n]? with
    | some s => ⟨(v.collaborators.parse s h.session).2, h.handed⟩
    | none => h
  | ask q =>
    match q.ask v h.session with
    | (.ok a, s) => ⟨s, h.handed ++ a.handed⟩
    | (.error _, s) => ⟨s, h.handed⟩

/-- The open texts after the operation. A text that cannot be set leaves them as they are. -/
def opened [Depths] (texts : Texts) : Operation → Texts
  | set id text version =>
    match splitSections text with
    | .ok _ => Dictionary.put id (text, version) texts
    | .error _ => texts
  | remove id => Dictionary.erase id texts
  | parse _ | ask _ => texts

end Operation

namespace Texts

/-- Every text can be set. -/
def Readable [Depths] (texts : Texts) : Prop :=
  ∀ e ∈ texts, ∃ parts, splitSections e.2.1 = .ok parts

/-- The texts that are open after those operations. -/
def openAfter [Depths] (operations : List Operation) : Texts :=
  operations.foldl Operation.opened []

/-- The operations that set those texts. -/
def setAll (texts : Texts) : List Operation :=
  texts.map fun e ↦ .set e.1 e.2.1 e.2.2

/-- The sections of a text, as of a document that was set before any other. -/
def cut [Depths] (id : String) (t : String × Int) : List Section :=
  match splitSections t.1 with
  | .ok parts => (Document.mk id t.1 t.2 0).sections parts
  | .error _ => []

/-- The sections of each of the texts. -/
def sections [Depths] (texts : Texts) : List (String × List Section) :=
  Dictionary.mapValues cut texts

/-- The sections of one of the texts; none if it is not among them. -/
def sectionsOf [Depths] (texts : Texts) (id : String) : List Section :=
  (texts.sections.lookup id).getD []

/-- The sections of all texts, the documents in the order of their ids. -/
def allSections [Depths] (texts : Texts) : List Section :=
  (Dictionary.sort texts.sections).flatMap (·.2)

/-! ### Which texts are open -/

theorem nodup_opened [Depths] {texts : Texts} (hn : (texts.map Prod.fst).Nodup) (o : Operation) :
    ((o.opened texts).map Prod.fst).Nodup := by
  cases o with
  | set id text version =>
    rw [Operation.opened]
    cases splitSections text with
    | ok _ => exact Dictionary.nodup_put _ _ hn
    | error _ => exact hn
  | remove id => exact Dictionary.nodup_erase _ hn
  | parse | ask => exact hn

theorem readable_opened [Depths] {texts : Texts} (hr : texts.Readable) (o : Operation) :
    (o.opened texts).Readable := by
  cases o with
  | set id text version =>
    rw [Operation.opened]
    cases h : splitSections text with
    | error _ => exact hr
    | ok parts =>
      intro e he
      rcases Dictionary.mem_put he with hput | he
      · exact ⟨parts, by rw [hput, h]⟩
      · exact hr e he
  | remove id => exact fun e he ↦ hr e ((Dictionary.erase_sublist id texts).subset he)
  | parse | ask => exact hr

theorem nodup_openAfter [Depths] (operations : List Operation) :
    ((openAfter operations).map Prod.fst).Nodup :=
  List.foldlRecOn (motive := fun texts ↦ (texts.map Prod.fst).Nodup) operations Operation.opened
    List.nodup_nil fun _ hn o _ ↦ nodup_opened hn o

theorem readable_openAfter [Depths] (operations : List Operation) : (openAfter operations).Readable :=
  List.foldlRecOn operations Operation.opened (fun _ he ↦ absurd he List.not_mem_nil)
    fun _ hr o _ ↦ readable_opened hr o

/-- Setting texts of different documents opens just these. -/
theorem openAfter_setAll [Depths] {texts : Texts} (hn : (texts.map Prod.fst).Nodup)
    (hr : texts.Readable) :
    openAfter texts.setAll = texts := by
  suffices h : ∀ before : Texts, ((before ++ texts).map Prod.fst).Nodup →
      texts.setAll.foldl Operation.opened before = before ++ texts by
    exact h [] hn
  -- Of the texts that are open before the rest is set none is of a document that is still to come.
  induction texts with
  | nil => exact fun before _ ↦ (List.append_nil before).symm
  | cons e rest ih =>
    intro before hall
    obtain ⟨parts, hparts⟩ := hr e List.mem_cons_self
    have hnew : e.1 ∉ before.map Prod.fst := by
      intro hmem
      rw [List.map_append, List.nodup_append] at hall
      exact hall.2.2 e.1 hmem e.1 (List.mem_map_of_mem List.mem_cons_self) rfl
    have hstep : Operation.opened before (.set e.1 e.2.1 e.2.2) = before ++ [e] := by
      rw [Operation.opened, hparts]
      exact Dictionary.put_of_not_mem _ hnew
    rw [List.append_cons] at hall ⊢
    rw [setAll, List.map_cons, List.foldl_cons, hstep]
    exact ih (List.nodup_cons.1 hn).2 (fun e he ↦ hr e (List.mem_cons_of_mem _ he)) _ hall

/-! ### Texts without their versions -/

section Versions

variable {texts texts' : Texts} {id : String}

/-- The text of a document, without its version; none if it is not open. -/
def text? (texts : Texts) (id : String) : Option String :=
  (texts.lookup id).map Prod.fst

theorem sectionsOf_eq [Depths] (texts : Texts) (id : String) :
    texts.sectionsOf id = ((texts.lookup id).map (cut id)).getD [] := by
  rw [sectionsOf, sections, Dictionary.lookup_mapValues]

theorem map_plain_cut [Depths] (id : String) (t : String × Int) :
    (cut id t).map Section.plain = cut id (t.1, 0) := by
  rw [cut, cut]
  cases splitSections t.1 with
  | ok parts => exact List.map_map
  | error f => rfl

/-- **But for its version, a text decides what its sections are.** -/
theorem map_plain_sectionsOf [Depths] (h : texts.text? id = texts'.text? id) :
    (texts.sectionsOf id).map Section.plain = (texts'.sectionsOf id).map Section.plain := by
  have htext (texts : Texts) : (texts.sectionsOf id).map Section.plain =
      ((texts.text? id).map fun t ↦ cut id (t, 0)).getD [] := by
    rw [sectionsOf_eq, text?, Option.map_map]
    cases texts.lookup id with
    | none => rfl
    | some t => exact map_plain_cut id t
  rw [htext, htext, h]

/-- But for versions, the texts decide what the sections of all are, and in which order. -/
theorem map_plain_allSections [Depths] (hn : (texts.map Prod.fst).Nodup)
    (hn' : (texts'.map Prod.fst).Nodup) (h : ∀ id, texts.text? id = texts'.text? id) :
    texts.allSections.map Section.plain = texts'.allSections.map Section.plain := by
  let plain : String → String × Int → List Section := fun id t ↦ cut id (t.1, 0)
  have hall (texts : Texts) : texts.allSections.map Section.plain =
      (Dictionary.sort (Dictionary.mapValues plain texts)).flatMap (·.2) := by
    rw [allSections, sections, ← Dictionary.mapValues_sort, ← Dictionary.mapValues_sort,
      Dictionary.mapValues, Dictionary.mapValues, List.flatMap_map, List.flatMap_map,
      List.map_flatMap]
    simp only [map_plain_cut, plain]
  have hkeys {texts : Texts} (hn : (texts.map Prod.fst).Nodup) :
      ((Dictionary.mapValues plain texts).map Prod.fst).Nodup := by
    rwa [Dictionary.map_fst_mapValues]
  have hlookup (texts : Texts) (id : String) : (Dictionary.mapValues plain texts).lookup id =
      (texts.text? id).map fun t ↦ cut id (t, 0) := by
    rw [Dictionary.lookup_mapValues, text?, Option.map_map]
    rfl
  have hperm : (Dictionary.mapValues plain texts).Perm (Dictionary.mapValues plain texts') := by
    refine (Dictionary.perm_iff_lookup (hkeys hn) (hkeys hn')).2 fun id ↦ ?_
    rw [hlookup, hlookup, h]
  rw [hall, hall, Dictionary.sort_of_perm (hkeys hn) hperm]

end Versions

end Texts

/-- A server that can read documents and nothing else. -/
def Server.reading [Depths] : Server Unit :=
  ⟨⟨DocumentProvider.provider, none, none, none, none, .empty⟩, defaultExtensions⟩

namespace History

open Texts

variable {H : Type} {v : Server H} {h : History H} {texts : Texts}

/-- Nothing has happened yet. -/
def start (host : H) : History H :=
  ⟨.new host, []⟩

/-- What has come of those operations. -/
def after (v : Server H) (host : H) (operations : List Operation) : History H :=
  operations.foldl (Operation.run v) (start host)

/-- Of a history in which those texts are open: the workspace has their sections, what it remembers of
them is right, and all sections that were handed out are held. -/
structure Follows [Depths] (texts : Texts) (h : History H) : Prop where
  sound : h.session.workspace.Sound
  sections : Dictionary.mapValues (fun _ ss ↦ ss.map Section.unrevised) h.session.workspace.sections =
    texts.sections
  held : ∀ s ∈ h.handed, h.session.workspace.Held s

/-- What is learnt changes nothing that a history follows. -/
theorem Follows.learns [Depths] (hf : Follows texts h) {w' : Workspace}
    (hw' : h.session.workspace.Learns w') {more : List Section}
    (hmore : ∀ s ∈ more, h.session.workspace.Held s) :
    Follows texts ⟨{ h.session with workspace := w' }, h.handed ++ more⟩ := by
  refine ⟨hw'.sound, hw'.sections ▸ hf.sections, fun s hs ↦ hw'.held ?_⟩
  exact (List.mem_append.1 hs).elim (hf.held s) (hmore s)

/-- The sections of a document that was just set are those of its text, but for the revision. -/
theorem map_unrevised_newDocument [Depths] (w : Workspace) {id text : String} {version : Int}
    {parts : List (String × SectionBody)} (hparts : splitSections text = .ok parts) :
    ((w.newDocument id text version).sections parts).map Section.unrevised =
      cut id (text, version) := by
  rw [cut, hparts]
  exact List.map_map

/-- The sections of a document are those of its text. -/
theorem Follows.sectionsOf [Depths] (hf : Follows texts h) (id : String) :
    (h.session.workspace.sectionsOf id).map Section.unrevised = texts.sectionsOf id := by
  rw [Texts.sectionsOf, ← hf.sections, Dictionary.lookup_mapValues, Workspace.sectionsOf]
  cases h.session.workspace.sections.lookup id <;> rfl

/-- In a history the workspace has the sections of the texts that are open. -/
theorem Follows.allSections [Depths] (hf : Follows texts h) :
    h.session.workspace.allSections.map Section.unrevised = texts.allSections := by
  rw [Texts.allSections, ← hf.sections, ← Dictionary.mapValues_sort, Workspace.allSections,
    List.map_flatMap, Dictionary.mapValues, List.flatMap_map]

theorem Follows.set [Depths] (hp : v.collaborators.provider = DocumentProvider.provider)
    (hf : Follows texts h) (id text : String) (version : Int) :
    Follows ((Operation.set id text version).opened texts)
      ((Operation.set id text version).run v h) := by
  rw [Operation.run, Operation.opened, Collaborators.setDocument_apply hp]
  cases hparts : splitSections text with
  | error f => exact hf
  | ok parts =>
    have hsound := hf.sound.set id version hparts
    -- Sections handed out before may be stale now; those handed out by setting are the document's own.
    refine ⟨hsound, ?_, fun s hs ↦ ?_⟩
    · have hput := Dictionary.mapValues_put (fun _ ss ↦ ss.map Section.unrevised) id
        ((h.session.workspace.newDocument id text version).sections parts)
        h.session.workspace.sections
      rw [map_unrevised_newDocument _ hparts, hf.sections] at hput
      rw [Texts.sections, Dictionary.mapValues_put]
      exact hput
    · rcases List.mem_append.1 hs with hs | hs
      · exact (hf.held s hs).set id text version _
      · have hof := Workspace.sectionsOf_set h.session.workspace
          (h.session.workspace.newDocument id text version)
          ((h.session.workspace.newDocument id text version).sections parts)
        exact (hsound.held (hof.symm ▸ hs)).2

theorem Follows.remove [Depths] (hf : Follows texts h) (id : String) :
    Follows ((Operation.remove id).opened texts) ((Operation.remove id).run v h) := by
  refine ⟨hf.sound.remove id, ?_, fun s hs ↦ (hf.held s hs).remove id⟩
  have herase := Dictionary.mapValues_erase (fun _ ss ↦ ss.map Section.unrevised) id
    h.session.workspace.sections
  rw [hf.sections] at herase
  rw [Operation.opened, Texts.sections, Dictionary.mapValues_erase]
  exact herase

theorem Follows.parse [Depths] (hp : v.collaborators.provider = DocumentProvider.provider)
    (hf : Follows texts h) (n : Nat) : Follows texts ((Operation.parse n).run v h) := by
  rw [Operation.run]
  cases hn : h.handed[n]? with
  | none => exact hf
  | some s =>
    have hs := hf.held s (List.mem_of_getElem? hn)
    obtain ⟨w', hw', hrun⟩ := Workspace.Answers.parse hp hs h.session hf.sound.learns
    have hlearns := hf.learns hw' (List.forall_mem_nil _)
    rw [List.append_nil] at hlearns
    dsimp only
    rwa [hrun]

/-- Whatever sections an answer hands out are sections of the workspace. -/
theorem mem_sectionsOf_of_meaning [Depths] {w : Workspace} (hw : w.Sound) {q : Query} {a : Answer}
    (ha : q.meaning v w.sectionsOf w.allSections = .ok a) :
    ∀ s ∈ a.handed, ∃ id, s ∈ w.sectionsOf id := by
  cases q with
  | sections document? =>
    cases document? with
    | none =>
      cases ha
      exact fun s hs ↦ (Workspace.mem_allSections hw.nodup).1 hs
    | some document =>
      cases ha
      exact fun s hs ↦ ⟨document, hs⟩
  | findSection document path =>
    cases ha
    exact fun s hs ↦ ⟨document, List.mem_of_find?_eq_some (Option.mem_toList.1 hs)⟩
  | serialize origin =>
    rw [Query.meaning] at ha
    cases hrs : DocumentProvider.recordsOf w.allSections with
    | ok rs =>
      rw [hrs] at ha
      cases ha
      exact List.forall_mem_nil _
    | error f =>
      rw [hrs] at ha
      cases ha
  | parse | compile | commands | definition | completions =>
    -- The answers to these hand out no section.
    cases ha
    exact List.forall_mem_nil _

theorem Follows.ask [Depths] (hp : v.collaborators.provider = DocumentProvider.provider)
    (hf : Follows texts h) (q : Query) : Follows texts ((Operation.ask q).run v h) := by
  obtain ⟨w', hw', hrun⟩ := Query.answers_ask hp hf.sound q h.session hf.sound.learns
  rw [Operation.run, hrun]
  cases ha : q.meaning v h.session.workspace.sectionsOf h.session.workspace.allSections with
  | ok a =>
    refine hf.learns hw' fun s hs ↦ ?_
    obtain ⟨id, hid⟩ := mem_sectionsOf_of_meaning hf.sound ha s hs
    exact (hf.sound.held hid).2
  | error f =>
    have hlearns := hf.learns hw' (List.forall_mem_nil _)
    rwa [List.append_nil] at hlearns

/-- **Every operation keeps what a history follows.** -/
theorem Follows.run [Depths] (hp : v.collaborators.provider = DocumentProvider.provider)
    (hf : Follows texts h) (o : Operation) : Follows (o.opened texts) (o.run v h) := by
  cases o with
  | set id text version => exact hf.set hp id text version
  | remove id => exact hf.remove id
  | parse n => exact hf.parse hp n
  | ask q => exact hf.ask hp q

theorem follows_after [Depths] (hp : v.collaborators.provider = DocumentProvider.provider) (host : H)
    (operations : List Operation) : Follows (openAfter operations) (after v host operations) := by
  suffices hrun : ∀ (texts : Texts) (h : History H), Follows texts h →
      Follows (operations.foldl Operation.opened texts) (operations.foldl (Operation.run v) h) by
    refine hrun [] (start host) ⟨.empty, rfl, ?_⟩
    exact fun s hs ↦ absurd hs List.not_mem_nil
  -- The induction is on the operations that are left, over any history that is followed.
  induction operations with
  | nil => exact fun _ _ hf ↦ hf
  | cons o rest ih => exact fun texts h hf ↦ ih _ _ (hf.run hp o)

/-! ### Answers after a run -/

/-- What is answered, but for the revisions in what is handed out. -/
def answer (v : Server H) (h : History H) (q : Query) : Except Fault Answer :=
  (q.ask v h.session).1.map Answer.unrevised

/-- **The answer to a question is its meaning for the open texts.** -/
theorem answer_after [Depths] (hp : v.collaborators.provider = DocumentProvider.provider) (host : H)
    (operations : List Operation) (q : Query) :
    answer v (after v host operations) q =
      q.meaning v (openAfter operations).sectionsOf (openAfter operations).allSections := by
  have hf := follows_after hp host operations
  obtain ⟨w', -, hrun⟩ := Query.answers_ask hp hf.sound q _ hf.sound.learns
  rw [answer, hrun, ← Query.meaning_map_unrevised, funext hf.sectionsOf, hf.allSections]

/-- **Answers do not depend on how the open texts came to be open.** After any operations every question
is answered as in a new session in which only the texts that are open have been set, in whatever
order. A section that was handed out at any time parses to its own elements, and that it was parsed
changes no answer afterwards. -/
theorem answers_independent_of_history [Depths] (v : Server H)
    (hp : v.collaborators.provider = DocumentProvider.provider) (host host' : H)
    (operations : List Operation) (order : Texts) (horder : order.Perm (openAfter operations)) :
    (∀ q, answer v (after v host operations) q = answer v (after v host' order.setAll) q) ∧
      (∀ s ∈ (after v host operations).handed,
        (v.collaborators.parse s (after v host operations).session).1 = .ok s.parse) ∧
      ∀ earlier n later, operations = earlier ++ Operation.parse n :: later → ∀ q,
        answer v (after v host operations) q = answer v (after v host (earlier ++ later)) q := by
  refine ⟨fun q ↦ ?_, fun s hs ↦ ?_, ?_⟩
  · -- Both answers are the meaning for open texts, which differ in their order only.
    have hn : (order.map Prod.fst).Nodup :=
      (horder.map Prod.fst).nodup_iff.2 (nodup_openAfter operations)
    have hr : order.Readable := fun e he ↦ readable_openAfter operations e (horder.mem_iff.1 he)
    have hsections : order.sections.Perm (openAfter operations).sections := horder.map _
    have hkeys : (order.sections.map Prod.fst).Nodup := by
      rwa [Texts.sections, Dictionary.map_fst_mapValues]
    rw [answer_after hp, answer_after hp, openAfter_setAll hn hr, Texts.allSections,
      Texts.allSections, ← Dictionary.sort_of_perm hkeys hsections]
    congr 1
    exact funext fun document ↦ by
      rw [Texts.sectionsOf, Texts.sectionsOf, Dictionary.lookup_of_perm hkeys hsections]
  · have hf := follows_after hp host operations
    obtain ⟨w', -, hrun⟩ := Workspace.Answers.parse hp (hf.held s hs) _ hf.sound.learns
    rw [hrun]
  · rintro earlier n later rfl q
    -- To parse opens nothing.
    have hopen : openAfter (earlier ++ Operation.parse n :: later) = openAfter (earlier ++ later) := by
      rw [openAfter, openAfter, List.foldl_append, List.foldl_append]
      rfl
    rw [answer_after hp, answer_after hp, hopen]

/-- A document with one section of a grammar, in which nothing is declared. -/
def bareText (grammar : String) : String :=
  "\x7b\"sections\":[\x7b\"grammar\":\"" ++ grammar ++ "\"\x7d]\x7d"

open Depths in
/-- A document is set again with a section of another grammar, and the section of its old text is parsed
afterwards: nothing of the old text is left, and another order of setting makes no difference. -/
theorem answers_after_replacement :
    let operations := [.set "a" (bareText "Function") 1, .parse 0, .ask .compile,
      .set "b" (bareText "Runtime") 1, .set "a" (bareText "Service") 2, .parse 0]
    let order : Texts := [("b", bareText "Runtime", 1), ("a", bareText "Service", 2)]
    (after .reading () operations).handed.map (·.grammar) = ["Function", "Runtime", "Service"] ∧
      (order.sections.map fun e ↦ e.2.map (·.grammar)) = [["Runtime"], ["Service"]] ∧
      order.Perm (openAfter operations) ∧
      ∀ q, answer .reading (after .reading () operations) q =
        answer .reading (after .reading () order.setAll) q := by
  intro operations order
  have hopen : openAfter operations =
      [("a", bareText "Service", 2), ("b", bareText "Runtime", 1)] := by
    decide +kernel
  have hperm : order.Perm (openAfter operations) := by
    rw [hopen]
    exact List.Perm.swap _ _ []
  refine ⟨by decide +kernel, by decide +kernel, hperm, ?_⟩
  exact (answers_independent_of_history .reading rfl () () _ _ hperm).1

end History

end ModelServer
