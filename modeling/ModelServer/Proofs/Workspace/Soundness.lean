import ModelServer.Proofs.Dictionary
import ModelServer.Proofs.Workspace.Compilation

/-!
# What the workspace remembers is right

`Workspace.Sound` relates what is remembered to the documents that are open: a remembered parse is the
parse of the section that stands under its key *now*, and a remembered compilation is that of the
sections there are now. Each operation keeps it (`Sound.set`, `Sound.remove`, `Sound.remember`,
`Sound.learnCompiled`).

A section may be held long after its document was replaced, and its key is then that of a section of the
new text. What keeps it out of memory is its revision: revisions only grow (`Sound.older`), so a section
of an old text is never current again. `Workspace.Held` says of a section that it was handed out at some
time, and this is all that is ever needed of it.
-/

namespace ModelServer

namespace Document

variable {d : Document} {parts : List (String × SectionBody)} {s t : Section}

theorem getElem?_sections (d : Document) (parts : List (String × SectionBody)) (n : Nat) :
    (d.sections parts)[n]? = parts[n]?.map fun p ↦ ⟨d, n, p.1, p.2⟩ := by
  rw [sections, List.getElem?_map, List.getElem?_zipIdx, Option.map_map, Nat.zero_add]
  rfl

theorem index_of_getElem? {n : Nat} (h : (d.sections parts)[n]? = some s) : s.index = n := by
  rw [getElem?_sections, Option.map_eq_some_iff] at h
  obtain ⟨p, -, rfl⟩ := h
  rfl

/-- The sections of a document stand in its list under their numbers. -/
theorem mem_sections_iff : s ∈ d.sections parts ↔ (d.sections parts)[s.index]? = some s := by
  refine ⟨fun hs ↦ ?_, List.mem_of_getElem?⟩
  obtain ⟨n, hn⟩ := List.mem_iff_getElem?.1 hs
  rwa [index_of_getElem? hn]

/-- Sections of one document with one number are one section. -/
theorem eq_of_index (hs : s ∈ d.sections parts) (ht : t ∈ d.sections parts)
    (h : s.index = t.index) : s = t := by
  rw [mem_sections_iff, h] at hs
  exact Option.some.inj (hs.symm.trans (mem_sections_iff.1 ht))

/-- To look for a number is to look at its place. -/
theorem find?_sections (n : Nat) :
    (d.sections parts).find? (fun s ↦ (s.index : Int) = n) = (d.sections parts)[n]? := by
  cases hfind : (d.sections parts).find? fun s ↦ (s.index : Int) = n with
  | some t =>
    have hn : (t.index : Int) = n :=
      of_decide_eq_true (List.find?_some (p := fun s : Section ↦ (s.index : Int) = n) hfind)
    rw [← Int.ofNat_inj.1 hn, mem_sections_iff.1 (List.mem_of_find?_eq_some hfind)]
  | none =>
    cases hn : (d.sections parts)[n]? with
    | none => rfl
    | some s =>
      have hindex : (s.index : Int) = n := congrArg Nat.cast (index_of_getElem? hn)
      exact absurd (decide_eq_true hindex) (List.find?_eq_none.1 hfind s (List.mem_of_getElem? hn))

theorem document_of_mem (hs : s ∈ d.sections parts) : s.document = d := by
  obtain ⟨p, -, rfl⟩ := List.mem_map.1 hs
  rfl

end Document

namespace Workspace

/-- What is remembered agrees with the documents that are open. -/
structure Sound [Depths] (w : Workspace) : Prop where
  /-- Each document is open once. -/
  nodup : (w.sections.map Prod.fst).Nodup
  /-- The sections are those of the open documents. -/
  cut : ∀ {id ss}, w.sections.lookup id = some ss →
    ∃ d parts, w.document? id = some d ∧ d.id = id ∧ splitSections d.text = .ok parts ∧
      ss = d.sections parts
  /-- Open documents were set before now. -/
  older : ∀ {id d}, w.document? id = some d → d.revision < w.generation
  /-- A remembered parse is that of the section under its key. -/
  parsed : ∀ {key p}, w.parsed.lookup key = some p →
    ∃ s ∈ w.sectionsOf key.1, s.index = key.2 ∧ p = s.parse
  /-- A remembered compilation is that of all sections. -/
  compiled : ∀ {r}, w.compiled = some r → r = Compiled.ofSections w.allSections

/-- The section was handed out at some time: it is older than what will be set from now on, and, if it
is current, it is one of the sections of its document. -/
structure Held (w : Workspace) (s : Section) : Prop where
  older : s.document.revision < w.generation
  own : w.isCurrent s = true → s ∈ w.sectionsOf s.document.id

theorem isCurrent_iff {w : Workspace} {s : Section} :
    w.isCurrent s = true ↔
      ∃ d, w.document? s.document.id = some d ∧ d.revision = s.document.revision := by
  rw [isCurrent]
  cases w.document? s.document.id <;> simp

theorem mem_sectionsOf {w : Workspace} {id : String} {s : Section} :
    s ∈ w.sectionsOf id ↔ ∃ ss, w.sections.lookup id = some ss ∧ s ∈ ss := by
  rw [sectionsOf]
  cases w.sections.lookup id <;> simp

theorem mem_allSections {w : Workspace} (hn : (w.sections.map Prod.fst).Nodup) {s : Section} :
    s ∈ w.allSections ↔ ∃ id, s ∈ w.sectionsOf id := by
  simp only [allSections, List.mem_flatMap, mem_sectionsOf, Dictionary.lookup_eq_some_iff_mem hn,
    (Dictionary.sort_perm w.sections).mem_iff, Prod.exists]

/-- The sections of a document stand together among those of all. -/
theorem sectionsOf_sublist (w : Workspace) (id : String) :
    (w.sectionsOf id).Sublist w.allSections := by
  rw [sectionsOf]
  cases h : w.sections.lookup id with
  | none => exact List.nil_sublist _
  | some ss =>
    have hmem : (id, ss) ∈ Dictionary.sort w.sections :=
      (Dictionary.sort_perm _).mem_iff.2 (Dictionary.mem_of_lookup h)
    rw [allSections, List.flatMap]
    exact List.sublist_flatten_of_mem (List.mem_map_of_mem hmem)

theorem sectionsOf_set (w : Workspace) (d : Document) (ss : List Section) :
    (w.set d ss).sectionsOf d.id = ss := by
  rw [sectionsOf, set, invalidate, Dictionary.lookup_put, if_pos (beq_self_eq_true _)]
  rfl

namespace Sound

variable {w : Workspace}

/-- Nothing is open and nothing is remembered. -/
theorem empty [Depths] : Workspace.empty.Sound :=
  ⟨List.nodup_nil, nofun, nofun, nofun, nofun⟩

/-- Every section of a document names that document, and is held. -/
theorem held [Depths] (hw : w.Sound) {id : String} {s : Section} (hs : s ∈ w.sectionsOf id) :
    s.document.id = id ∧ w.Held s := by
  obtain ⟨ss, hss, hmem⟩ := mem_sectionsOf.1 hs
  obtain ⟨d, parts, hd, hid, -, rfl⟩ := hw.cut hss
  have hdoc := Document.document_of_mem hmem
  refine ⟨by rw [hdoc, hid], by rw [hdoc]; exact hw.older hd, fun _ ↦ ?_⟩
  rwa [hdoc, hid]

theorem held_of_mem_allSections [Depths] (hw : w.Sound) {s : Section} (hs : s ∈ w.allSections) :
    w.Held s := by
  obtain ⟨id, hid⟩ := (mem_allSections hw.nodup).1 hs
  exact (hw.held hid).2

/-- Of a section that was handed out nothing but its own parse is ever remembered, whatever stands
under its key by now. -/
theorem eq_parse_of_parsed? [Depths] (hw : w.Sound) {s : Section} (hs : w.Held s) {p : Parsed}
    (h : w.parsed? s = some p) : p = s.parse := by
  rw [parsed?] at h
  split at h
  · next hcur =>
    -- What is remembered is the parse of some section `t` of the document with the number of `s`.
    obtain ⟨t, ht, hindex, rfl⟩ := hw.parsed h
    obtain ⟨ss, hss, hmem⟩ := mem_sectionsOf.1 (hs.own hcur)
    obtain ⟨ss', hss', hmem'⟩ := mem_sectionsOf.1 ht
    obtain rfl : ss = ss' := Option.some.inj (hss.symm.trans hss')
    obtain ⟨d, parts, -, -, -, rfl⟩ := hw.cut hss
    rw [Document.eq_of_index hmem hmem' hindex.symm]
  · cases h

/-! ### What changes documents -/

/-- With nothing remembered there is less to be wrong. -/
theorem invalidate [Depths] {ds : List (String × Document)} {ss : List (String × List Section)}
    {n : Nat} (hn : (ss.map Prod.fst).Nodup)
    (hcut : ∀ {id xs}, ss.lookup id = some xs → ∃ d parts, ds.lookup id = some d ∧ d.id = id ∧
      splitSections d.text = .ok parts ∧ xs = d.sections parts)
    (holder : ∀ {id d}, ds.lookup id = some d → d.revision < n) :
    Sound ⟨ds, ss, [], none, n⟩ :=
  ⟨hn, hcut, holder, nofun, nofun⟩

theorem set [Depths] (hw : w.Sound) (id : String) {text : String} (version : Int)
    {parts : List (String × SectionBody)} (h : splitSections text = .ok parts) :
    (w.set (w.newDocument id text version)
      ((w.newDocument id text version).sections parts)).Sound := by
  refine invalidate (Dictionary.nodup_put _ _ hw.nodup) ?_ ?_
  · intro key xs hxs
    rw [Dictionary.lookup_put] at hxs ⊢
    by_cases hkey : key == (w.newDocument id text version).id
    · rw [if_pos hkey] at hxs ⊢
      exact ⟨_, parts, rfl, (eq_of_beq hkey).symm, h, (Option.some.inj hxs).symm⟩
    · rw [if_neg hkey] at hxs ⊢
      exact hw.cut hxs
  · intro key d hd
    rw [Dictionary.lookup_put] at hd
    split at hd
    · obtain rfl := Option.some.inj hd
      exact Nat.lt_succ_self _
    · exact Nat.lt_succ_of_lt (hw.older hd)

theorem remove [Depths] (hw : w.Sound) (id : String) : (w.remove id).Sound := by
  refine invalidate (Dictionary.nodup_erase _ hw.nodup) ?_ ?_
  · intro key xs hxs
    rw [Dictionary.lookup_erase] at hxs ⊢
    split at hxs
    · cases hxs
    · next hkey =>
      rw [if_neg hkey]
      exact hw.cut hxs
  · intro key d hd
    rw [Dictionary.lookup_erase] at hd
    split at hd
    · cases hd
    · exact Nat.lt_succ_of_lt (hw.older hd)

/-! ### What is learnt of documents -/

/-- To remember the parse of a section that was handed out does no harm: if the section is not current
it is not remembered at all. -/
theorem remember [Depths] (hw : w.Sound) {s : Section} (hs : w.Held s) :
    (w.remember s s.parse).Sound := by
  rw [Workspace.remember]
  split
  · next hcur =>
    refine ⟨hw.nodup, hw.cut, hw.older, ?_, hw.compiled⟩
    intro key p hp
    rw [Dictionary.lookup_put] at hp
    split at hp
    · next hkey =>
      obtain rfl := eq_of_beq hkey
      exact ⟨s, hs.own hcur, rfl, (Option.some.inj hp).symm⟩
    · exact hw.parsed hp
  · exact hw

theorem learnCompiled [Depths] (hw : w.Sound) :
    Sound { w with compiled := some (Compiled.ofSections w.allSections) } :=
  ⟨hw.nodup, hw.cut, hw.older, hw.parsed, fun h ↦ (Option.some.inj h).symm⟩

end Sound

/-! ### Sections that are held -/

namespace Held

variable {w : Workspace} {s : Section}

/-- Setting a document leaves a held section held. If it is of that document it is not current any
longer, for it is older than the document. -/
theorem set (hs : w.Held s) (id text : String) (version : Int) (sections : List Section) :
    (w.set (w.newDocument id text version) sections).Held s := by
  refine ⟨Nat.lt_succ_of_lt hs.older, fun hcur ↦ ?_⟩
  obtain ⟨d, hd, hrev⟩ := isCurrent_iff.1 hcur
  have hlookup := hd
  rw [document?, Workspace.set, Workspace.invalidate, Dictionary.lookup_put] at hlookup
  split at hlookup
  · -- The document was just set, under a revision that no section handed out before can have.
    obtain rfl := Option.some.inj hlookup
    exact absurd hs.older (hrev ▸ Nat.lt_irrefl _)
  · next hkey =>
    have hold := hs.own (isCurrent_iff.2 ⟨d, hlookup, hrev⟩)
    rw [mem_sectionsOf] at hold ⊢
    rw [Workspace.set, Workspace.invalidate, Dictionary.lookup_put, if_neg hkey]
    exact hold

theorem remove (hs : w.Held s) (id : String) : (w.remove id).Held s := by
  refine ⟨Nat.lt_succ_of_lt hs.older, fun hcur ↦ ?_⟩
  obtain ⟨d, hd, hrev⟩ := isCurrent_iff.1 hcur
  have hlookup := hd
  rw [document?, Workspace.remove, Workspace.invalidate, Dictionary.lookup_erase] at hlookup
  split at hlookup
  · cases hlookup
  · next hkey =>
    have hold := hs.own (isCurrent_iff.2 ⟨d, hlookup, hrev⟩)
    rw [mem_sectionsOf] at hold ⊢
    rw [Workspace.remove, Workspace.invalidate, Dictionary.lookup_erase, if_neg hkey]
    exact hold

end Held

end Workspace

end ModelServer
