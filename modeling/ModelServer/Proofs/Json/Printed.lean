import ModelServer.Proofs.Json.Denoted
import ModelServer.Proofs.Json.Literal
import ModelServer.Proofs.Json.Order

/-!
# What is set out reads back

A value that is set out on lines is read again, with its members in the order of their names
(`read_pretty`). `ReadsAs` says of a text that it is read as a value, wherever it stands: it leaves what
follows it to be read further, so the texts of items make the text of a list (`ReadsAs.list`) and those of
members that of a record (`ReadsAs.record`). That the first character of an item is no blank and no bracket
need not be looked up in how it is written, since such a text would not have been read
(`front_of_value`).

Which values these are: the values that texts denote (`Denoted`), nested no deeper than can be read, and
with texts in which surrogates stand apart (`Data.Apart`).
-/

namespace ModelServer

namespace Data

variable {α : Type}

/-- In no text and in no name of the value does a high surrogate stand alone right before a low one. -/
inductive Apart : Data α → Prop
  | null : Apart .null
  | bool (b : Bool) : Apart (.bool b)
  | int (n : Int) : Apart (.int n)
  | float (x : Binary64) : Apart (.float x)
  | text {s : String} (h : Text.Apart s) : Apart (.text s)
  | list {items : List (Data α)} (h : ∀ v ∈ items, Apart v) : Apart (.list items)
  | record {ms : List (String × Data α)} (hn : ∀ m ∈ ms, Text.Apart m.1) (h : ∀ m ∈ ms, Apart m.2) :
      Apart (.record ms)
  | foreign (a : α) : Apart (.foreign a)

theorem apart_list_iff {items : List (Data α)} : (list items).Apart ↔ ∀ v ∈ items, v.Apart :=
  ⟨fun h ↦ by cases h; assumption, .list⟩

theorem apart_record_iff {ms : List (String × Data α)} :
    (record ms).Apart ↔ (∀ m ∈ ms, Text.Apart m.1) ∧ ∀ m ∈ ms, m.2.Apart :=
  ⟨fun h ↦ by cases h with | record hn h => exact ⟨hn, h⟩, fun h ↦ .record h.1 h.2⟩

theorem heightList_le_iff {items : List (Data α)} {k : Nat} :
    heightList items ≤ k ↔ ∀ v ∈ items, v.height ≤ k := by
  induction items with
  | nil => exact ⟨fun _ v hv ↦ absurd hv List.not_mem_nil, fun _ ↦ Nat.zero_le k⟩
  | cons v rest ih => rw [heightList, Nat.max_le, List.forall_mem_cons, ih]

theorem heightMembers_le_iff {ms : List (String × Data α)} {k : Nat} :
    heightMembers ms ≤ k ↔ ∀ m ∈ ms, m.2.height ≤ k := by
  induction ms with
  | nil => exact ⟨fun _ m hm ↦ absurd hm List.not_mem_nil, fun _ ↦ Nat.zero_le k⟩
  | cons m rest ih => rw [heightMembers, Nat.max_le, List.forall_mem_cons, ih]

end Data

namespace Json

/-! ### Blanks -/

theorem skip_of_not_isSpace {c : Char} (h : isSpace c = false) (cs : List Char) : skip (c :: cs) = c :: cs :=
  List.dropWhile_cons_of_neg (by rw [h]; exact Bool.false_ne_true)

theorem skip_newline (depth : Nat) (cs : List Char) : skip (Style.pretty.newline depth ++ cs) = skip cs := by
  refine List.dropWhile_append_of_pos fun c hc ↦ ?_
  rcases List.mem_cons.1 hc with rfl | hc
  · rfl
  · rw [(List.mem_replicate.1 hc).2]
    rfl

/-- Nothing is read where a blank or a closing bracket is at the front. -/
theorem front_of_value {fuel depth : Nat} {cs : List Char} {r : Json × List Char}
    (h : value fuel depth cs = .ok r) :
    ∃ c tail, cs = c :: tail ∧ isSpace c = false ∧ c ≠ ']' ∧ c ≠ '\uFEFF' := by
  rcases fuel with _ | fuel
  · cases h
  rcases cs with _ | ⟨c, tail⟩
  · cases h
  refine ⟨c, tail, rfl, ?_, ?_, ?_⟩
  · rw [isSpace, Bool.eq_false_iff]
    simp only [ne_eq, Bool.or_eq_true, beq_iff_eq, not_or]
    refine ⟨⟨⟨?_, ?_⟩, ?_⟩, ?_⟩
    all_goals
      rintro rfl
      cases h
  · rintro rfl
    cases h
  · rintro rfl
    cases h

/-! ### Texts that are read as values -/

/-- Wherever the text stands before a comma, the end of a line or nothing, it is read as the value. -/
def ReadsAs (depth : Nat) (text : List Char) (v : Json) : Prop :=
  ∀ ⦃fuel rest⦄, 2 * text.length < fuel → Delimited rest → value fuel depth (text ++ rest) = .ok (v, rest)

namespace ReadsAs

variable {depth : Nat}

theorem of_atom {text : List Char} {v : Json}
    (h : ∀ rest, Delimited rest → atom (text ++ rest) = .ok (v, rest)) : ReadsAs depth text v := by
  intro fuel rest hfuel hrest
  obtain ⟨fuel, rfl⟩ := Nat.exists_eq_add_one_of_ne_zero (Nat.ne_zero_of_lt hfuel)
  have hatom := h rest hrest
  unfold value
  -- No atom starts as a text, a record or a list does.
  split
  iterate 5
    next heq =>
      rw [heq] at hatom
      cases hatom
  exact hatom

theorem word {word : List Char} {v : Json} (h : ∀ rest, atom (word ++ rest) = .ok (v, rest)) :
    ReadsAs depth word v :=
  of_atom fun rest _ ↦ h rest

theorem text {s : String} (hs : Text.Apart s) : ReadsAs depth (writeText s) (.text s) := by
  intro fuel rest hfuel _
  obtain ⟨fuel, rfl⟩ := Nat.exists_eq_add_one_of_ne_zero (Nat.ne_zero_of_lt hfuel)
  show Except.map _ (literal _ ((closed s ++ rest).length + 1) [] (closed s ++ rest)) = _
  rw [literal_closed hs]
  rfl

/-! ### Lists -/

theorem itemsFrom_last {fuel : Nat} {seen : List Json} {cs tail rest : List Char} {v : Json}
    (hv : value fuel depth cs = .ok (v, tail)) (htail : skip tail = ']' :: rest) :
    itemsFrom (fuel + 1) depth seen cs = .ok (v :: seen, rest) := by
  rw [itemsFrom, hv]
  dsimp only [bind, Except.bind]
  rw [htail]
  rfl

theorem itemsFrom_next {fuel : Nat} {seen : List Json} {cs tail rest : List Char} {v : Json}
    (hv : value fuel depth cs = .ok (v, tail)) (htail : skip tail = ',' :: rest) :
    itemsFrom (fuel + 1) depth seen cs = itemsFrom fuel depth (v :: seen) (skip rest) := by
  rw [itemsFrom, hv]
  dsimp only [bind, Except.bind]
  rw [htail]
  rfl

/-- What stands between the brackets of items that are set out, behind the first end of a line, and the
closing one. -/
def itemsText (closing : Char) (column : Nat) (texts : List (List Char)) : List Char :=
  Data.joinChars (Style.pretty.separator (column + 1)) texts ++ Style.pretty.newline column ++ [closing]

theorem itemsText_singleton (closing : Char) (column : Nat) (t : List Char) :
    itemsText closing column [t] = t ++ (Style.pretty.newline column ++ [closing]) := by
  simp only [itemsText, Data.joinChars, List.append_assoc]

theorem itemsText_cons (closing : Char) (column : Nat) (t u : List Char) (ts : List (List Char)) :
    itemsText closing column (t :: u :: ts) =
      t ++ ',' :: (Style.pretty.newline (column + 1) ++ itemsText closing column (u :: ts)) := by
  simp only [itemsText, Data.joinChars, Style.separator, List.append_assoc, List.cons_append]

theorem delimited_newline (column : Nat) (rest : List Char) :
    Delimited (Style.pretty.newline column ++ rest) := by
  rintro c ⟨⟩
  exact .inr rfl

theorem delimited_comma (rest : List Char) : Delimited (',' :: rest) := by
  rintro c ⟨⟩
  exact .inl rfl

theorem front_of_items {fuel : Nat} {seen : List Json} {cs : List Char} {r : List Json × List Char}
    (h : itemsFrom fuel depth seen cs = .ok r) :
    ∃ c tail, cs = c :: tail ∧ isSpace c = false ∧ c ≠ ']' := by
  unfold itemsFrom at h
  split at h
  · cases h
  · obtain ⟨_, hvalue, -⟩ := bind_eq_ok_iff.1 h
    obtain ⟨c, tail, hcs, hspace, hbracket, -⟩ := front_of_value hvalue
    exact ⟨c, tail, hcs, hspace, hbracket⟩

/-- The items of a list are read from the first one to the closing bracket. -/
theorem itemsFrom_itemsText {ps : List (List Char × Json)} (h : ∀ p ∈ ps, ReadsAs depth p.1 p.2)
    (hne : ps ≠ []) {fuel column : Nat}
    (hfuel : 2 * (itemsText ']' column (ps.map Prod.fst)).length < fuel) (seen : List Json)
    (rest : List Char) :
    itemsFrom fuel depth seen (itemsText ']' column (ps.map Prod.fst) ++ rest) =
      .ok ((ps.map Prod.snd).reverse ++ seen, rest) := by
  induction ps generalizing fuel seen with
  | nil => exact absurd rfl hne
  | cons p ps ih =>
    obtain ⟨fuel, rfl⟩ := Nat.exists_eq_add_one_of_ne_zero (Nat.ne_zero_of_lt hfuel)
    obtain ⟨hp, hps⟩ := List.forall_mem_cons.1 h
    rcases ps with _ | ⟨q, ps⟩
    · rw [List.map_singleton, itemsText_singleton] at hfuel ⊢
      have hlength : 2 * p.1.length < fuel := by
        simp only [List.length_append, List.length_cons] at hfuel
        omega
      have hvalue := hp hlength (delimited_newline column ([']'] ++ rest))
      rw [List.append_assoc, List.append_assoc]
      refine itemsFrom_last hvalue ?_
      rw [skip_newline]
      exact skip_of_not_isSpace rfl rest
    · rw [List.map_cons, List.map_cons, itemsText_cons] at hfuel ⊢
      simp only [List.length_append, List.length_cons] at hfuel
      have hrest : 2 * (itemsText ']' column ((q :: ps).map Prod.fst)).length < fuel := by
        rw [List.map_cons]
        omega
      have hitems := ih hps (List.cons_ne_nil q ps) hrest (p.2 :: seen)
      rw [List.map_cons] at hitems
      obtain ⟨c, tail, htail, hspace, -⟩ := front_of_items hitems
      have hlength : 2 * p.1.length < fuel := by omega
      rw [List.append_assoc, List.cons_append, List.append_assoc,
        itemsFrom_next (hp hlength (delimited_comma _)) (skip_of_not_isSpace rfl _), skip_newline, htail,
        skip_of_not_isSpace hspace, ← htail, hitems]
      simp only [List.map_cons, List.reverse_cons, List.append_assoc, List.cons_append, List.nil_append]

theorem value_items {fuel : Nat} {cs tail rest : List Char} {c : Char} {vs : List Json}
    (hskip : skip cs = c :: tail) (hc : c ≠ ']')
    (h : itemsFrom fuel depth [] (c :: tail) = .ok (vs, rest)) :
    value (fuel + 1) (depth + 1) ('[' :: cs) = .ok (.list vs.reverse, rest) := by
  rw [value, hskip]
  split
  · next heq => exact absurd (List.cons.inj heq).1 hc
  · rw [h]
    rfl

theorem enclose_cons (opening closing : Char) (column : Nat) (t : List Char) (ts : List (List Char)) :
    Style.pretty.enclose opening closing column (t :: ts) =
      opening :: (Style.pretty.newline (column + 1) ++ itemsText closing column (t :: ts)) := by
  simp only [Style.enclose, itemsText, List.append_assoc]

/-- **The texts of items make the text of a list.** -/
theorem list {ps : List (List Char × Json)} (h : ∀ p ∈ ps, ReadsAs depth p.1 p.2) (column : Nat) :
    ReadsAs (depth + 1) (Style.pretty.enclose '[' ']' column (ps.map Prod.fst))
      (.list (ps.map Prod.snd)) := by
  intro fuel rest hfuel _
  obtain ⟨fuel, rfl⟩ := Nat.exists_eq_add_one_of_ne_zero (Nat.ne_zero_of_lt hfuel)
  rcases ps with _ | ⟨p, ps⟩
  · rfl
  · rw [List.map_cons, enclose_cons, ← List.map_cons] at hfuel ⊢
    simp only [List.length_cons, List.length_append] at hfuel
    have hlength : 2 * (itemsText ']' column ((p :: ps).map Prod.fst)).length < fuel := by omega
    have hitems := itemsFrom_itemsText h (List.cons_ne_nil p ps) hlength [] rest
    obtain ⟨c, tail, htail, hspace, hbracket⟩ := front_of_items hitems
    have hskip : skip (Style.pretty.newline (column + 1) ++ (c :: tail)) = c :: tail := by
      rw [skip_newline, skip_of_not_isSpace hspace]
    rw [htail] at hitems
    rw [List.cons_append, List.append_assoc, htail, value_items hskip hbracket hitems, List.append_nil,
      List.reverse_reverse]

/-! ### Records -/

/-- A member that is set out, its value as the text `t`. -/
def memberText (name : String) (t : List Char) : List Char :=
  writeText name ++ [':', ' '] ++ t

/-- The name of a member is read, and then its value. -/
theorem membersFrom_memberText {fuel : Nat} (seen : Members) {name : String} (hname : Text.Apart name)
    {t tail more : List Char} {v : Json} (hv : value fuel depth (t ++ tail) = .ok (v, more)) :
    membersFrom (fuel + 1) depth seen (memberText name t ++ tail) =
      match skip more with
      | '}' :: rest => .ok ((name, v) :: seen, rest)
      | ',' :: rest => membersFrom fuel depth ((name, v) :: seen) (skip rest)
      | rest => .error ⟨.comma, rest⟩ := by
  obtain ⟨c, cs, hcs, hspace, -, -⟩ := front_of_value hv
  have htext : memberText name t ++ tail = '"' :: (closed name ++ (':' :: ' ' :: (t ++ tail))) := by
    simp only [memberText, writeText_eq, List.append_assoc, List.cons_append, List.nil_append]
  have hskip : skip (' ' :: (t ++ tail)) = t ++ tail := by
    rw [hcs]
    exact skip_of_not_isSpace hspace cs
  rw [htext, membersFrom, literal_closed hname]
  show (value fuel depth (skip (' ' :: (t ++ tail))) >>= _) = _
  rw [hskip, hv]
  rfl

theorem front_of_members {fuel : Nat} {seen : Members} {cs : List Char} {r : Members × List Char}
    (h : membersFrom fuel depth seen cs = .ok r) : ∃ tail, cs = '"' :: tail := by
  unfold membersFrom at h
  split at h
  · cases h
  · split at h
    · exact ⟨_, rfl⟩
    · cases h

/-- The members of a record are read from the first name to the closing brace. -/
theorem membersFrom_itemsText {ps : List (String × List Char × Json)}
    (h : ∀ p ∈ ps, Text.Apart p.1 ∧ ReadsAs depth p.2.1 p.2.2) (hne : ps ≠ []) {fuel column : Nat}
    (hfuel : 2 * (itemsText '}' column (ps.map fun p ↦ memberText p.1 p.2.1)).length < fuel)
    (seen : Members) (rest : List Char) :
    membersFrom fuel depth seen (itemsText '}' column (ps.map fun p ↦ memberText p.1 p.2.1) ++ rest) =
      .ok ((ps.map fun p ↦ (p.1, p.2.2)).reverse ++ seen, rest) := by
  induction ps generalizing fuel seen with
  | nil => exact absurd rfl hne
  | cons p ps ih =>
    obtain ⟨fuel, rfl⟩ := Nat.exists_eq_add_one_of_ne_zero (Nat.ne_zero_of_lt hfuel)
    obtain ⟨⟨hname, hp⟩, hps⟩ := List.forall_mem_cons.1 h
    have hshort : p.2.1.length < (memberText p.1 p.2.1).length := by
      simp only [memberText, writeText_eq, List.length_append, List.length_cons]
      omega
    rcases ps with _ | ⟨q, ps⟩
    · rw [List.map_singleton, itemsText_singleton] at hfuel ⊢
      have hlength : 2 * p.2.1.length < fuel := by
        simp only [List.length_append, List.length_cons] at hfuel
        omega
      have hvalue := hp hlength (delimited_newline column (['}'] ++ rest))
      rw [List.append_assoc, List.append_assoc, membersFrom_memberText seen hname hvalue, skip_newline]
      rfl
    · rw [List.map_cons, List.map_cons, itemsText_cons] at hfuel ⊢
      simp only [List.length_append, List.length_cons] at hfuel
      have hrest : 2 * (itemsText '}' column ((q :: ps).map fun p ↦ memberText p.1 p.2.1)).length < fuel := by
        rw [List.map_cons]
        omega
      have hmembers := ih hps (List.cons_ne_nil q ps) hrest ((p.1, p.2.2) :: seen)
      rw [List.map_cons] at hmembers
      obtain ⟨tail, htail⟩ := front_of_members hmembers
      have hlength : 2 * p.2.1.length < fuel := by omega
      rw [List.append_assoc, List.cons_append, List.append_assoc,
        membersFrom_memberText seen hname (hp hlength (delimited_comma _)), skip_of_not_isSpace rfl]
      show membersFrom fuel depth _ (skip _) = _
      rw [skip_newline, htail, skip_of_not_isSpace rfl, ← htail, hmembers]
      simp only [List.map_cons, List.reverse_cons, List.append_assoc, List.cons_append, List.nil_append]

theorem value_members {fuel : Nat} {cs tail rest : List Char} {ms : Members}
    (hskip : skip cs = '"' :: tail) (h : membersFrom fuel depth [] ('"' :: tail) = .ok (ms, rest)) :
    value (fuel + 1) (depth + 1) ('{' :: cs) = .ok (.ofWritten ms.reverse, rest) := by
  rw [value, hskip]
  split
  · next heq => cases heq
  · rw [h]
    rfl

/-- **The texts of members make the text of a record.** -/
theorem record {ps : List (String × List Char × Json)}
    (h : ∀ p ∈ ps, Text.Apart p.1 ∧ ReadsAs depth p.2.1 p.2.2) (hn : (ps.map Prod.fst).Nodup)
    (column : Nat) :
    ReadsAs (depth + 1) (Style.pretty.enclose '{' '}' column (ps.map fun p ↦ memberText p.1 p.2.1))
      (.record (ps.map fun p ↦ (p.1, p.2.2))) := by
  intro fuel rest hfuel _
  obtain ⟨fuel, rfl⟩ := Nat.exists_eq_add_one_of_ne_zero (Nat.ne_zero_of_lt hfuel)
  have hnames : ((ps.map fun p ↦ (p.1, p.2.2)).map Prod.fst).Nodup := by
    rwa [List.map_map]
  rcases ps with _ | ⟨p, ps⟩
  · rfl
  · have hmembers := membersFrom_itemsText h (List.cons_ne_nil p ps) (by
      rw [List.map_cons, enclose_cons] at hfuel
      simp only [List.length_cons, List.length_append] at hfuel
      rw [List.map_cons]
      omega : 2 * (itemsText '\x7d' column _).length < fuel) [] rest
    obtain ⟨tail, htail⟩ := front_of_members hmembers
    have hskip : skip (Style.pretty.newline (column + 1) ++ ('"' :: tail)) = '"' :: tail := by
      rw [skip_newline, skip_of_not_isSpace rfl]
    rw [htail] at hmembers
    rw [List.map_cons] at htail
    rw [List.map_cons, enclose_cons, List.cons_append, List.append_assoc, htail,
      value_members hskip hmembers, List.append_nil, List.reverse_reverse, Data.ofWritten,
      Dictionary.ofList_of_nodup hnames]

end ReadsAs

/-! ### What is written -/

section Written

variable {α : Type} (style : Style) (leaf : α → String)

theorem writeItems_eq_map (column : Nat) (items : List (Data α)) :
    writeItems style leaf column items = items.map (writeAt style leaf column) := by
  induction items with
  | nil => rfl
  | cons v rest ih => rw [writeItems, ih, List.map_cons]

theorem writeMembers_eq (column : Nat) (ms : List (String × Data α)) :
    writeMembers style leaf column ms = Dictionary.mapValues (fun _ v ↦ writeAt style leaf column v) ms := by
  induction ms with
  | nil => rfl
  | cons m rest ih =>
    rw [writeMembers, ih]
    rfl

/-- The members of a record are written in the order of their names. -/
theorem sort_writeMembers (column : Nat) (ms : List (String × Data α)) :
    Dictionary.sort (writeMembers style leaf column ms) =
      (Dictionary.sort ms).map fun m ↦ (m.1, writeAt style leaf column m.2) := by
  rw [writeMembers_eq, ← Dictionary.mapValues_sort]
  rfl

end Written

/-! ### Written and read again -/

/-- **What is set out is read as the value**, members in the order of their names. The induction is on what
a text may denote, which is where the names are known to be different. -/
theorem readsAs_writeAt {v : Json} (hv : Denoted v) (hapart : v.Apart) {depth : Nat}
    (hdepth : v.height ≤ depth) (leaf : Empty → String) (column : Nat) :
    ReadsAs depth (writeAt .pretty leaf column v) v.ordered := by
  induction hv generalizing depth column with
  | null => exact .word fun _ ↦ rfl
  | bool b =>
    cases b with
    | false => exact .word fun _ ↦ rfl
    | true => exact .word fun _ ↦ rfl
  | int hn => exact .of_atom fun _ hrest ↦ atom_int hn hrest
  | float x => exact .of_atom fun _ hrest ↦ atom_render x hrest
  | text s =>
    cases hapart with
    | text hs => exact .text hs
  | @list items _ ih =>
    obtain ⟨depth, rfl⟩ := Nat.exists_eq_add_one_of_ne_zero (Nat.ne_zero_of_lt hdepth)
    have hitems := Data.apart_list_iff.1 hapart
    have hheight := Data.heightList_le_iff.1 (Nat.le_of_succ_le_succ hdepth)
    have hread : ∀ p ∈ items.map fun v ↦ (writeAt .pretty leaf (column + 1) v, v.ordered),
        ReadsAs depth p.1 p.2 :=
      List.forall_mem_map.2 fun v hmem ↦ ih v hmem (hitems v hmem) (hheight v hmem) _
    have hlist := ReadsAs.list hread column
    rw [List.map_map, List.map_map] at hlist
    rw [writeAt, writeItems_eq_map, Data.ordered, Data.orderedList_eq_map]
    exact hlist
  | @record ms hn _ ih =>
    obtain ⟨depth, rfl⟩ := Nat.exists_eq_add_one_of_ne_zero (Nat.ne_zero_of_lt hdepth)
    obtain ⟨hnames, hmembers⟩ := Data.apart_record_iff.1 hapart
    have hheight := Data.heightMembers_le_iff.1 (Nat.le_of_succ_le_succ hdepth)
    have hperm := Dictionary.sort_perm ms
    have hread : ∀ p ∈ (Dictionary.sort ms).map fun m ↦
        (m.1, writeAt .pretty leaf (column + 1) m.2, m.2.ordered),
        Text.Apart p.1 ∧ ReadsAs depth p.2.1 p.2.2 := by
      refine List.forall_mem_map.2 fun m hm ↦ ?_
      replace hm := hperm.mem_iff.1 hm
      exact ⟨hnames m hm, ih m hm (hmembers m hm) (hheight m hm) _⟩
    have hdistinct : ((Dictionary.sort ms).map Prod.fst).Nodup := (hperm.map Prod.fst).nodup_iff.2 hn
    have hrecord := ReadsAs.record hread (by rwa [List.map_map]) column
    rw [List.map_map, List.map_map] at hrecord
    rw [writeAt, sort_writeMembers, List.map_map, Data.ordered, Data.orderedMembers_eq,
      ← Dictionary.mapValues_sort]
    exact hrecord

theorem exists_toList_pretty (v : Json) : ∃ leaf, (pretty v).toList = writeAt .pretty leaf 0 v :=
  ⟨_, String.toList_ofList⟩

/-- **What is set out is read again**, members in the order of their names. -/
theorem read_pretty [Depths] {v : Json} (hv : Denoted v) (hapart : v.Apart)
    (hdepth : v.height ≤ Depths.reading) :
    read (pretty v) = .ok v.ordered := by
  obtain ⟨leaf, htext⟩ := exists_toList_pretty v
  have hvalue := readsAs_writeAt hv hapart hdepth leaf 0 (Nat.lt_succ_self (2 * _)) .nil
  rw [List.append_nil, ← htext] at hvalue
  obtain ⟨c, tail, hfront, hspace, -, hmark⟩ := front_of_value hvalue
  rw [hfront] at hvalue
  rw [read, hfront, readChars]
  · rw [skip_of_not_isSpace hspace, hvalue]
    rfl
  · intro rest heq
    exact hmark (List.cons.inj heq).1

end Json

end ModelServer
