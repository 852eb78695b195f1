import ModelServer.Fault

/-!
# What is told of faults

Every fault but a mute one has a text (`Fault.hasText_or_mute`).

What a trace tells is set out line by line, with the words of each line, in `Incident.Tells`: what led to
the fault and how, the calls it came through, its name and text, and its notes. The trace of a fault tells
just this (`Incident.tells_trace`), and there is one way to tell it (`Incident.Tells.unique`).
-/

namespace ModelServer

namespace Fault

/-! ### Texts -/

/-- The fault can be put into words. -/
def HasText (f : Fault) : Prop :=
  f.wording = .ok f.message

theorem hasText_or_mute (f : Fault) : f.HasText ∨ ∃ kind inner, f = .mute kind inner := by
  cases f with
  | mute kind inner => exact .inr ⟨kind, inner, rfl⟩
  | invariant | unmatchedKey | cancelled | alreadyRunning | server | silent | uncompiled | unconfigured
  | invalid | undecodable | unencodable | unreadable | plain => exact .inl rfl

end Fault

/-! ### Traces -/

/-- The line that names a fault, with its text if that is not empty. -/
inductive Account.Heads (a : Account) : String → Prop
  | alone (text : a.text = "") : Heads a a.name
  | worded (text : a.text ≠ "") : Heads a (a.name ++ ": " ++ a.text)

/-- The lines that tell of one fault. -/
inductive Account.Lines (a : Account) : List String → Prop
  | kept {line : String} (calls : a.calls = none) (head : a.Heads line) : Lines a (line :: a.notes)
  | raised {through : List String} {line : String} (calls : a.calls = some through)
      (head : a.Heads line) :
    Lines a ("Traceback (most recent call last):" :: (through ++ line :: a.notes))

/-- The lines that tell of a fault after what led to it. -/
inductive Account.LinesAfter (a : Account) : List (Account × Link) → List String → Prop
  | alone {ls : List String} (own : a.Lines ls) : LinesAfter a [] ls
  | caused {b : Account} {earlier : List (Account × Link)} {ls ms : List String}
      (first : b.Lines ls) (rest : a.LinesAfter earlier ms) :
    LinesAfter a ((b, .cause) :: earlier) (ls ++
      ["", "The above exception was the direct cause of the following exception:", ""] ++ ms)
  | during {b : Account} {earlier : List (Account × Link)} {ls ms : List String}
      (first : b.Lines ls) (rest : a.LinesAfter earlier ms) :
    LinesAfter a ((b, .context) :: earlier) (ls ++
      ["", "During handling of the above exception, another exception occurred:", ""] ++ ms)

/-- The text is all that is to be told of the fault, on lines that each end in a line feed. -/
def Incident.Tells (i : Incident) (text : String) : Prop :=
  ∃ ls, Account.LinesAfter ⟨i.fault.name, i.fault.message, i.calls, i.notes⟩ i.earlier ls ∧
    text = String.join (ls.map (· ++ "\n"))

namespace Account

theorem heads_headline (a : Account) : a.Heads a.headline := by
  rw [headline]
  split
  · next h => exact .alone (String.isEmpty_iff.1 h)
  · next h => exact .worded (mt String.isEmpty_iff.2 h)

theorem Heads.unique {a : Account} {s t : String} (hs : a.Heads s) (ht : a.Heads t) : s = t := by
  cases hs with
  | alone h =>
    cases ht with
    | alone => rfl
    | worded h' => exact absurd h h'
  | worded h =>
    cases ht with
    | alone h' => exact absurd h' h
    | worded => rfl

theorem lines_lines (a : Account) : a.Lines a.lines := by
  rw [lines]
  cases h : a.calls with
  | none => exact .kept h a.heads_headline
  | some calls => exact .raised h a.heads_headline

theorem Lines.unique {a : Account} {ls ms : List String} (hl : a.Lines ls) (hm : a.Lines ms) :
    ls = ms := by
  cases hl with
  | kept hcalls hhead =>
    cases hm with
    | kept _ hhead' => rw [hhead.unique hhead']
    | raised hcalls' _ =>
      rw [hcalls] at hcalls'
      cases hcalls'
  | raised hcalls hhead =>
    cases hm with
    | kept hcalls' _ =>
      rw [hcalls] at hcalls'
      cases hcalls'
    | raised hcalls' hhead' => rw [Option.some.inj (hcalls.symm.trans hcalls'), hhead.unique hhead']

theorem LinesAfter.unique {a : Account} {earlier : List (Account × Link)} {ls ms : List String}
    (hl : a.LinesAfter earlier ls) (hm : a.LinesAfter earlier ms) : ls = ms := by
  induction hl generalizing ms with
  | alone own =>
    cases hm with
    | alone own' => exact own.unique own'
  | caused first _ ih =>
    cases hm with
    | caused first' rest' => rw [first.unique first', ih rest']
  | during first _ ih =>
    cases hm with
    | during first' rest' => rw [first.unique first', ih rest']

end Account

namespace Incident

theorem linesAfter_lines (i : Incident) : i.own.LinesAfter i.earlier i.lines := by
  rw [lines]
  -- The lines of what came earlier are put before those of the fault one by one.
  induction i.earlier with
  | nil => exact .alone i.own.lines_lines
  | cons e rest ih =>
    obtain ⟨a, link⟩ := e
    rw [List.flatMap_cons, List.append_assoc]
    cases link with
    | cause => exact .caused a.lines_lines ih
    | context => exact .during a.lines_lines ih

/-- **The trace of a fault tells all that is to be told of it** … -/
theorem tells_trace (i : Incident) : i.Tells i.trace :=
  ⟨i.lines, i.linesAfter_lines, rfl⟩

/-- … and there is no other way to tell it. -/
theorem Tells.unique {i : Incident} {s t : String} (hs : i.Tells s) (ht : i.Tells t) : s = t := by
  obtain ⟨ls, hls, rfl⟩ := hs
  obtain ⟨ms, hms, rfl⟩ := ht
  rw [hls.unique hms]

/-- A fault that was told by another is told before it. -/
example : (raised (.server "refused" (some 404) "" (some (.status 404 "Not Found")))).trace =
    "Traceback (most recent call last):\n  ...\nurllib.error.HTTPError: HTTP Error 404: Not Found\n\n" ++
    "The above exception was the direct cause of the following exception:\n\n" ++
    "Traceback (most recent call last):\n  ...\nconduit.exceptions.ExecutionServerError: refused\n" := by
  decide +kernel

end Incident

end ModelServer
