import ModelServer.Proofs.Except
import ModelServer.Proofs.Fault
import ModelServer.Testing.Outcome

/-!
# What becomes of reports

A runner reports older tests run by run and assertion by assertion, and tests one by one. Each becomes
one result, and `Result.Reports` is what a result has to say: under which ids, how it ended, and in
which words. How it ended is decided by a name that the runner gives, and only three names are known;
no other name makes a success or a failure of it. The fault that is recorded with it is told behind that
(`Incident.Adds`), with all that a trace tells.

A report is accepted if its ids are texts, whatever else is in it (`LegacyRun.Readable`,
`TestOutcome.Readable`), and one id that is no text is enough to refuse all of it. So what is reported
becomes results entry by entry or not at all (`results_of_readable`, `results_of_not_readable`).
-/

namespace ModelServer

/-! ### What results say -/

/-- The value has that name: that of the object, if it is one with a name, and else its text. -/
inductive Value.Named : Value → String → Prop
  | object (text name : String) : Named (.foreign (.object text (some name))) name
  | text {v : Value} (nameless : ∀ text name, v ≠ .foreign (.object text (some name))) :
    Named v v.describe

theorem Value.named_outcomeName (v : Value) : v.Named v.outcomeName := by
  rw [outcomeName.eq_def]
  split
  · exact .object _ _
  · next hne => exact .text fun text name h ↦ hne _ _ h

theorem Value.Named.eq_of_text {text name : String} (h : Named (.text text) name) : name = text := by
  cases h with
  | text nameless => rfl

/-- That is what a fault adds to a message: all that is to be told of it, from a new line on, and nothing if
there is none. -/
inductive Incident.Adds : Option Incident → String → Prop
  | nothing : Adds none ""
  | trace {i : Incident} {text : String} (tells : i.Tells text) : Adds (some i) ("\n" ++ text)

/-- There is one way to add to a message. -/
theorem Incident.Adds.unique {fault : Option Incident} {s t : String} (hs : Adds fault s)
    (ht : Adds fault t) : s = t := by
  cases hs with
  | nothing =>
    cases ht
    rfl
  | trace tells =>
    cases ht with
    | trace tells' => rw [tells.unique tells']

theorem exists_withTrace_eq (message : String) (fault : Option Incident) :
    ∃ added, Incident.Adds fault added ∧ withTrace message fault = message ++ added := by
  cases fault with
  | none => exact ⟨"", .nothing, String.append_empty.symm⟩
  | some i => exact ⟨"\n" ++ i.trace, .trace i.tells_trace, String.append_assoc⟩

/-- The result is under those ids, ended as the name says, and says so: its message is the ids with dots
between them, the name, and what else there is to tell. A name that is not known is a warning. -/
structure Result.Reports (under : List String) (name more : String) (r : Result) : Prop where
  ids : r.ids = under
  success : r.outcome = .success ↔ name = "SUCCESS"
  failure : r.outcome = .failure ↔ name = "FAILURE"
  error : r.outcome = .error ↔ name = "ERROR"
  warning : r.outcome = .warning ↔ name ≠ "SUCCESS" ∧ name ≠ "FAILURE" ∧ name ≠ "ERROR"
  message : r.message = ".".intercalate under ++ ": " ++ name ++ more

namespace Result

/-- A result that takes its outcome from the name reports it. -/
theorem reports_of_ofName {r : Result} {under : List String} {name more : String}
    (hids : r.ids = under) (houtcome : r.outcome = .ofName name)
    (hmessage : r.message = ".".intercalate under ++ ": " ++ name ++ more) :
    r.Reports under name more := by
  rw [Outcome.ofName] at houtcome
  refine ⟨hids, ?_, ?_, ?_, ?_, hmessage⟩ <;> rw [houtcome] <;> split_ifs <;> simp_all

/-- Ids are accepted exactly if they are texts. -/
theorem checkIds_eq_ok_iff {vs : List Value} {ids : List String} :
    checkIds vs = .ok ids ↔ vs = ids.map .text := by
  induction vs generalizing ids with
  | nil => cases ids <;> simp [checkIds]
  | cons v rest ih =>
    cases v with
    | text s =>
      rw [checkIds, map_eq_ok_iff]
      cases ids <;> simp [ih, and_comm]
    | null | bool | int | float | list | record | foreign => cases ids <;> simp [checkIds]

theorem ofIds_text (id : String) (ids : List String) (outcome : Outcome) (message : String)
    (logMessage : Option String) (location : Option Location) :
    ofIds (.text id :: ids.map .text) outcome message logMessage location =
      .ok ⟨id :: ids, outcome, message, logMessage, location, List.cons_ne_nil id ids⟩ := by
  rw [ofIds, ← List.map_cons, checkIds_eq_ok_iff.2 rfl]
  rfl

theorem ofIds_of_not_text {vs : List Value} (h : ∀ ids : List String, vs ≠ ids.map .text)
    (outcome : Outcome) (message : String) (logMessage : Option String) (location : Option Location) :
    ∃ f, ofIds vs outcome message logMessage location = .error f := by
  rw [ofIds]
  cases hids : checkIds vs with
  | ok ids => exact absurd (checkIds_eq_ok_iff.1 hids) (h ids)
  | error f => exact ⟨f, rfl⟩

end Result

/-! ### Runs of older tests -/

theorem Value.sameKey_text_iff {v : Value} {a : String} : sameKey v (.text a) = true ↔ v = .text a := by
  cases v with
  | foreign f => cases f <;> simp [sameKey, Data.key?]
  | float x => cases h : x.toInt? <;> simp [sameKey, Data.key?, h]
  | null | bool | int | text | list | record => simp [sameKey, Data.key?]

namespace LegacyRun

/-- What the run records for the assertion: the fault of its first entry, if it has one. -/
inductive Records (run : LegacyRun) (assertion : String) : Option Incident → Prop
  | entered {before after : List (Value × Option Incident)} {fault : Option Incident}
      (faults : run.faults = before ++ (.text assertion, fault) :: after)
      (first : ∀ e ∈ before, e.1 ≠ .text assertion) : Records run assertion fault
  | missing (nowhere : ∀ e ∈ run.faults, e.1 ≠ .text assertion) : Records run assertion none

theorem records_fault? (run : LegacyRun) (assertion : String) :
    run.Records assertion (run.fault? (.text assertion)) := by
  rw [fault?]
  cases hfind : run.faults.find? fun f ↦ Value.sameKey f.1 (.text assertion) with
  | none =>
    refine .missing fun e he h ↦ List.find?_eq_none.1 hfind e he ?_
    exact Value.sameKey_text_iff.2 h
  | some e =>
    obtain ⟨hkey, before, after, hfaults, hbefore⟩ := List.find?_eq_some_iff_append.1 hfind
    obtain ⟨key, fault⟩ := e
    obtain rfl : key = .text assertion := Value.sameKey_text_iff.1 hkey
    refine .entered hfaults fun e he h ↦ ?_
    have hother := hbefore e he
    rw [Value.sameKey_text_iff.2 h] at hother
    cases hother

/-- The assertions of the run have texts for names. -/
def Readable (run : LegacyRun) : Prop :=
  ∀ entry ∈ run.outcomes, ∃ assertion, entry.1 = .text assertion

/-- The result tells of the outcome of one assertion of the run: under the element and the assertion, and
with the trace of the fault that is recorded for just this assertion. -/
def Tells (path : String) (run : LegacyRun) (entry : Value × Value) (r : Result) : Prop :=
  ∃ assertion name fault added, entry.1 = .text assertion ∧ entry.2.Named name ∧
    run.Records assertion fault ∧ Incident.Adds fault added ∧ r.Reports [path, assertion] name added

variable (path : String) (location : Option Location)

theorem result_of_text (run : LegacyRun) {entry : Value × Value} {assertion : String}
    (h : entry.1 = .text assertion) :
    ∃ r, run.result (.text path) location entry = .ok r ∧ run.Tells path entry r := by
  let name := entry.2.outcomeName
  let message := path ++ "." ++ assertion ++ ": " ++ name
  have hresult : run.result (.text path) location entry = .ok ⟨[path, assertion], .ofName name,
      withTrace message (run.fault? (.text assertion)), none, location, List.cons_ne_nil _ _⟩ := by
    rw [result, h]
    exact Result.ofIds_text path [assertion] ..
  obtain ⟨added, hadds, hmessage⟩ := exists_withTrace_eq message (run.fault? (.text assertion))
  exact ⟨_, hresult, assertion, name, _, added, h, entry.2.named_outcomeName,
    run.records_fault? assertion, hadds, Result.reports_of_ofName rfl rfl hmessage⟩

theorem result_of_not_text (run : LegacyRun) {entry : Value × Value}
    (h : ∀ assertion, entry.1 ≠ .text assertion) :
    ∃ f, run.result (.text path) location entry = .error f := by
  refine Result.ofIds_of_not_text (fun ids hids ↦ ?_) ..
  match ids with
  | [] | [_] | _ :: _ :: _ :: _ => simp at hids
  | [_, assertion] =>
    simp only [List.map_cons, List.map_nil, List.cons.injEq, and_true] at hids
    exact h assertion hids.2

/-- The assertions of the runs, each with its run: run by run, and in the order of each run. -/
def assertions (runs : List LegacyRun) : List (LegacyRun × Value × Value) :=
  runs.flatMap fun run ↦ run.outcomes.map (run, ·)

theorem mem_assertions {runs : List LegacyRun} {run : LegacyRun} {entry : Value × Value} :
    (run, entry) ∈ assertions runs ↔ run ∈ runs ∧ entry ∈ run.outcomes := by
  simp [assertions]

/-- **Each assertion of each run becomes one result**, in order. -/
theorem results_of_readable {runs : List LegacyRun} (h : ∀ run ∈ runs, run.Readable) :
    ∃ rs, results (.text path) runs location = .ok rs ∧
      List.Forall₂ (fun a r ↦ a.1.Tells path a.2 r) (assertions runs) rs := by
  refine exists_mapM_eq_ok fun (run, entry) hmem ↦ ?_
  obtain ⟨hrun, hentry⟩ := mem_assertions.1 hmem
  obtain ⟨assertion, hassertion⟩ := h run hrun entry hentry
  exact run.result_of_text path location hassertion

/-- **One assertion whose name is no text is enough to refuse all runs.** -/
theorem results_of_not_readable {runs : List LegacyRun} (h : ¬∀ run ∈ runs, run.Readable) :
    ∃ f, results (.text path) runs location = .error f := by
  simp only [Readable, not_forall, not_exists] at h
  obtain ⟨run, hrun, entry, hentry, hname⟩ := h
  have hrefused : ∃ a ∈ assertions runs, ∃ f, a.1.result (.text path) location a.2 = .error f :=
    ⟨(run, entry), mem_assertions.2 ⟨hrun, hentry⟩, run.result_of_not_text path location hname⟩
  obtain ⟨-, -, f, -, hf⟩ := mapM_eq_error hrefused
  exact ⟨f, hf⟩

end LegacyRun

/-! ### Outcomes of tests -/

namespace TestOutcome

/-- Those are the ids of the outcome: of its suite, of its test, and of its assertion if it is of one. -/
def HasIds (o : TestOutcome) (ids : List String) : Prop :=
  [o.suite, o.test] ++ o.assertion.toList = ids.map .text

/-- The ids of the outcome are texts. -/
def Readable (o : TestOutcome) : Prop :=
  ∃ ids, o.HasIds ids

/-- What the runner has to say of a test, on a line of its own; nothing if that is nothing. -/
def said (message : Value) : String :=
  if message.isNothing then "" else "\n" ++ message.describe

/-- The result tells of the outcome: under the element and the ids of the outcome, with what the runner has
to say and the trace of the fault that comes with it. -/
def Tells (path : String) (o : TestOutcome) (r : Result) : Prop :=
  ∃ ids name added, o.HasIds ids ∧ o.code.Named name ∧ Incident.Adds o.fault added ∧
    r.Reports (path :: ids) name (said o.message ++ added)

theorem HasIds.texts {o : TestOutcome} {ids : List String} (h : o.HasIds ids) :
    ∃ suiteId testId, o.suite = .text suiteId ∧ o.test = .text testId := by
  match ids with
  | [] | [_] => simp [HasIds] at h
  | suiteId :: testId :: _ =>
    simp only [HasIds, List.cons_append, List.nil_append, List.map_cons, List.cons.injEq] at h
    exact ⟨suiteId, testId, h.1, h.2.1⟩

/-- Texts are joined, and nothing else is. -/
theorem joinIds_eq_ok_iff {vs : List Value} {ids : List String} {index : Nat} :
    joinIds index vs = .ok ids ↔ vs = ids.map .text := by
  induction vs generalizing ids index with
  | nil => cases ids <;> simp [joinIds]
  | cons v rest ih =>
    cases v with
    | text s =>
      rw [joinIds, map_eq_ok_iff]
      cases ids <;> simp [ih, and_comm]
    | null | bool | int | float | list | record | foreign => cases ids <;> simp [joinIds]

variable (path : String) (suites : List (TestSuite Location)) (fallback : Option Location)

theorem result_of_hasIds {o : TestOutcome} {ids : List String} (h : o.HasIds ids) :
    ∃ r, o.result (.text path) suites fallback = .ok r ∧ o.Tells path r ∧
      r.location = o.location suites fallback := by
  have hall : [Data.text path, o.suite, o.test] ++ o.assertion.toList =
      .text path :: ids.map .text := by rw [← h]; rfl
  have hjoin : joinIds 0 (.text path :: ids.map .text) = .ok (path :: ids) :=
    joinIds_eq_ok_iff.2 rfl
  let name := o.code.outcomeName
  let heading := ".".intercalate (path :: ids) ++ ": " ++ name
  let message := if o.message.isNothing then heading else heading ++ "\n" ++ o.message.describe
  have hmessage : message = heading ++ said o.message := by
    simp only [message, said]
    split
    · exact String.append_empty.symm
    · exact String.append_assoc
  have hresult : o.result (.text path) suites fallback = .ok ⟨path :: ids, .ofName name,
      withTrace message o.fault, none, o.location suites fallback, List.cons_ne_nil _ _⟩ := by
    rw [result]
    dsimp only
    rw [hall, hjoin]
    exact Result.ofIds_text path ids ..
  obtain ⟨added, hadds, htrace⟩ := exists_withTrace_eq message o.fault
  refine ⟨_, hresult, ⟨ids, name, added, h, o.code.named_outcomeName, hadds,
    Result.reports_of_ofName rfl rfl ?_⟩, rfl⟩
  show withTrace message o.fault = heading ++ _
  rw [htrace, hmessage, String.append_assoc]

theorem result_of_not_readable {o : TestOutcome} (h : ¬o.Readable) :
    ∃ f, o.result (.text path) suites fallback = .error f := by
  rw [result]
  dsimp only
  cases hjoin : joinIds 0 ([Data.text path, o.suite, o.test] ++ o.assertion.toList) with
  | error f => exact ⟨f, rfl⟩
  | ok joined =>
    -- All ids were joined, so they are texts.
    have hids := joinIds_eq_ok_iff.1 hjoin
    cases joined with
    | nil => cases hids
    | cons id ids => exact absurd ⟨ids, (List.cons.inj hids).2⟩ h

/-- **Each outcome becomes one result**, in the order in which they are reported. -/
theorem results_of_readable {outcomes : List TestOutcome} (h : ∀ o ∈ outcomes, o.Readable) :
    ∃ rs, results (.text path) suites outcomes fallback = .ok rs ∧
      List.Forall₂ (fun o r ↦ o.Tells path r ∧ r.location = o.location suites fallback) outcomes rs :=
  exists_mapM_eq_ok fun o ho ↦ (h o ho).elim fun _ hids ↦ result_of_hasIds path suites fallback hids

/-- **One id that is no text is enough to refuse all outcomes.** -/
theorem results_of_not_readable {outcomes : List TestOutcome} (h : ¬∀ o ∈ outcomes, o.Readable) :
    ∃ f, results (.text path) suites outcomes fallback = .error f := by
  simp only [not_forall] at h
  obtain ⟨o, ho, hids⟩ := h
  obtain ⟨-, -, f, -, hf⟩ := mapM_eq_error ⟨o, ho, result_of_not_readable path suites fallback hids⟩
  exact ⟨f, hf⟩

end TestOutcome

end ModelServer
