import ModelServer.CommandLine.Run
import ModelServer.Proofs.Except
import ModelServer.Proofs.Server.History

/-!
# How the program runs

The program is a sequence of steps of its own and of actions of a server. `Workspace.Yields` is for the
program what `Workspace.Answers` is for the server: nothing changes but what is remembered, and what was
remembered before makes no difference.

An invocation first opens its documents. To open them is to set one text after the other
(`Shell.opening`), so what the program finds afterwards is what a server finds after these operations
(`Shell.Opens.start_apply`), and all that is known of histories is known of it.
-/

namespace ModelServer

variable [Depths]

variable {H : Type}

namespace CommandLine.Run

variable {α β : Type} {s s' : Session H}

omit [Depths] in
theorem bind_of_ok {x : Run H α} {a : α} (h : x s = (.ok a, s')) (f : α → Run H β) :
    (x >>= f) s = f a s' := by
  change ExceptT.bind x f s = _
  simp only [ExceptT.bind, ExceptT.mk, Bind.bind, StateT.bind, h]
  rfl

omit [Depths] in
theorem bind_of_error {x : Run H α} {stop : Stop} (h : x s = (.error stop, s')) (f : α → Run H β) :
    (x >>= f) s = (.error stop, s') := by
  change ExceptT.bind x f s = _
  simp only [ExceptT.bind, ExceptT.mk, Bind.bind, StateT.bind, h]
  rfl

omit [Depths] in
theorem ofAction_of_ok {act : Action H α} {a : α} (h : act s = (.ok a, s')) :
    ofAction act s = (.ok a, s') := by
  rw [ofAction, h]
  rfl

omit [Depths] in
theorem ofAction_of_error {act : Action H α} {f : Fault} (h : act s = (.error f, s')) :
    ofAction act s = (.error (.fault f), s') := by
  rw [ofAction, h]
  rfl

end CommandLine.Run

namespace Workspace

open CommandLine

variable {w : Workspace} {α β : Type}

/-- Where the documents of `w` are open the program gets `a`, and nothing else comes of it than that more
may be remembered. -/
def Yields (w : Workspace) (x : Run H α) (a : α) : Prop :=
  ∀ s : Session H, w.Learns s.workspace →
    ∃ w', w.Learns w' ∧ x s = (.ok a, { s with workspace := w' })

namespace Yields

theorem pure (a : α) : w.Yields (Pure.pure a : Run H α) a :=
  fun s hs ↦ ⟨s.workspace, hs, rfl⟩

theorem bind {x : Run H α} {f : α → Run H β} {a : α} {b : β} (hx : w.Yields x a)
    (hf : w.Yields (f a) b) : w.Yields (x >>= f) b := by
  intro s hs
  obtain ⟨w₁, hw₁, hrun⟩ := hx s hs
  obtain ⟨w₂, hw₂, hrun'⟩ := hf { s with workspace := w₁ } hw₁
  exact ⟨w₂, hw₂, (CommandLine.Run.bind_of_ok hrun f).trans hrun'⟩

theorem ofAction {act : Action H α} {a : α} (h : w.Answers act (.ok a)) :
    w.Yields (Run.ofAction act) a := by
  intro s hs
  obtain ⟨w', hw', hrun⟩ := h s hs
  refine ⟨w', hw', ?_⟩
  rw [Run.ofAction, hrun]
  rfl

/-- One after the other. -/
theorem mapM {f : α → Run H β} {g : α → β} {as : List α} (h : ∀ a ∈ as, w.Yields (f a) (g a)) :
    w.Yields (as.mapM f) (as.map g) := by
  induction as with
  | nil => exact pure _
  | cons a rest ih =>
    obtain ⟨hfirst, hrest⟩ := List.forall_mem_cons.1 h
    rw [List.mapM_cons]
    exact hfirst.bind ((ih hrest).bind (pure _))

end Yields

end Workspace

/-! ### Documents that declare an element -/

/-- The text of that document declares the element. -/
def Texts.declares (texts : Texts) (entity id : String) : Bool :=
  (texts.sectionsOf id).any fun s ↦ (s.parse.element? entity).isSome

/-- In a history the documents that declare an element are those whose texts do. -/
theorem History.Follows.find?_isSome {texts : Texts} {h : History H} (hf : Follows texts h)
    (entity id : String) :
    ((h.session.workspace.sectionsOf id).find? fun s ↦ (s.parse.element? entity).isSome).isSome =
      texts.declares entity id := by
  rw [List.isSome_find?, Texts.declares, ← hf.sectionsOf, List.any_map]
  rfl

/-- To set a document changes the workspace alone. -/
theorem Operation.exists_session_set {v : Server H}
    (hp : v.collaborators.provider = DocumentProvider.provider) (h : History H) (id text : String)
    (version : Int) :
    ∃ w, (Operation.run v h (.set id text version)).session = { h.session with workspace := w } := by
  rw [Operation.run, Collaborators.setDocument_apply hp]
  cases splitSections text with
  | ok parts => exact ⟨_, rfl⟩
  | error f => exact ⟨h.session.workspace, rfl⟩

namespace CommandLine

variable {v : Server H}

/-- **The program takes the first document that declares the element.** -/
theorem yields_documentOf (hp : v.collaborators.provider = DocumentProvider.provider) {texts : Texts}
    {h : History H} (hf : History.Follows texts h) {entity uri : String} {ids : List String}
    (hfirst : ids.find? (texts.declares entity) = some uri) :
    h.session.workspace.Yields (documentOf v entity ids) uri := by
  induction ids with
  | nil => cases hfirst
  | cons id rest ih =>
    rw [documentOf]
    refine (Workspace.Yields.ofAction (.findSection hp hf.sound id entity)).bind ?_
    have hfound := hf.find?_isSome entity id
    rw [List.find?_cons] at hfirst
    cases hsec : (h.session.workspace.sectionsOf id).find? fun s ↦
        (s.parse.element? entity).isSome with
    | some sec =>
      rw [hsec] at hfound
      rw [← hfound] at hfirst
      obtain rfl : id = uri := Option.some.inj hfirst
      exact .pure _
    | none =>
      rw [hsec] at hfound
      rw [← hfound] at hfirst
      exact ih hfirst

/-! ### Opening documents -/

/-- A server that was started reads documents as JSON, and has the extensions that are always there. -/
theorem of_start {e : Environment H} {settings : FileContent}
    (h : Server.start e settings = .ok v) :
    v.collaborators.provider = DocumentProvider.provider ∧
      v.extensions = Server.defaultExtensions := by
  obtain ⟨s, -, h⟩ := bind_eq_ok_iff.1 h
  obtain ⟨loaded, -, h⟩ := bind_eq_ok_iff.1 h
  cases h
  exact ⟨rfl, rfl⟩

namespace Shell

variable (sh : Shell H)

/-- The file under the path holds a text that can be opened. -/
def Readable (path : String) : Prop :=
  ∃ text parts, sh.readText path = .ok text ∧ splitSections text = .ok parts

/-- The text in the file under the path. -/
def text (path : String) : String :=
  (sh.readText path).toOption.getD ""

/-- The ids of the documents of an invocation, in order. -/
def ids (src : Sources) : List String :=
  (src.paths.map Path.plain).map sh.documentId

/-- What it is to a workspace that those files are opened. -/
def setting (paths : List String) : List Operation :=
  paths.map fun path ↦ .set (sh.documentId path) (sh.text path) 0

/-- What it is to a workspace that the documents of an invocation are opened. -/
def opening (src : Sources) : List Operation :=
  sh.setting (src.paths.map Path.plain)

/-- The texts that are open then. -/
def texts (src : Sources) : Texts :=
  Texts.openAfter (sh.opening src)

variable {sh}

theorem Readable.isFile {path : String} (h : sh.Readable path) : sh.isFile path = .ok true := by
  obtain ⟨text, parts, hread, -⟩ := h
  rw [Shell.isFile]
  rw [Shell.readText] at hread
  cases hfile : sh.file path with
  | octets _ | closed => rfl
  | missing | directory | tooLong =>
    rw [hfile] at hread
    cases hread

/-- To open documents changes the workspace alone. -/
theorem foldl_setting_session (hp : v.collaborators.provider = DocumentProvider.provider)
    (paths : List String) (before : History H) :
    ∃ w, ((sh.setting paths).foldl (Operation.run v) before).session =
      { before.session with workspace := w } := by
  induction paths generalizing before with
  | nil => exact ⟨before.session.workspace, rfl⟩
  | cons path rest ih =>
    obtain ⟨w, hset⟩ := Operation.exists_session_set hp before (sh.documentId path) (sh.text path) 0
    obtain ⟨w', hrest⟩ := ih (Operation.run v before (.set (sh.documentId path) (sh.text path) 0))
    rw [hset] at hrest
    exact ⟨w', hrest⟩

theorem notFiles_of_readable {paths : List String} (h : ∀ path ∈ paths, sh.Readable path) :
    sh.notFiles paths = .ok [] := by
  have haux (found : List String) :
      List.filterAuxM (fun path ↦ (sh.isFile path).map (!·)) paths found = .ok found := by
    induction paths generalizing found with
    | nil => rfl
    | cons path rest ih =>
      obtain ⟨hfirst, hrest⟩ := List.forall_mem_cons.1 h
      rw [List.filterAuxM, hfirst.isFile]
      exact ih hrest found
  rw [notFiles, List.filterM, haux]
  rfl

/-- To open a document is to set its text. -/
theorem openDocument_apply (hp : v.collaborators.provider = DocumentProvider.provider)
    {path : String} (h : sh.Readable path) (before : History H) :
    sh.openDocument v path before.session =
      (.ok (sh.documentId path),
        (Operation.run v before (.set (sh.documentId path) (sh.text path) 0)).session) := by
  obtain ⟨text, parts, hread, hparts⟩ := h
  have htext : sh.text path = text := by
    rw [Shell.text, hread]
    rfl
  have hset := Collaborators.setDocument_apply hp (sh.documentId path) text 0 before.session
  rw [hparts] at hset
  have hread' : Run.ofExcept (sh.readText path) before.session = (.ok text, before.session) := by
    rw [hread]
    rfl
  rw [openDocument, Run.bind_of_ok hread', Run.bind_of_ok (Run.ofAction_of_ok hset), htext,
    Operation.run, hset]
  rfl

theorem mapM_openDocument (hp : v.collaborators.provider = DocumentProvider.provider)
    {paths : List String} (h : ∀ path ∈ paths, sh.Readable path) (before : History H) :
    paths.mapM (sh.openDocument v) before.session =
      (.ok (paths.map sh.documentId),
        ((sh.setting paths).foldl (Operation.run v) before).session) := by
  induction paths generalizing before with
  | nil => rfl
  | cons path rest ih =>
    obtain ⟨hfirst, hrest⟩ := List.forall_mem_cons.1 h
    rw [List.mapM_cons, Run.bind_of_ok (openDocument_apply hp hfirst before),
      Run.bind_of_ok (ih hrest _)]
    rfl

/-- The invocation is of that server, and its documents can be opened. -/
structure Opens (sh : Shell H) (src : Sources) (v : Server H) : Prop where
  started : Server.start sh.environment (sh.file (settingsPath src)) = .ok v
  readable : ∀ path ∈ src.paths, sh.Readable (Path.plain path)

/-- **An invocation finds what a server finds when the documents were set.** -/
theorem Opens.start_apply {src : Sources} (h : sh.Opens src v) (host : H) :
    sh.start src (.new host) =
      (.ok (v, sh.ids src), (History.after v host (sh.opening src)).session) := by
  have hreadable : ∀ path ∈ src.paths.map Path.plain, sh.Readable path := by
    intro path hpath
    obtain ⟨p, hp, rfl⟩ := List.mem_map.1 hpath
    exact h.readable p hp
  have hserver : Run.ofExcept (Server.start sh.environment (sh.file (settingsPath src)))
      (Session.new host) = (.ok v, Session.new host) := by
    rw [h.started]
    rfl
  have hfiles : Run.ofExcept (sh.notFiles (src.paths.map Path.plain)) (Session.new host) =
      (.ok [], Session.new host) := by
    rw [notFiles_of_readable hreadable]
    rfl
  have hopen := mapM_openDocument (of_start h.started).1 hreadable (History.start host)
  rw [start, Run.bind_of_ok hserver, Run.bind_of_ok hfiles]
  exact Run.bind_of_ok hopen _

end Shell

end CommandLine

end ModelServer
