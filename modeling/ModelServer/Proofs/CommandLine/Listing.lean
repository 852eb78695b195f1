import Mathlib.Data.List.ReduceOption
import ModelServer.Proofs.CommandLine.Run
import ModelServer.Proofs.Server.References

/-!
# What the program lists

The program that lists references goes through all of them, while an editor that asks for a definition
stops at the first. Here is what the listing of a section contains (`Server.listingOf`), and that this is
what the program prints, in the order of documents and sections (`CommandLine.listReferences_eq`).
-/

namespace ModelServer

variable [Depths]

variable {H : Type}

/-- What is listed of a section in a project with that model: where each reference stands that is there,
and where it leads to. -/
def Server.listingOf (v : Server H) (m : CompiledModel) (sec : Section) :
    List (Location × Option Location) :=
  (v.referencesOf (.model m) sec).reduceOption.map fun r ↦ (r.location, r.resolve m)

namespace CommandLine

variable {v : Server H} {w : Workspace}

/-- An entry of a listing. -/
def entryJson (e : Location × Option Location) : Json :=
  referenceJson e.1 e.2

/-- What the program does when the documents are open. -/
def reportReferences (v : Server H) (ids : List String) : Run H Report := do
  match ← Run.ofAction v.collaborators.compile with
  | .model m =>
    let sections ← ids.mapM fun id ↦ Run.ofAction (Server.sections id)
    let entries ← sections.flatten.mapM (sectionReferences v m)
    return .finished 0 (printed (.list entries.flatten)) ""
  | .faulty f => return .finished 1 "" ("compile failed: " ++ Text.shown f.message ++ "\n")
  | .nothing => return .finished 1 "" "compile failed: None\n"

theorem listReferences_eq (sh : Shell H) (src : Sources) :
    listReferences sh src = sh.start src >>= fun p ↦ reportReferences p.1 p.2 :=
  rfl

/-- What is yielded of a section is its listing. -/
theorem yields_sectionReferences (hp : v.collaborators.provider = DocumentProvider.provider)
    (hw : w.Sound) {m : CompiledModel} (hm : Compiled.ofSections w.allSections = .model m)
    {sec : Section} (hsec : w.Held sec) :
    w.Yields (sectionReferences v m sec) ((v.listingOf m sec).map entryJson) := by
  rw [sectionReferences, Server.listingOf]
  cases hx : v.extensionFor sec with
  | none =>
    rw [Server.referencesOf, hx]
    exact .pure _
  | some x =>
    have hall := Workspace.Answers.allReferences hp hw hsec hx
    rw [hm] at hall
    have hentries (rs : List (Option Reference)) :
        (rs.filterMap fun r ↦ r.map fun r ↦ referenceJson r.location (r.resolve m)) =
          (rs.reduceOption.map fun r ↦ (r.location, r.resolve m)).map entryJson := by
      rw [List.reduceOption, List.map_map, List.map_filterMap]
      rfl
    refine (Workspace.Yields.ofAction hall).bind ?_
    rw [← hentries]
    exact .pure _

/-- **What is printed is the listing of each section of each document**, in order. -/
theorem yields_reportReferences (hp : v.collaborators.provider = DocumentProvider.provider)
    (hw : w.Sound) {m : CompiledModel} (hm : Compiled.ofSections w.allSections = .model m)
    (ids : List String) :
    w.Yields (reportReferences v ids) (.finished 0 (printed (.list
      (((ids.flatMap w.sectionsOf).flatMap (v.listingOf m)).map entryJson))) "") := by
  have hcompile := Workspace.Answers.compile hp hw
  rw [hm] at hcompile
  have hsections (id : String) (_ : id ∈ ids) :
      w.Yields (Run.ofAction (Server.sections id) : Run H _) (w.sectionsOf id) :=
    .ofAction (.bind_workspace fun w' hw' ↦ hw'.sectionsOf id ▸ .pure _)
  have hentries (sec : Section) (hsec : sec ∈ (ids.map w.sectionsOf).flatten) :
      w.Yields (sectionReferences v m sec) ((v.listingOf m sec).map entryJson) := by
    obtain ⟨_, hids, hmem⟩ := List.mem_flatten.1 hsec
    obtain ⟨id, -, rfl⟩ := List.mem_map.1 hids
    exact yields_sectionReferences hp hw hm (hw.held hmem).2
  rw [List.map_flatMap, List.flatMap_def, List.flatMap_def]
  exact (Workspace.Yields.ofAction hcompile).bind
    ((Workspace.Yields.mapM hsections).bind ((Workspace.Yields.mapM hentries).bind (.pure _)))

end CommandLine

end ModelServer
