import ModelServer.Grammar.Testable

/-!
# The grammar of runtimes

Runtimes offer no commands; what they have are references.
-/

namespace ModelServer.RuntimeGrammar

variable {H : Type}

/-- The references of a runtime: those of its header, then those of what it is made of. -/
def references (e : Element) : List ReferenceSource :=
  match e.runtime? with
  | some r =>
    [.items (Reference.ofStereotypes e.header.stereotypes ++
      Reference.ofTaggedValues e.header.taggedValues ++ Reference.ofRuntime (some (.engine r)))]
  | none => []

/-- The extension. -/
def extension : Extension H :=
  { Testable.bare "Runtime" "RuntimeExtension" [.runtime] ["Runtime", "import"] with
    references := fun _ ↦ references }

end ModelServer.RuntimeGrammar
