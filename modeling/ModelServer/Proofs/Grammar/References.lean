import ModelServer.Proofs.Reference
import ModelServer.Proofs.Server.Queries
import ModelServer.Proofs.Workspace.Exactness

/-!
# The references that each grammar finds

Each of the extensions that are always there says where the references of an element come from. What
comes from there, in a project that compiled or did not, are the references of what the element's
declaration mentions (`Declaration.mentions`).

For services this takes two things that the extension itself does not know: that runtimes have an
extension, and that the form which a model has for the path of the service is that of this very
declaration. The second is where the uniqueness of paths in a project that compiles comes in.
-/

namespace ModelServer

variable {H : Type}

/-- What the sources of references of an element come to in a project that compiled to `r`. -/
def Extension.found (x : Extension H) (s : Surroundings H) (r : Compiled) (e : Element) :
    List (Option Reference) :=
  (x.references s e).flatMap (·.expanded r)

theorem Extension.found_of_items {x : Extension H} {s : Surroundings H} {e : Element}
    {items : List (Option Reference)} (h : x.references s e = [.items items]) (r : Compiled) :
    x.found s r e = items := by
  rw [found, h]
  exact List.append_nil _

theorem Extension.found_of_items_compiled {x : Extension H} {s : Surroundings H} {e : Element}
    {items : List (Option Reference)} {path : String}
    (h : x.references s e = [.items items, .compiled path]) (r : Compiled) :
    x.found s r e = items ++ (ReferenceSource.compiled path).expanded r := by
  rw [found, h, List.flatMap_cons, List.flatMap_singleton]
  rfl

/-- The project has for each of these forms no other under its path, if it compiled. -/
def Compiled.Knows (r : Compiled) (forms : List CompiledService) : Prop :=
  ∀ m, r.model? = some m → ∀ c ∈ forms, m.form? c.path = some c

namespace ReferenceSource

/-- Without a model nothing comes from the compiled form of a service. -/
theorem expanded_of_uncompiled {r : Compiled} (h : r.model? = none) (path : String) :
    (compiled path).expanded r = [] := by
  rw [expanded, h]
  rfl

theorem expanded_of_compiled {r : Compiled} {m : CompiledModel} (h : r.model? = some m)
    {c : CompiledService} (hc : m.form? c.path = some c) :
    (compiled c.path).expanded r = c.mentions.map Mention.reference := by
  rw [expanded, h, Option.bind_some, hc]
  exact Reference.ofCompiled_eq c

end ReferenceSource

/-! ### Services -/

namespace ServiceGrammar

variable {s : Surroundings H}

theorem bindingReferences_eq (hs : s.has .runtime = true) (b : Binding Location) :
    bindingReferences s b = b.mentions.map Mention.reference := by
  rw [bindingReferences, if_pos hs, Reference.toElement?_eq, Reference.ofRuntime_eq,
    Binding.mentions, List.map_cons]

theorem executionReferences_eq (hs : s.has .runtime = true) (e : Option (Execution Location)) :
    executionReferences s e = (e.toList.flatMap (·.mentions)).map Mention.reference := by
  rcases e with _ | ⟨func, b⟩ | ⟨func, key, variants⟩
  · rfl
  · rw [executionReferences, bindingReferences_eq hs, Option.toList_some, List.flatMap_singleton,
      Execution.mentions, Execution.bindings, List.flatMap_singleton]
  · have hvariant (v : Variant Location) :
        bindingReferences s v.binding = v.binding.mentions.map Mention.reference :=
      bindingReferences_eq hs v.binding
    rw [executionReferences, Reference.flatMap_eq_map_reference hvariant, Option.toList_some,
      List.flatMap_singleton, Execution.mentions, Execution.bindings, List.flatMap_map]

/-- What of a service is known without compiling. -/
theorem items_eq (hs : s.has .runtime = true) (e : Option (Execution Location))
    (h : Header Location) :
    executionReferences s e ++ Reference.ofStereotypes h.stereotypes ++
        Reference.ofTaggedValues h.taggedValues =
      (e.toList.flatMap (·.mentions) ++ h.mentions).map Mention.reference := by
  rw [executionReferences_eq hs, List.append_assoc, Reference.ofHeader_eq, List.map_append]

/-- What the compiled form of a service mentions is what its declaration says of the lambda and the
conditions. -/
theorem mentions_of_compiled? {document : String} {d : Declaration} {c : CompiledService}
    (h : d.compiled? document = some c) (e : Element) (he : e = d.toElement document) :
    c.mentions = ((e.service?.bind (·.execution)).bind (·.func)).toList.flatMap (·.mentions) ++
      (d.conditions.map (·.map (Location.mk document))).flatMap (·.mentions) := by
  subst he
  cases d with
  | service header service conditions =>
    have hform := Declaration.compiled?_service document header service conditions
    obtain rfl := Option.some.inj (hform.symm.trans h)
    rfl
  | mapping | runtime | profile | function => cases h

/-- **The references of a service**, and of nothing else in its section. -/
theorem found_eq [Depths] (hs : s.has .runtime = true) {r : Compiled} {document : String}
    {d : Declaration} (hr : r.Knows (d.compiled? document).toList) :
    (extension (H := H)).found s r (d.toElement document) =
      (d.mentions document "Service" r.model?.isSome).map Mention.reference := by
  cases d with
  | service h service conditions =>
    let d := Declaration.service h service conditions
    have hform : d.compiled? document = some _ :=
      Declaration.compiled?_service document h service conditions
    rw [Extension.found_of_items_compiled rfl, items_eq hs]
    cases hm : r.model? with
    | none =>
      rw [ReferenceSource.expanded_of_uncompiled hm, List.append_nil]
      exact congrArg _ (List.append_nil _).symm
    | some m =>
      have hknown := hr m hm _ (Option.mem_toList.2 hform)
      have hlater := ReferenceSource.expanded_of_compiled hm hknown
      rw [hlater, mentions_of_compiled? hform _ rfl, ← List.map_append]
      rfl
  | mapping | runtime | profile | function => rfl

end ServiceGrammar

/-! ### Runtimes and functions -/

/-- **The references of a runtime**, and of nothing else in its section. -/
theorem RuntimeGrammar.found_eq (s : Surroundings H) (r : Compiled) (document : String)
    (d : Declaration) :
    (extension (H := H)).found s r (d.toElement document) =
      (d.mentions document "Runtime" r.model?.isSome).map Mention.reference := by
  cases d with
  | runtime h runtime =>
    rw [Extension.found_of_items rfl, Reference.ofHeader_eq, Reference.ofRuntime_eq,
      ← List.map_append, Option.toList_some, List.flatMap_singleton]
    rfl
  | service | mapping | profile | function => rfl

/-- **The references of a function**, and of nothing else in its section. -/
theorem FunctionGrammar.found_eq (s : Surroundings H) (r : Compiled) (document : String)
    (d : Declaration) :
    (extension (H := H)).found s r (d.toElement document) =
      (d.mentions document "Function" r.model?.isSome).map Mention.reference := by
  cases d with
  | function h f =>
    rw [Extension.found_of_items rfl, Reference.ofHeader_eq, Reference.ofLambda_eq,
      ← List.map_append]
    rfl
  | service | mapping | runtime | profile => rfl

end ModelServer
