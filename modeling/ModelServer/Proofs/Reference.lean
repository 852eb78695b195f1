import ModelServer.Reference
import ModelServer.Proofs.Model.Declarations
import ModelServer.Proofs.Model.Places
import ModelServer.Proofs.Model.Walk

/-!
# What an element mentions

A `Mention` is a place in an element where something is named that is declared elsewhere. Both the
name and the place may be missing, and then the mention is none that can be followed:
`Mention.reference` is the item of the stream of references that a mention comes to.

`Declaration.mentions` lists what a declaration mentions: which parts are looked at, in which order,
and what counts in a section of which grammar. It speaks of the declaration alone. Of expressions it
takes the nodes in the order of `Expression.walk`.

That the references of the parts of an element are the references of what they mention is shown part by
part. Only for expressions is there something to do, since references are found by going through a tree
and dropping nodes on the way, while the walk goes through all nodes.
-/

namespace ModelServer

/-- Something that is named in an element, and where. -/
structure Mention where
  target : Option Target
  place : Option Location
  deriving DecidableEq, Repr

/-- The item that stands for the mention in a stream of references. -/
def Mention.reference (m : Mention) : Option Reference :=
  m.target.bind fun t ↦ m.place.map fun l ↦ ⟨l, t⟩

/-- **An item is absent exactly if the name or the place is missing.** -/
theorem Mention.reference_eq_none_iff {m : Mention} :
    m.reference = none ↔ m.target = none ∨ m.place = none := by
  obtain ⟨target, place⟩ := m
  cases target <;> cases place <;> simp [reference]

/-! ### The parts of an element -/

/-- An element is named by its path. -/
def ElementPointer.mention (p : ElementPointer Location) : Mention :=
  ⟨some (.element p.path), p.source⟩

def StereotypePointer.mention (s : StereotypePointer Location) : Mention :=
  ⟨some (.stereotype s.profile s.value), s.source⟩

def TaggedValue.mention (t : TaggedValue Location) : Mention :=
  ⟨some (.tag t.profile t.tag), t.source⟩

/-- What a node mentions, if it points at an element. -/
def Expression.mention? (e : Expression Location) : Option Mention :=
  e.reference.map fun path ↦ ⟨some (.element path), e.source⟩

/-- What an expression mentions, node by node. -/
def Expression.mentions (e : Expression Location) : List Mention :=
  e.nodes.filterMap Expression.mention?

def Lambda.mentions (l : Lambda Location) : List Mention :=
  l.body.flatMap (·.mentions)

/-- What is given to the conditions comes before the conditions themselves. -/
def PostValidation.mentions (v : PostValidation Location) : List Mention :=
  v.parameters.flatMap (·.mentions) ++
    v.assertions.flatMap fun a ↦ a.assertion.toList.flatMap (·.mentions)

def EngineRuntime.mentions (r : EngineRuntime Location) : List Mention :=
  (r.mappings ++ r.connections).map (·.mention)

def RuntimeValue.mentions : RuntimeValue Location → List Mention
  | .pointer p => [p.mention]
  | .engine r => r.mentions

/-- The mapping comes first. Its item is there even if no mapping is named. -/
def Binding.mentions (b : Binding Location) : List Mention :=
  ⟨b.mapping.map .element, b.mappingSource⟩ :: b.runtime.toList.flatMap (·.mentions)

def Execution.mentions (e : Execution Location) : List Mention :=
  e.bindings.flatMap (·.mentions)

/-- The stereotypes come before the tagged values. -/
def Header.mentions (h : Header Location) : List Mention :=
  h.stereotypes.map (·.mention) ++ h.taggedValues.map (·.mention)

/-- What the compiled form of a service mentions: first what its lambda does, then what its conditions
do. -/
def CompiledService.mentions (c : CompiledService) : List Mention :=
  c.func.toList.flatMap (·.mentions) ++ c.postValidations.flatMap (·.mentions)

/-! ### Declarations -/

/-- What a declaration mentions that stands in a section of a document. A service counts in a section
of services, a runtime in one of runtimes and a function in one of functions, and nothing else counts
anywhere. What the lambda of a service and its conditions mention counts only if the project
compiles. -/
def Declaration.mentions (document grammar : String) (compiles : Bool) (d : Declaration) :
    List Mention :=
  let header := (d.toElement document).header.mentions
  match grammar, d.content document with
  | "Service", .service s =>
    s.execution.toList.flatMap (·.mentions) ++ header ++
      if compiles then
        (s.execution.bind (·.func)).toList.flatMap (·.mentions) ++
          (d.conditions.map (·.map (Location.mk document))).flatMap (·.mentions)
      else []
  | "Runtime", .runtime r => header ++ r.mentions
  | "Function", .function f => header ++ f.func.toList.flatMap (·.mentions)
  | _, _ => []

/-! ### References are found where something is mentioned -/

namespace Reference

variable {α : Type}

/-- Where each item has the references of what it mentions, all items together do. -/
theorem flatMap_eq_map_reference {references : α → List (Option Reference)}
    {mentions : α → List Mention} (h : ∀ a, references a = (mentions a).map Mention.reference)
    (as : List α) : as.flatMap references = (as.flatMap mentions).map Mention.reference := by
  rw [List.map_flatMap]
  exact congrArg (as.flatMap ·) (funext h)

theorem toElement?_eq (path : Option String) (source : Option Location) :
    toElement? path source = Mention.reference ⟨path.map .element, source⟩ := by
  cases path <;> rfl

theorem ofPointers_eq (ps : List (ElementPointer Location)) :
    ofPointers ps = (ps.map (·.mention)).map Mention.reference := by
  rw [List.map_map]
  rfl

theorem ofStereotypes_eq (ss : List (StereotypePointer Location)) :
    ofStereotypes ss = (ss.map (·.mention)).map Mention.reference := by
  rw [List.map_map]
  rfl

theorem ofTaggedValues_eq (ts : List (TaggedValue Location)) :
    ofTaggedValues ts = (ts.map (·.mention)).map Mention.reference := by
  rw [List.map_map]
  rfl

theorem ofHeader_eq (h : Header Location) :
    ofStereotypes h.stereotypes ++ ofTaggedValues h.taggedValues =
      h.mentions.map Mention.reference := by
  rw [ofStereotypes_eq, ofTaggedValues_eq, Header.mentions, List.map_append]

mutual

/-- **References are found in the order of the walk.** -/
theorem ofExpression_eq : (e : Expression Location) →
    ofExpression e = e.mentions.map Mention.reference
  | .node k s reference cs => by
    have hchildren : (cs.flatMap Expression.nodes).filterMap Expression.mention? =
        cs.flatMap (·.mentions) :=
      List.filterMap_flatMap
    rw [Expression.mentions, Expression.nodes_node, List.filterMap_cons, hchildren]
    cases reference with
    | none => rw [ofExpression, ofExpressions_eq cs]; rfl
    | some path => rw [ofExpression, ofExpressions_eq cs]; rfl

theorem ofExpressions_eq : (es : List (Expression Location)) →
    ofExpressions es = (es.flatMap (·.mentions)).map Mention.reference
  | [] => rfl
  | e :: rest => by
    rw [ofExpressions, ofExpression_eq e, ofExpressions_eq rest, List.flatMap_cons, List.map_append]

end

theorem ofLambda_eq (l : Option (Lambda Location)) :
    ofLambda l = (l.toList.flatMap (·.mentions)).map Mention.reference := by
  cases l with
  | none => rfl
  | some l =>
    rw [ofLambda, ofExpressions_eq, Option.toList_some, List.flatMap_singleton, Lambda.mentions]

theorem ofAssertion_eq (a : Assertion Location) :
    ofAssertion (some a) = (a.assertion.toList.flatMap (·.mentions)).map Mention.reference := by
  rw [ofAssertion]
  cases a.assertion with
  | none => rfl
  | some e => rw [ofExpression?, ofExpression_eq, Option.toList_some, List.flatMap_singleton]

theorem ofPostValidation_eq (v : PostValidation Location) :
    ofPostValidation (some v) = v.mentions.map Mention.reference := by
  rw [ofPostValidation, ofExpressions_eq, flatMap_eq_map_reference ofAssertion_eq,
    PostValidation.mentions, List.map_append]

theorem ofRuntime_eq (r : Option (RuntimeValue Location)) :
    ofRuntime r = (r.toList.flatMap (·.mentions)).map Mention.reference := by
  rcases r with _ | p | r
  · rfl
  · rfl
  · rw [ofRuntime, ofPointers_eq, ofPointers_eq, ← List.map_append, ← List.map_append,
      Option.toList_some, List.flatMap_singleton]
    rfl

theorem ofCompiled_eq (c : CompiledService) :
    ofCompiled c = c.mentions.map Mention.reference := by
  rw [ofCompiled, ofLambda_eq, flatMap_eq_map_reference ofPostValidation_eq,
    CompiledService.mentions, List.map_append]

end Reference

end ModelServer
