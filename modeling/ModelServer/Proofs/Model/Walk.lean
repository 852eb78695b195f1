import Mathlib.Data.List.Basic
import ModelServer.Model.Part

/-!
# Walking through an expression

The nodes of an expression have addresses: the root the empty one, and a child the address of its parent
with its own number behind it (`Expression.sub?`). `Expression.walk` goes through the tree and names
each node with its address.

That this is the walk in pre-order, and that it leaves nothing out, is not read off its recursion: the
addresses come in lexicographic order, a node before what is below it and an earlier child with all
that is below it before a later one (`pairwise_walk`), and a node is met under an address exactly if it
stands there (`mem_walk_iff`).
-/

namespace ModelServer.Expression

variable {σ : Type}

/-- The node at an address. -/
def sub? : List Nat → Expression σ → Option (Expression σ)
  | [], e => some e
  | i :: rest, e => e.children[i]?.bind (sub? rest)

mutual

/-- All nodes with their addresses, a node before its children. -/
def walk : Expression σ → List (List Nat × Expression σ)
  | node k s r cs => ([], node k s r cs) :: walkFrom 0 cs

/-- The nodes of expressions that are the children of one node, the first under that number. -/
def walkFrom (index : Nat) : List (Expression σ) → List (List Nat × Expression σ)
  | [] => []
  | e :: rest => (walk e).map (fun n ↦ (index :: n.1, n.2)) ++ walkFrom (index + 1) rest

end

/-- All nodes in the order of the walk. -/
def nodes (e : Expression σ) : List (Expression σ) :=
  e.walk.map Prod.snd

theorem map_snd_walkFrom (index : Nat) (es : List (Expression σ)) :
    (walkFrom index es).map Prod.snd = es.flatMap nodes := by
  induction es generalizing index with
  | nil => rfl
  | cons e rest ih =>
    rw [walkFrom, List.map_append, List.map_map, ih, List.flatMap_cons]
    rfl

/-- A node comes first, and what is below it child by child. -/
theorem nodes_node (k : String) (s : Option σ) (r : Option String) (cs : List (Expression σ)) :
    (node k s r cs).nodes = node k s r cs :: cs.flatMap nodes := by
  rw [nodes, walk, List.map_cons, map_snd_walkFrom]

/-! ### What the walk meets -/

mutual

/-- **The walk meets every node**, and each where it stands. -/
theorem mem_walk_iff : (e : Expression σ) → {n : List Nat × Expression σ} →
    (n ∈ e.walk ↔ e.sub? n.1 = some n.2)
  | node k s r cs, (address, d) => by
    rw [walk, List.mem_cons, mem_walkFrom_iff 0 cs]
    cases address with
    | nil => simp [sub?, eq_comm]
    | cons i rest => simp [sub?, children]

theorem mem_walkFrom_iff : (index : Nat) → (es : List (Expression σ)) →
    {n : List Nat × Expression σ} →
    (n ∈ walkFrom index es ↔
      ∃ i rest, n.1 = (index + i) :: rest ∧ es[i]?.bind (sub? rest) = some n.2)
  | _, [], n => by simp [walkFrom]
  | index, e :: es, (address, d) => by
    have hfirst : (address, d) ∈ (walk e).map (fun n ↦ (index :: n.1, n.2)) ↔
        ∃ rest, address = index :: rest ∧ e.sub? rest = some d := by
      simp only [List.mem_map, Prod.exists, Prod.mk.injEq, mem_walk_iff e]
      exact ⟨fun ⟨rest, _, hd, ha, he⟩ ↦ ⟨rest, ha.symm, he ▸ hd⟩,
        fun ⟨rest, ha, hd⟩ ↦ ⟨rest, d, hd, ha.symm, rfl⟩⟩
    rw [walkFrom, List.mem_append, hfirst, mem_walkFrom_iff (index + 1) es]
    -- Child `i + 1` of all is child `i` of those behind the first, which are numbered from there.
    constructor
    · rintro (⟨rest, ha, hd⟩ | ⟨i, rest, ha, hd⟩)
      · exact ⟨0, rest, ha, hd⟩
      · exact ⟨i + 1, rest, by rw [ha, Nat.add_assoc, Nat.add_comm 1], hd⟩
    · rintro ⟨i, rest, ha, hd⟩
      cases i with
      | zero => exact .inl ⟨rest, ha, hd⟩
      | succ i => exact .inr ⟨i, rest, by rw [ha, Nat.add_assoc, Nat.add_comm 1], hd⟩

end

/-! ### In which order -/

mutual

/-- **The walk is in pre-order**: the addresses of what it meets are in lexicographic order. -/
theorem pairwise_walk : (e : Expression σ) → e.walk.Pairwise fun m n ↦ m.1 < n.1
  | node k s r cs => by
    rw [walk, List.pairwise_cons]
    refine ⟨fun n hn ↦ ?_, pairwise_walkFrom 0 cs⟩
    obtain ⟨i, rest, ha, -⟩ := (mem_walkFrom_iff 0 cs).1 hn
    rw [ha]
    exact List.nil_lt_cons _ _

theorem pairwise_walkFrom : (index : Nat) → (es : List (Expression σ)) →
    (walkFrom index es).Pairwise fun m n ↦ m.1 < n.1
  | _, [] => .nil
  | index, e :: es => by
    rw [walkFrom, List.pairwise_append, List.pairwise_map]
    refine ⟨(pairwise_walk e).imp fun h ↦ ?_, pairwise_walkFrom (index + 1) es, ?_⟩
    · exact List.cons_lt_cons_self.2 h
    · -- The later children have greater numbers.
      intro m hm n hn
      obtain ⟨m', -, rfl⟩ := List.mem_map.1 hm
      obtain ⟨i, rest, ha, -⟩ := (mem_walkFrom_iff (index + 1) es).1 hn
      rw [ha]
      exact List.Lex.rel (by omega)

end

end ModelServer.Expression
