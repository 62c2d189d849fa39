/-!
# Directed Graphs

Graphs whose nodes are the numbers below their size. Edges keep the order in which they were
added, since every walk through a graph follows it.

## Main definitions

* `Digraph`: a size and a list of edges, newest first;
* `Digraph.successors`, `Digraph.predecessors`: neighbours, newest edge first;
* `Digraph.addEdge`: adds an edge that is not there yet;
* `Digraph.unvisited`: how many nodes a search has still to see.

## Main statements

* `Digraph.mem_successors`: the neighbours of a node are the ends of its edges;
* `Digraph.unvisited_cons_lt`: a search that sees a new node has fewer left.
-/

namespace ScriptBundle

/-- A **directed graph** on the numbers below `size`. -/
structure Digraph where
  size : Nat
  /-- Start and end of each edge, the newest edge first. -/
  edges : List (Nat × Nat)
  deriving DecidableEq, Repr

namespace Digraph

/-- The ends of the edges that start at a node. -/
def successors (g : Digraph) (n : Nat) : List Nat :=
  g.edges.filterMap fun (start, stop) => if start = n then some stop else none

/-- The starts of the edges that end at a node. -/
def predecessors (g : Digraph) (n : Nat) : List Nat :=
  g.edges.filterMap fun (start, stop) => if stop = n then some start else none

/-- Adds an edge, unless it is there already. -/
def addEdge (edges : List (Nat × Nat)) (edge : Nat × Nat) : List (Nat × Nat) :=
  if edges.contains edge then edges else edge :: edges

/-- The nodes in ascending order. -/
def nodes (g : Digraph) : List Nat := List.range g.size

/-- Whether every edge joins two nodes. -/
def IsBounded (g : Digraph) : Prop := ∀ edge ∈ g.edges, edge.1 < g.size ∧ edge.2 < g.size

/-- The number of nodes that a search has not visited. -/
def unvisited (g : Digraph) (visited : List Nat) : Nat :=
  g.nodes.countP (!visited.contains ·)

theorem mem_successors {g : Digraph} {n m : Nat} : m ∈ g.successors n ↔ (n, m) ∈ g.edges := by
  simp only [successors, List.mem_filterMap]
  constructor
  · rintro ⟨⟨start, stop⟩, hmem, h⟩
    split at h
    · next heq =>
      simp only [Option.some.injEq] at h
      subst h heq
      exact hmem
    · simp at h
  · intro h
    exact ⟨(n, m), h, by simp⟩

theorem mem_predecessors {g : Digraph} {n m : Nat} :
    m ∈ g.predecessors n ↔ (m, n) ∈ g.edges := by
  simp only [predecessors, List.mem_filterMap]
  constructor
  · rintro ⟨⟨start, stop⟩, hmem, h⟩
    split at h
    · next heq =>
      simp only [Option.some.injEq] at h
      subst h heq
      exact hmem
    · simp at h
  · intro h
    exact ⟨(m, n), h, by simp⟩

/-- Seeing a node that was not seen before leaves fewer of them. -/
theorem unvisited_cons_lt {g : Digraph} {visited : List Nat} {n : Nat} (hnew : n ∉ visited)
    (hn : n < g.size) : g.unvisited (n :: visited) < g.unvisited visited := by
  simp only [unvisited, nodes]
  have hmem : n ∈ List.range g.size := List.mem_range.mpr hn
  generalize List.range g.size = ns at hmem
  have hle : ∀ ms : List Nat, ms.countP (!(n :: visited).contains ·) ≤
      ms.countP (!visited.contains ·) := fun ms =>
    List.countP_mono_left fun m _ h => by
      simp only [Bool.not_eq_eq_eq_not, Bool.not_true, List.contains_eq_mem,
        decide_eq_false_iff_not, List.mem_cons, not_or] at h ⊢
      exact h.2
  induction ns with
  | nil => simp at hmem
  | cons m ms ih =>
    by_cases hm : m = n
    · subst hm
      have := hle ms
      rw [List.countP_cons_of_neg (by simp), List.countP_cons_of_pos (by simpa using hnew)]
      omega
    · have hrest := ih (by simpa [Ne.symm hm] using hmem)
      by_cases hv : m ∈ visited
      · rw [List.countP_cons_of_neg (by simp [hv]), List.countP_cons_of_neg (by simp [hv])]
        exact hrest
      · rw [List.countP_cons_of_pos (by simp [hv, hm]), List.countP_cons_of_pos (by simp [hv])]
        omega

end Digraph

end ScriptBundle
