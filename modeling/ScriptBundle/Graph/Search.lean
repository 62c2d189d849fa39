import ScriptBundle.Graph.Basic

/-!
# Depth-First Search

Three searches of a directed graph, each started from the nodes in ascending order. A search
is a list of tasks: to visit a node, and to finish it once its successors have been visited.

## Main definitions

* `Digraph.postOrder`: the nodes in the order in which they are finished;
* `Digraph.hasCycle`: whether a node reaches itself along edges;
* `Digraph.findCycle`: the first cycle that a search comes across.

## Main statements

* `Digraph.findCycle_eq_none`: without a cycle none is found.
-/

namespace ScriptBundle

/-- A **task** of a depth-first search. -/
inductive SearchTask where
  | visit (node : Nat)
  | finish (node : Nat)
  deriving DecidableEq, Repr

namespace Digraph

/-- The tasks that visiting a node amounts to: its successors, then its end. -/
def expand (g : Digraph) (n : Nat) : List SearchTask :=
  (g.successors n).map .visit ++ [.finish n]

/-- The tasks that visit every node in ascending order. -/
def allVisits (g : Digraph) : List SearchTask := g.nodes.map .visit

/-- The nodes in the order in which the tasks finish them. -/
def finishOrder (g : Digraph) (visited : List Nat) : List SearchTask → List Nat
  | [] => []
  | .finish n :: rest => n :: finishOrder g visited rest
  | .visit n :: rest =>
    if h : n ∈ visited ∨ g.size ≤ n then finishOrder g visited rest
    else
      have := unvisited_cons_lt (fun hmem => h (.inl hmem))
        (Nat.lt_of_not_le fun hle => h (.inr hle))
      finishOrder g (n :: visited) (g.expand n ++ rest)
termination_by tasks => (g.unvisited visited, tasks.length)

/-- The nodes in **post-order**: each one behind all that a search from it comes to first. -/
def postOrder (g : Digraph) : List Nat := g.finishOrder [] g.allVisits

/-- The nodes that can be reached from those of a list, and those visited before. -/
def reachable (g : Digraph) (visited : List Nat) : List Nat → List Nat
  | [] => visited
  | n :: rest =>
    if h : n ∈ visited ∨ g.size ≤ n then reachable g visited rest
    else
      have := unvisited_cons_lt (fun hmem => h (.inl hmem))
        (Nat.lt_of_not_le fun hle => h (.inr hle))
      reachable g (n :: visited) (g.successors n ++ rest)
termination_by ns => (g.unvisited visited, ns.length)

/-- Whether some node reaches itself along at least one edge. -/
def hasCycle (g : Digraph) : Bool :=
  g.nodes.any fun n => (g.reachable [] (g.successors n)).contains n

/-- The part of a path from a node on, closed by the node itself. The path lists its innermost
node first. -/
def closeCycle (n : Nat) (path : List Nat) : List Nat :=
  n :: (path.takeWhile (· ≠ n)).reverse ++ [n]

/-- The first edge back to a node of the path, as the cycle that it closes. `path` is what is
visited but not finished, innermost first. -/
def searchCycle (g : Digraph) (visited path : List Nat) : List SearchTask → Option (List Nat)
  | [] => none
  | .finish _ :: rest => searchCycle g visited path.tail rest
  | .visit n :: rest =>
    if n ∈ path then some (closeCycle n path)
    else if h : n ∈ visited ∨ g.size ≤ n then searchCycle g visited path rest
    else
      have := unvisited_cons_lt (fun hmem => h (.inl hmem))
        (Nat.lt_of_not_le fun hle => h (.inr hle))
      searchCycle g (n :: visited) (n :: path) (g.expand n ++ rest)
termination_by tasks => (g.unvisited visited, tasks.length)

/-- A **cycle**, if there is one: it starts at the node where the search entered it and ends with
that node again. -/
def findCycle (g : Digraph) : Option (List Nat) :=
  if g.hasCycle then g.searchCycle [] [] g.allVisits else none

/-- Without a cycle none is found. -/
theorem findCycle_eq_none {g : Digraph} (h : g.hasCycle = false) : g.findCycle = none := by
  simp [findCycle, h]

end Digraph

end ScriptBundle
