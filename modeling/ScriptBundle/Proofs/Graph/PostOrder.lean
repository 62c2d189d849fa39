import Mathlib.Logic.Relation
import ScriptBundle.Graph.Search

/-!
# Post-Order

The search finishes every node once, in graphs with cycles as well. In a graph without cycles it
finishes a node when all that the edges of the node lead to have been finished.

What the tasks still to do have to say about that is an invariant of the search: behind the end of
each node there is nothing that one of its edges leads to and that is neither finished nor to be
visited before.

## Main definitions

* `Digraph.Edge`, `Digraph.IsAcyclic`: the relation of a graph, and that it has no cycle;
* `Digraph.Ordered`: whether each node of a list comes behind all that its edges lead to;
* `Digraph.Covered`: the invariant.

## Main statements

* `Digraph.postOrder_perm`: the post-order holds each node once;
* `Digraph.ordered_of_searchCycle`: if no edge back is found, the nodes are finished in order;
* `Digraph.postOrder_ordered`: the post-order of a graph without cycles is in order;
* `Digraph.findCycle_eq_none_iff`: a cycle is found exactly if there is one.
-/

namespace ScriptBundle

namespace Digraph

variable {g : Digraph}

/-- Whether an edge leads from one node to another. -/
def Edge (g : Digraph) (n m : Nat) : Prop := (n, m) ∈ g.edges

/-- Whether no node reaches itself along edges. -/
def IsAcyclic (g : Digraph) : Prop := ∀ n, ¬Relation.TransGen g.Edge n n

/-- Whether each node of a list comes behind all that its edges lead to, `done` being the nodes in
front of the list. -/
def Ordered (g : Digraph) : (done : List Nat) → List Nat → Prop
  | _, [] => True
  | done, n :: rest => (∀ m, g.Edge n m → m ∈ done) ∧ g.Ordered (n :: done) rest

/-- The nodes that tasks finish. -/
def pending (tasks : List SearchTask) : List Nat :=
  tasks.filterMap fun
    | .visit _ => none
    | .finish n => some n

@[simp] theorem pending_nil : pending [] = [] := rfl

@[simp] theorem pending_visit (n : Nat) (tasks : List SearchTask) :
    pending (.visit n :: tasks) = pending tasks := rfl

@[simp] theorem pending_finish (n : Nat) (tasks : List SearchTask) :
    pending (.finish n :: tasks) = n :: pending tasks := rfl

@[simp] theorem pending_visits (ns : List Nat) (tasks : List SearchTask) :
    pending (ns.map .visit ++ tasks) = pending tasks := by
  induction ns with
  | nil => rfl
  | cons n ns ih => simpa using ih

/-- A visit of a node ends with the node. -/
theorem pending_expand (n : Nat) (tasks : List SearchTask) :
    pending (g.expand n ++ tasks) = n :: pending tasks := by
  simp [expand]

/-! ### Each node once -/

/-- A search finishes what it has to, and what it visits. -/
theorem mem_finishOrder_of_task {visited : List Nat} {tasks : List SearchTask} :
    (∀ n ∈ pending tasks, n ∈ g.finishOrder visited tasks) ∧
      ∀ n < g.size, .visit n ∈ tasks → n ∈ visited ∨ n ∈ g.finishOrder visited tasks := by
  fun_induction finishOrder g visited tasks with
  | case1 => simp
  | case2 visited n rest ih =>
    obtain ⟨hfinish, hvisit⟩ := ih
    refine ⟨?_, ?_⟩
    · intro m hm
      rcases List.mem_cons.mp hm with rfl | hm
      · exact List.mem_cons_self
      · exact List.mem_cons_of_mem _ (hfinish m hm)
    · intro m hlt hm
      have hm : .visit m ∈ rest := by simpa using hm
      rcases hvisit m hlt hm with hm | hm
      · exact .inl hm
      · exact .inr (List.mem_cons_of_mem _ hm)
  | case3 visited n rest hskip ih =>
    obtain ⟨hfinish, hvisit⟩ := ih
    refine ⟨hfinish, ?_⟩
    intro m hlt hm
    rcases List.mem_cons.mp hm with hm | hm
    · obtain rfl : m = n := by simpa using hm
      rcases hskip with hskip | hskip
      · exact .inl hskip
      · omega
    · exact hvisit m hlt hm
  | case4 visited n rest hnew _ ih =>
    obtain ⟨hfinish, hvisit⟩ := ih
    rw [pending_expand] at hfinish
    refine ⟨fun m hm => hfinish m (List.mem_cons_of_mem _ hm), ?_⟩
    intro m hlt hm
    rcases List.mem_cons.mp hm with hm | hm
    · obtain rfl : m = n := by simpa using hm
      exact .inr (hfinish m List.mem_cons_self)
    · rcases hvisit m hlt (List.mem_append_right _ hm) with hm | hm
      · rcases List.mem_cons.mp hm with rfl | hm
        · exact .inr (hfinish m List.mem_cons_self)
        · exact .inl hm
      · exact .inr hm

/-- A search finishes no node twice, and only what it has to and what it visits. -/
theorem nodup_finishOrder {visited : List Nat} {tasks : List SearchTask}
    (hnodup : (pending tasks).Nodup) (hvisited : ∀ n ∈ pending tasks, n ∈ visited) :
    (g.finishOrder visited tasks).Nodup ∧ ∀ n ∈ g.finishOrder visited tasks,
      n ∈ pending tasks ∨ n ∉ visited ∧ n < g.size := by
  fun_induction finishOrder g visited tasks with
  | case1 => simp
  | case2 visited n rest ih =>
    obtain ⟨hn, hrest⟩ := List.nodup_cons.mp hnodup
    have hvisited' : ∀ m ∈ pending rest, m ∈ visited := fun m hm =>
      hvisited m (List.mem_cons_of_mem _ hm)
    obtain ⟨hout, hmem⟩ := ih hrest hvisited'
    refine ⟨List.nodup_cons.mpr ⟨?_, hout⟩, ?_⟩
    · intro h
      rcases hmem n h with h | h
      · exact hn h
      · exact h.1 (hvisited n (by simp))
    · intro m hm
      rcases List.mem_cons.mp hm with rfl | hm
      · exact .inl (by simp)
      · rcases hmem m hm with hm | hm
        · exact .inl (by simp [hm])
        · exact .inr hm
  | case3 visited n rest hskip ih => exact ih hnodup hvisited
  | case4 visited n rest hnew _ ih =>
    simp only [not_or, Nat.not_le] at hnew
    rw [pending_visit] at hnodup hvisited
    rw [pending_expand] at ih
    have hn : n ∉ pending rest := fun h => hnew.1 (hvisited n h)
    obtain ⟨hout, hmem⟩ := ih (List.nodup_cons.mpr ⟨hn, hnodup⟩) fun m hm => by
      rcases List.mem_cons.mp hm with rfl | hm
      · exact List.mem_cons_self
      · exact List.mem_cons_of_mem _ (hvisited m hm)
    refine ⟨hout, ?_⟩
    intro m hm
    rcases hmem m hm with hm | ⟨hm, hlt⟩
    · rcases List.mem_cons.mp hm with rfl | hm
      · exact .inr hnew
      · exact .inl hm
    · exact .inr ⟨fun h => hm (List.mem_cons_of_mem _ h), hlt⟩

/-- The nodes that are to be visited first are all of them. -/
theorem pending_allVisits : pending g.allVisits = [] := by
  simpa [allVisits] using pending_visits g.nodes []

/-- The post-order holds no node twice, and only nodes of the graph. -/
theorem nodup_postOrder : g.postOrder.Nodup ∧ ∀ n ∈ g.postOrder, n < g.size := by
  have hpending : ∀ n ∈ pending g.allVisits, n ∈ ([] : List Nat) := by simp [pending_allVisits]
  obtain ⟨hnodup, hmem⟩ := nodup_finishOrder (by simp [pending_allVisits]) hpending
  refine ⟨hnodup, fun n hn => ?_⟩
  simpa [pending_allVisits] using hmem n hn

/-- The post-order holds the nodes of the graph and nothing else. -/
theorem mem_postOrder {n : Nat} : n ∈ g.postOrder ↔ n < g.size := by
  constructor
  · exact nodup_postOrder.2 n
  · intro h
    have hvisit : SearchTask.visit n ∈ g.allVisits := by
      simp only [allVisits, nodes, List.mem_map, List.mem_range]
      exact ⟨n, h, rfl⟩
    have hmem : n ∈ ([] : List Nat) ∨ n ∈ g.postOrder := mem_finishOrder_of_task.2 n h hvisit
    simpa using hmem

/-- The post-order holds each node once. -/
theorem postOrder_perm : g.postOrder.Perm g.nodes := by
  refine (List.perm_ext_iff_of_nodup nodup_postOrder.1 List.nodup_range).mpr fun n => ?_
  simp [mem_postOrder]

/-! ### In order -/

/-- No node of a list in order is on a cycle. What is in front of the list is closed under edges, so
that a walk back to the first node would never have left it. -/
theorem Ordered.not_cycle {done order : List Nat} (h : g.Ordered done order)
    (hclosed : ∀ n ∈ done, ∀ m, g.Edge n m → m ∈ done)
    (hacyclic : ∀ n ∈ done, ¬Relation.TransGen g.Edge n n) :
    ∀ n ∈ order, ¬Relation.TransGen g.Edge n n := by
  induction order generalizing done with
  | nil => simp
  | cons n rest ih =>
    obtain ⟨hn, hrest⟩ := h
    have hreached : ∀ {a b}, Relation.ReflTransGen g.Edge a b → a ∈ done → b ∈ done := by
      intro a b hab ha
      induction hab with
      | refl => exact ha
      | tail _ hedge ih => exact hclosed _ ih _ hedge
    have hself : ¬Relation.TransGen g.Edge n n := by
      intro hcycle
      obtain ⟨m, hedge, hback⟩ := Relation.TransGen.head'_iff.mp hcycle
      exact hacyclic n (hreached hback (hn m hedge)) hcycle
    have hcons : ∀ m ∈ rest, ¬Relation.TransGen g.Edge m m := by
      refine ih hrest ?_ ?_
      · intro a ha m hedge
        rcases List.mem_cons.mp ha with rfl | ha
        · exact List.mem_cons_of_mem _ (hn m hedge)
        · exact List.mem_cons_of_mem _ (hclosed a ha m hedge)
      · intro a ha
        rcases List.mem_cons.mp ha with rfl | ha
        · exact hself
        · exact hacyclic a ha
    intro m hm
    rcases List.mem_cons.mp hm with rfl | hm
    · exact hself
    · exact hcons m hm

/-- A graph has no cycle if its post-order is in order. -/
theorem isAcyclic_of_ordered (hg : g.IsBounded) (h : g.Ordered [] g.postOrder) : g.IsAcyclic := by
  intro n hcycle
  obtain ⟨m, hedge, -⟩ := Relation.TransGen.head'_iff.mp hcycle
  exact h.not_cycle (by simp) (by simp) n (mem_postOrder.mpr (hg _ hedge).1) hcycle

/-- In a list in order each node has in front of it what its edges lead to. -/
theorem Ordered.mem_front {done front behind : List Nat} {n m : Nat}
    (h : g.Ordered done (front ++ n :: behind)) (hedge : g.Edge n m) : m ∈ done ∨ m ∈ front := by
  induction front generalizing done with
  | nil => exact .inl (h.1 m hedge)
  | cons first rest ih =>
    rcases ih h.2 with hm | hm
    · rcases List.mem_cons.mp hm with rfl | hm
      · exact .inr List.mem_cons_self
      · exact .inl hm
    · exact .inr (List.mem_cons_of_mem _ hm)

/-- Whether the end of each node comes behind all that its edges lead to. What is `done` is finished
or will be before. -/
def Covered (g : Digraph) : (done : List Nat) → List SearchTask → Prop
  | _, [] => True
  | done, .visit n :: rest => g.Covered (n :: done) rest
  | done, .finish n :: rest => (∀ m, g.Edge n m → m ∈ done) ∧ g.Covered (n :: done) rest

/-- What counts is which nodes of the graph are done. -/
theorem Covered.mono (hg : g.IsBounded) {done done' : List Nat} {tasks : List SearchTask}
    (h : g.Covered done tasks) (hsub : ∀ n ∈ done, n < g.size → n ∈ done') :
    g.Covered done' tasks := by
  have hcons : ∀ {done done' : List Nat} (k : Nat), (∀ n ∈ done, n < g.size → n ∈ done') →
      ∀ n ∈ k :: done, n < g.size → n ∈ k :: done' := by
    intro done done' k hsub n hn hlt
    rcases List.mem_cons.mp hn with rfl | hn
    · exact List.mem_cons_self
    · exact List.mem_cons_of_mem _ (hsub n hn hlt)
  induction tasks generalizing done done' with
  | nil => trivial
  | cons task rest ih =>
    cases task with
    | visit n => exact ih h (hcons n hsub)
    | finish n =>
      obtain ⟨hn, hrest⟩ := h
      exact ⟨fun m hedge => hsub m (hn m hedge) (hg _ hedge).2, ih hrest (hcons n hsub)⟩

/-- Nodes that are visited will be done. -/
theorem covered_visits (hg : g.IsBounded) {done ns : List Nat} {tasks : List SearchTask}
    (h : g.Covered (ns ++ done) tasks) : g.Covered done (ns.map .visit ++ tasks) := by
  induction ns generalizing done with
  | nil => exact h
  | cons n ns ih =>
    have hrest : g.Covered (ns ++ n :: done) tasks := by
      refine h.mono hg fun m hm _ => ?_
      simpa [or_left_comm] using hm
    exact ih hrest

/-- If the search comes to its end without finding an edge back, then it finishes the nodes in
order. -/
theorem ordered_of_searchCycle (hg : g.IsBounded) {done visited path : List Nat}
    {tasks : List SearchTask} (hnone : g.searchCycle visited path tasks = none)
    (hpath : path = pending tasks) (hvisited : ∀ n ∈ visited, n ∈ done ∨ n ∈ path)
    (hcovered : g.Covered done tasks) : g.Ordered done (g.finishOrder visited tasks) := by
  fun_induction searchCycle g visited path tasks generalizing done with
  | case1 =>
    rw [finishOrder]
    trivial
  | case2 visited path n rest ih =>
    rw [pending_finish] at hpath
    obtain ⟨hn, hrest⟩ := hcovered
    rw [finishOrder]
    refine ⟨hn, ih hnone (by simp [hpath]) ?_ hrest⟩
    intro m hm
    rcases hvisited m hm with hm | hm
    · exact .inl (List.mem_cons_of_mem _ hm)
    · rw [hpath] at hm ⊢
      rcases List.mem_cons.mp hm with rfl | hm
      · exact .inl List.mem_cons_self
      · exact .inr hm
  | case3 => simp at hnone
  | case4 visited path n rest hback hskip ih =>
    have hrest : g.Covered (n :: done) rest := hcovered
    rw [finishOrder, dif_pos hskip]
    refine ih hnone hpath hvisited (hrest.mono hg fun m hm hlt => ?_)
    rcases List.mem_cons.mp hm with rfl | hm
    · rcases hskip with hskip | hskip
      · exact (hvisited m hskip).resolve_right hback
      · omega
    · exact hm
  | case5 visited path n rest hback hnew _ ih =>
    have hrest : g.Covered (n :: done) rest := hcovered
    rw [finishOrder, dif_neg hnew]
    refine ih hnone (by rw [hpath, pending_visit, pending_expand]) ?_ ?_
    · intro m hm
      rcases List.mem_cons.mp hm with rfl | hm
      · exact .inr List.mem_cons_self
      · exact (hvisited m hm).imp_right (List.mem_cons_of_mem _)
    · rw [expand, List.append_assoc]
      refine covered_visits hg ⟨fun m hedge => ?_, hrest.mono hg fun m hm _ => ?_⟩
      · exact List.mem_append_left _ (mem_successors.mpr hedge)
      · rcases List.mem_cons.mp hm with rfl | hm
        · exact List.mem_cons_self
        · exact List.mem_cons_of_mem _ (List.mem_append_right _ hm)

/-! ### Edges back -/

/-- Whether every node that is not finished reaches the nodes of the tasks in front of its end. -/
def Descends (g : Digraph) : List SearchTask → Prop
  | [] => True
  | .visit n :: rest => (∀ m ∈ pending rest, Relation.TransGen g.Edge m n) ∧ g.Descends rest
  | .finish n :: rest => (∀ m ∈ pending rest, Relation.TransGen g.Edge m n) ∧ g.Descends rest

/-- Nodes that can be reached may be visited. -/
theorem descends_visits {ns : List Nat} {tasks : List SearchTask} (h : g.Descends tasks)
    (hreach : ∀ n ∈ ns, ∀ m ∈ pending tasks, Relation.TransGen g.Edge m n) :
    g.Descends (ns.map .visit ++ tasks) := by
  induction ns with
  | nil => exact h
  | cons n ns ih =>
    have hpending : pending (ns.map .visit ++ tasks) = pending tasks := pending_visits ns tasks
    refine ⟨fun m hm => ?_, ih fun k hk => hreach k (List.mem_cons_of_mem _ hk)⟩
    exact hreach n List.mem_cons_self m (hpending ▸ hm)

/-- An edge back closes a cycle, so that a graph without one has none. -/
theorem searchCycle_of_isAcyclic (hg : g.IsAcyclic) {visited path : List Nat}
    {tasks : List SearchTask} (hpath : path = pending tasks) (hdescends : g.Descends tasks) :
    g.searchCycle visited path tasks = none := by
  fun_induction searchCycle g visited path tasks with
  | case1 => rfl
  | case2 visited path n rest ih =>
    exact ih (by simp [hpath]) hdescends.2
  | case3 visited path n rest hback =>
    rw [hpath, pending_visit] at hback
    exact absurd (hdescends.1 n hback) (hg n)
  | case4 visited path n rest hback hskip ih => exact ih hpath hdescends.2
  | case5 visited path n rest hback hnew _ ih =>
    refine ih (by rw [hpath, pending_visit, pending_expand]) ?_
    rw [expand, List.append_assoc]
    refine descends_visits ⟨hdescends.1, hdescends.2⟩ fun m hm k hk => ?_
    have hedge : g.Edge n m := mem_successors.mp hm
    rcases List.mem_cons.mp hk with rfl | hk
    · exact .single hedge
    · exact .tail (hdescends.1 k hk) hedge

/-- At the start there is nothing that a search has to come back to. -/
theorem covered_allVisits (hg : g.IsBounded) : g.Covered [] g.allVisits := by
  have h : g.Covered [] (g.nodes.map .visit ++ []) := covered_visits hg trivial
  simpa [allVisits] using h

theorem descends_allVisits : g.Descends g.allVisits := by
  have h : g.Descends (g.nodes.map .visit ++ []) := descends_visits trivial (by simp)
  simpa [allVisits] using h

/-- The post-order of a graph without cycles is in order. -/
theorem postOrder_ordered (hg : g.IsBounded) (hacyclic : g.IsAcyclic) :
    g.Ordered [] g.postOrder := by
  have hnone : g.searchCycle [] [] g.allVisits = none :=
    searchCycle_of_isAcyclic hacyclic pending_allVisits.symm descends_allVisits
  exact ordered_of_searchCycle hg hnone pending_allVisits.symm (by simp) (covered_allVisits hg)

/-! ### Cycles -/

/-- What can be reached holds the nodes it starts from, and is closed under edges. -/
theorem reachable_closed (hg : g.IsBounded) {visited ns : List Nat}
    (hclosed : ∀ n ∈ visited, ∀ m, g.Edge n m → m ∈ visited ∨ m ∈ ns) :
    (∀ n ∈ visited, n ∈ g.reachable visited ns) ∧
      (∀ n ∈ ns, n < g.size → n ∈ g.reachable visited ns) ∧
      ∀ n ∈ g.reachable visited ns, ∀ m, g.Edge n m → m ∈ g.reachable visited ns := by
  fun_induction reachable g visited ns with
  | case1 visited => exact ⟨fun _ h => h, by simp, by simpa using hclosed⟩
  | case2 visited n rest hskip ih =>
    have hrest : ∀ k ∈ visited, ∀ m, g.Edge k m → m ∈ visited ∨ m ∈ rest := by
      intro k hk m hedge
      rcases hclosed k hk m hedge with hm | hm
      · exact .inl hm
      · rcases List.mem_cons.mp hm with rfl | hm
        · have hlt := (hg _ hedge).2
          exact .inl (hskip.resolve_right (Nat.not_le_of_lt hlt))
        · exact .inr hm
    obtain ⟨hvisited, hstart, hedges⟩ := ih hrest
    refine ⟨hvisited, ?_, hedges⟩
    intro k hk hlt
    rcases List.mem_cons.mp hk with rfl | hk
    · exact hvisited k (hskip.resolve_right (Nat.not_le_of_lt hlt))
    · exact hstart k hk hlt
  | case3 visited n rest hnew _ ih =>
    have hcons : ∀ k ∈ n :: visited, ∀ m, g.Edge k m →
        m ∈ n :: visited ∨ m ∈ g.successors n ++ rest := by
      intro k hk m hedge
      rcases List.mem_cons.mp hk with rfl | hk
      · exact .inr (List.mem_append_left _ (mem_successors.mpr hedge))
      · rcases hclosed k hk m hedge with hm | hm
        · exact .inl (List.mem_cons_of_mem _ hm)
        · rcases List.mem_cons.mp hm with rfl | hm
          · exact .inl List.mem_cons_self
          · exact .inr (List.mem_append_right _ hm)
    obtain ⟨hvisited, hstart, hedges⟩ := ih hcons
    refine ⟨fun k hk => hvisited k (List.mem_cons_of_mem _ hk), ?_, hedges⟩
    intro k hk hlt
    rcases List.mem_cons.mp hk with rfl | hk
    · exact hvisited k List.mem_cons_self
    · exact hstart k (List.mem_append_right _ hk) hlt

/-- A graph has no cycle if no node is among those that its edges lead on to. -/
theorem isAcyclic_of_hasCycle (hg : g.IsBounded) (h : g.hasCycle = false) : g.IsAcyclic := by
  intro n hcycle
  obtain ⟨m, hedge, hback⟩ := Relation.TransGen.head'_iff.mp hcycle
  have hbounds := hg _ hedge
  have hempty : ∀ k ∈ ([] : List Nat), ∀ j, g.Edge k j → j ∈ [] ∨ j ∈ g.successors n := by simp
  obtain ⟨-, hstart, hedges⟩ := reachable_closed hg hempty
  have hreached : ∀ {a b}, Relation.ReflTransGen g.Edge a b → a ∈ g.reachable [] (g.successors n) →
      b ∈ g.reachable [] (g.successors n) := by
    intro a b hab ha
    induction hab with
    | refl => exact ha
    | tail _ hstep ih => exact hedges _ ih _ hstep
  have hmem := hreached hback (hstart m (mem_successors.mpr hedge) hbounds.2)
  have hnone := List.any_eq_false.mp h n (List.mem_range.mpr hbounds.1)
  exact hnone (by simpa using hmem)

/-- A cycle is found exactly if there is one. -/
theorem findCycle_eq_none_iff (hg : g.IsBounded) : g.findCycle = none ↔ g.IsAcyclic := by
  constructor
  · intro hnone
    cases hcycle : g.hasCycle with
    | false => exact isAcyclic_of_hasCycle hg hcycle
    | true =>
      rw [findCycle, if_pos hcycle] at hnone
      exact isAcyclic_of_ordered hg (ordered_of_searchCycle hg hnone pending_allVisits.symm
        (by simp) (covered_allVisits hg))
  · intro hacyclic
    rw [findCycle]
    split
    · exact searchCycle_of_isAcyclic hacyclic pending_allVisits.symm descends_allVisits
    · rfl

end Digraph

end ScriptBundle
