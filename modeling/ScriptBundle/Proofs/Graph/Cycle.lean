import Mathlib.Data.List.Chain
import ScriptBundle.Proofs.Graph.Visits

/-!
# The Cycle That Is Found

The search for a cycle walks along edges, and stops at the first edge that leads back to a node of
its path. The part of the path from that node on is a cycle. What the search has finished leads to
no cycle, and so the first node that it starts from and that leads to one is where it finds one.

## Main definitions

* `Digraph.IsCycle`: a walk along edges that comes back to where it started and to no other node
  twice;
* `Digraph.ReachesCycle`: whether a node leads to a cycle.

## Main statements

* `Digraph.hasCycle_iff`: whether there is a cycle at all;
* `Digraph.isCycle_closeCycle`: an edge back closes a cycle;
* `Digraph.searchCycle_visits`: what the search does with the nodes of a list;
* `Digraph.isCycle_of_findCycle`: what is found is a cycle, and where it is found.
-/

namespace ScriptBundle

namespace Digraph

variable {g : Digraph}

/-! ### Cycles -/

/-- Whether nodes are a **cycle**: each of them has an edge to the next one, the last one is the
first one again, and no other node comes twice. -/
structure IsCycle (g : Digraph) (cycle : List Nat) : Prop where
  length : 2 ≤ cycle.length
  closed : cycle.head? = cycle.getLast?
  once : cycle.dropLast.Nodup
  edges : cycle.IsChain g.Edge

/-- Whether a node leads to a node that reaches itself along at least one edge. -/
def ReachesCycle (g : Digraph) (n : Nat) : Prop :=
  ∃ m, Relation.ReflTransGen g.Edge n m ∧ Relation.TransGen g.Edge m m

/-- What leads to a node that leads to a cycle does so, too. -/
theorem ReachesCycle.of_reaches {n m : Nat} (h : g.ReachesCycle m)
    (hreach : Relation.ReflTransGen g.Edge n m) : g.ReachesCycle n := by
  obtain ⟨k, hk, hcycle⟩ := h
  exact ⟨k, hreach.trans hk, hcycle⟩

/-- A node that leads to a cycle has an edge to one that does. -/
theorem ReachesCycle.exists_edge {n : Nat} (h : g.ReachesCycle n) :
    ∃ m, g.Edge n m ∧ g.ReachesCycle m := by
  obtain ⟨k, hreach, hcycle⟩ := h
  rcases Relation.ReflTransGen.cases_head hreach with rfl | ⟨m, hedge, hwalk⟩
  · obtain ⟨m, hedge, hback⟩ := Relation.TransGen.head'_iff.mp hcycle
    exact ⟨m, hedge, n, hback, hcycle⟩
  · exact ⟨m, hedge, k, hwalk, hcycle⟩

/-- The node that a cycle starts from reaches itself. -/
theorem IsCycle.exists_reachesCycle {cycle : List Nat} (h : g.IsCycle cycle) :
    ∃ n ∈ cycle, g.ReachesCycle n := by
  obtain ⟨hlength, hclosed, -, hedges⟩ := h
  match cycle with
  | [] => simp at hlength
  | [n] => simp at hlength
  | n :: m :: rest =>
    obtain ⟨hedge, hrest⟩ := List.isChain_cons_cons.mp hedges
    have hlast : (m :: rest).getLast (by simp) = n := by
      rw [List.head?_cons, List.getLast?_cons_cons, List.getLast?_eq_some_getLast (by simp),
        Option.some.injEq] at hclosed
      exact hclosed.symm
    have hback : Relation.ReflTransGen g.Edge m n :=
      List.relationReflTransGen_of_exists_isChain_cons rest hrest hlast
    exact ⟨n, List.mem_cons_self, n, .refl, .head' hedge hback⟩

/-! ### Whether there is one -/

/-- What is found to be reachable is, from one of the nodes at hand. -/
theorem exists_reaches_of_reachable {visited ns : List Nat} {m : Nat}
    (h : m ∈ g.reachable visited ns) :
    m ∈ visited ∨ ∃ n ∈ ns, Relation.ReflTransGen g.Edge n m := by
  fun_induction reachable g visited ns with
  | case1 visited => exact .inl h
  | case2 visited n rest hskip ih =>
    rcases ih h with hm | ⟨k, hk, hreach⟩
    · exact .inl hm
    · exact .inr ⟨k, List.mem_cons_of_mem _ hk, hreach⟩
  | case3 visited n rest hnew _ ih =>
    rcases ih h with hm | ⟨k, hk, hreach⟩
    · rcases List.mem_cons.mp hm with rfl | hm
      · exact .inr ⟨m, List.mem_cons_self, .refl⟩
      · exact .inl hm
    · rcases List.mem_append.mp hk with hk | hk
      · exact .inr ⟨n, List.mem_cons_self, .head (mem_successors.mp hk) hreach⟩
      · exact .inr ⟨k, List.mem_cons_of_mem _ hk, hreach⟩

/-- Whether there is a cycle is decided by what can be reached from the nodes. -/
theorem hasCycle_iff (hg : g.IsBounded) :
    g.hasCycle = true ↔ ∃ n, Relation.TransGen g.Edge n n := by
  constructor
  · intro h
    obtain ⟨n, -, hmem⟩ := List.any_eq_true.mp h
    have hreached : n ∈ g.reachable [] (g.successors n) := by simpa using hmem
    rcases exists_reaches_of_reachable hreached with hnil | ⟨m, hm, hreach⟩
    · simp at hnil
    · exact ⟨n, .head' (mem_successors.mp hm) hreach⟩
  · rintro ⟨n, hcycle⟩
    cases hany : g.hasCycle with
    | true => rfl
    | false => exact absurd hcycle (isAcyclic_of_hasCycle hg hany n)

/-! ### An edge back -/

/-- An edge from the innermost node of a path to one of its nodes closes a cycle. -/
theorem isCycle_closeCycle {n : Nat} {path : List Nat} (hmem : n ∈ path) (hnodup : path.Nodup)
    (hpath : (n :: path).IsChain fun a b => g.Edge b a) :
    g.IsCycle (closeCycle n path) ∧ ∀ m ∈ closeCycle n path, m ∈ path := by
  obtain ⟨inner, outer, rfl, hinner⟩ := List.eq_append_cons_of_mem hmem
  have htake : (inner ++ n :: outer).takeWhile (· ≠ n) = inner := by
    have hne : ∀ m ∈ inner, decide (m ≠ n) = true := fun m hm =>
      decide_eq_true fun heq => hinner (heq ▸ hm)
    rw [List.takeWhile_append_of_pos hne, List.takeWhile_cons_of_neg (by simp), List.append_nil]
  have hclose : closeCycle n (inner ++ n :: outer) = (n :: inner.reverse) ++ [n] := by
    rw [closeCycle, htake]
  have hback : (n :: inner.reverse) ++ [n] = (n :: inner ++ [n]).reverse := by simp
  rw [hclose]
  refine ⟨⟨by simp, ?_, ?_, ?_⟩, ?_⟩
  · rw [List.getLast?_concat, List.cons_append, List.head?_cons]
  · rw [List.dropLast_concat, List.nodup_cons, List.mem_reverse,
      List.Perm.nodup_iff inner.reverse_perm]
    exact ⟨hinner, hnodup.sublist (List.sublist_append_left inner _)⟩
  · rw [hback, List.isChain_reverse]
    exact hpath.prefix ⟨outer, by simp⟩
  · intro m hm
    have hm : m = n ∨ m ∈ inner := by simpa [or_comm] using hm
    rcases hm with rfl | hm
    · exact hmem
    · exact List.mem_append_left _ hm

/-! ### The search -/

section

variable {seen path ns : List Nat}

/-- What holds of the **search** for a cycle when it comes to the nodes `ns`: `path` is what it has
not finished, each node of it with an edge to the one inside of it and the innermost one with edges
to all of `ns`, and what it has finished leads to no cycle. -/
structure SearchInvariant (g : Digraph) (seen path ns : List Nat) : Prop where
  nodes : ∀ n ∈ ns, n < g.size
  known : path ⊆ seen
  once : path.Nodup
  edges : ∀ n ∈ ns, (n :: path).IsChain fun a b => g.Edge b a
  done : ∀ n ∈ seen, n ∉ path → ¬g.ReachesCycle n

/-- Whether the search finds a cycle below the nodes `ns`. -/
structure Finds (g : Digraph) (seen path ns cycle : List Nat) : Prop where
  isCycle : g.IsCycle cycle
  below : ∀ m ∈ cycle, ∃ n, (n ∈ path ∨ n ∈ ns) ∧ Relation.ReflTransGen g.Edge n m
  stops : ∀ tasks, g.searchCycle seen path (ns.map .visit ++ tasks) = some cycle

/-- Whether the search meets no edge back at the nodes `ns` and goes on behind them. -/
structure Passes (g : Digraph) (seen path ns seen' : List Nat) : Prop where
  onward : ∀ n ∈ ns, n ∉ path
  done : ∀ n ∈ seen', n ∉ path → ¬g.ReachesCycle n
  goesOn : ∀ tasks, g.searchCycle seen path (ns.map .visit ++ tasks) =
    g.searchCycle seen' path tasks

/-- A node that has been seen and is not on the path is left out. -/
theorem searchCycle_skip {n : Nat} (hn : n ∈ seen) (hback : n ∉ path) (ns : List Nat)
    (tasks : List SearchTask) :
    g.searchCycle seen path ((n :: ns).map .visit ++ tasks) =
      g.searchCycle seen path (ns.map .visit ++ tasks) := by
  rw [List.map_cons, List.cons_append, searchCycle, if_neg hback, dif_pos (.inl hn)]

/-- A node that is new stands on the path until its neighbours have been visited. -/
theorem searchCycle_visit {n : Nat} (hn : n ∉ seen) (hback : n ∉ path) (hlt : n < g.size)
    (ns : List Nat) (tasks : List SearchTask) :
    g.searchCycle seen path ((n :: ns).map .visit ++ tasks) =
      g.searchCycle (n :: seen) (n :: path)
        ((g.successors n).map .visit ++ .finish n :: (ns.map .visit ++ tasks)) := by
  have hnew : ¬(n ∈ seen ∨ g.size ≤ n) := not_or.mpr ⟨hn, Nat.not_le_of_lt hlt⟩
  rw [List.map_cons, List.cons_append, searchCycle, if_neg hback, dif_neg hnew, expand,
    List.append_assoc, List.singleton_append]

namespace SearchInvariant

variable {n : Nat} (h : g.SearchInvariant seen path (n :: ns))
include h

/-- Behind a node that is left out. -/
theorem rest : g.SearchInvariant seen path ns where
  nodes := fun m hm => h.nodes m (List.mem_cons_of_mem _ hm)
  known := h.known
  once := h.once
  edges := fun m hm => h.edges m (List.mem_cons_of_mem _ hm)
  done := h.done

/-- In front of the neighbours of a node that is new. -/
theorem inward (hg : g.IsBounded) (hn : n ∉ seen) :
    g.SearchInvariant (n :: seen) (n :: path) (g.successors n) where
  nodes := fun m hm => lt_of_mem_successors hg hm
  known := List.cons_subset_cons n h.known
  once := List.nodup_cons.mpr ⟨fun hmem => hn (h.known hmem), h.once⟩
  edges := fun m hm => List.isChain_cons_cons.mpr
    ⟨mem_successors.mp hm, h.edges n List.mem_cons_self⟩
  done := fun m hm hout => by
    rw [List.mem_cons, not_or] at hout
    exact h.done m ((List.mem_cons.mp hm).resolve_left hout.1) hout.2

/-- Behind a node that has been finished. All of its edges lead to what has been finished before, so
that it leads to no cycle either. -/
theorem outward {inner below : List Nat}
    (hbelow : Visits g.successors (n :: seen) (g.successors n) inner below)
    (hpasses : g.Passes (n :: seen) (n :: path) (g.successors n) inner) :
    g.SearchInvariant inner path ns where
  nodes := h.rest.nodes
  known := fun m hm => hbelow.mem_seen_iff.mpr (.inl (List.mem_cons_of_mem _ (h.known hm)))
  once := h.once
  edges := h.rest.edges
  done := fun m hm hout hreach => by
    by_cases hmn : m = n
    · subst hmn
      obtain ⟨k, hedge, hk⟩ := hreach.exists_edge
      have hnext : k ∈ g.successors m := mem_successors.mpr hedge
      exact hpasses.done k (hbelow.mem_seen_of_mem hnext) (hpasses.onward k hnext) hk
    · exact hpasses.done m hm (by simp [hmn, hout]) hreach

end SearchInvariant

/-- The search finds a cycle below the nodes that it comes to, or goes on behind them without having
met an edge back. -/
theorem searchCycle_visits (hg : g.IsBounded) {seen' order : List Nat}
    (h : Visits g.successors seen ns seen' order) (hinv : g.SearchInvariant seen path ns) :
    (∃ cycle, g.Finds seen path ns cycle) ∨ g.Passes seen path ns seen' := by
  induction h generalizing path with
  | nil => exact .inr ⟨by simp, hinv.done, fun _ => rfl⟩
  | @skip n seen rest seen' _ hn _ ih =>
    by_cases hback : n ∈ path
    · obtain ⟨hcycle, hmem⟩ :=
        isCycle_closeCycle hback hinv.once (hinv.edges n List.mem_cons_self)
      refine .inl ⟨_, hcycle, fun m hm => ⟨m, .inl (hmem m hm), .refl⟩, fun tasks => ?_⟩
      rw [List.map_cons, List.cons_append, searchCycle, if_pos hback]
    · rcases ih hinv.rest with ⟨cycle, hcycle, hbelow, hstops⟩ | ⟨honward, hdone, hgoes⟩
      · refine .inl ⟨cycle, hcycle, fun m hm => ?_, fun tasks => ?_⟩
        · obtain ⟨k, hk, hwalk⟩ := hbelow m hm
          exact ⟨k, hk.imp_right (List.mem_cons_of_mem _), hwalk⟩
        · rw [searchCycle_skip hn hback, hstops]
      · refine .inr ⟨List.forall_mem_cons.mpr ⟨hback, honward⟩, hdone, fun tasks => ?_⟩
        rw [searchCycle_skip hn hback, hgoes]
  | @visit n seen rest inner outer _ _ hn hbelow _ ihbelow ihrest =>
    have hback : n ∉ path := fun hmem => hn (hinv.known hmem)
    have hlt : n < g.size := hinv.nodes n List.mem_cons_self
    rcases ihbelow (hinv.inward hg hn) with ⟨cycle, hcycle, hfound, hstops⟩ | hpasses
    · refine .inl ⟨cycle, hcycle, fun m hm => ?_, fun tasks => ?_⟩
      · obtain ⟨k, hk, hwalk⟩ := hfound m hm
        rcases hk with hk | hk
        · rcases List.mem_cons.mp hk with rfl | hk
          · exact ⟨k, .inr List.mem_cons_self, hwalk⟩
          · exact ⟨k, .inl hk, hwalk⟩
        · exact ⟨n, .inr List.mem_cons_self, .head (mem_successors.mp hk) hwalk⟩
      · rw [searchCycle_visit hn hback hlt, hstops]
    · have hfinish : ∀ tasks, g.searchCycle seen path ((n :: rest).map .visit ++ tasks) =
          g.searchCycle inner path (rest.map .visit ++ tasks) := by
        intro tasks
        rw [searchCycle_visit hn hback hlt, hpasses.goesOn, searchCycle, List.tail_cons]
      rcases ihrest (hinv.outward hbelow hpasses) with
        ⟨cycle, hcycle, hfound, hstops⟩ | ⟨honward, hdone, hgoes⟩
      · refine .inl ⟨cycle, hcycle, fun m hm => ?_,
          fun tasks => (hfinish tasks).trans (hstops tasks)⟩
        obtain ⟨k, hk, hwalk⟩ := hfound m hm
        exact ⟨k, hk.imp_right (List.mem_cons_of_mem _), hwalk⟩
      · exact .inr ⟨List.forall_mem_cons.mpr ⟨hback, honward⟩, hdone,
          fun tasks => (hfinish tasks).trans (hgoes tasks)⟩

/-- What the search does with nodes that it comes to when it has finished everything it has seen. -/
theorem searchCycle_starts (hg : g.IsBounded) (hns : ∀ n ∈ ns, n < g.size)
    (hdone : ∀ n ∈ seen, ¬g.ReachesCycle n) :
    (∃ cycle, g.Finds seen [] ns cycle) ∨
      ∃ seen', (∀ n ∈ ns, n ∈ seen') ∧ g.Passes seen [] ns seen' := by
  obtain ⟨seen', order, hvisits⟩ := exists_visits hg seen hns
  have hinv : g.SearchInvariant seen [] ns :=
    ⟨hns, List.nil_subset _, List.nodup_nil, by simp, fun n hn _ => hdone n hn⟩
  exact (searchCycle_visits hg hvisits hinv).imp_right fun hpasses =>
    ⟨seen', fun n => hvisits.mem_seen_of_mem, hpasses⟩

end

/-- What is found is a cycle, and the search finds it below the smallest node that leads to one. -/
theorem isCycle_of_findCycle (hg : g.IsBounded) {cycle : List Nat} (h : g.findCycle = some cycle) :
    g.IsCycle cycle ∧ ∃ s, IsLeast {n | g.ReachesCycle n} s ∧
      ∀ n ∈ cycle, Relation.ReflTransGen g.Edge s n := by
  obtain ⟨hany, hsearch⟩ : g.hasCycle = true ∧ g.searchCycle [] [] g.allVisits = some cycle := by
    rw [findCycle] at h
    split at h
    · next hany => exact ⟨hany, h⟩
    · simp at h
  obtain ⟨n, hcycle⟩ := (hasCycle_iff hg).mp hany
  obtain ⟨s, hs⟩ : ∃ s, IsLeast {n | g.ReachesCycle n} s := by
    classical
    have hexists : ∃ n, g.ReachesCycle n := ⟨n, n, .refl, hcycle⟩
    exact ⟨Nat.find hexists, Nat.find_spec hexists, fun m hm => Nat.find_min' hexists hm⟩
  have hlt : s < g.size := by
    obtain ⟨m, hedge, -⟩ := ReachesCycle.exists_edge hs.1
    exact (hg _ hedge).1
  have hsplit : g.allVisits = (List.range s).map .visit ++
      ([s].map .visit ++ ((List.range (g.size - (s + 1))).map (s + 1 + ·)).map .visit) := by
    rw [allVisits, nodes, ← List.map_append, ← List.map_append, ← List.append_assoc,
      ← List.range_succ, ← List.range_add]
    congr 2
    omega
  have hsmall : ∀ n ∈ List.range s, n < g.size := fun n hn =>
    Nat.lt_trans (List.mem_range.mp hn) hlt
  rw [hsplit] at hsearch
  rcases searchCycle_starts hg hsmall (fun n hn => absurd hn List.not_mem_nil) with
    ⟨found, hfound, hreach, -⟩ | ⟨seen, -, -, hdone, hgoes⟩
  · -- No node in front of the smallest one leads to a cycle.
    obtain ⟨m, hm, hmcycle⟩ := hfound.exists_reachesCycle
    obtain ⟨k, hk, hwalk⟩ := hreach m hm
    have hk : k < s := by simpa using hk
    exact absurd (hs.2 (hmcycle.of_reaches hwalk)) (Nat.not_le_of_lt hk)
  · rw [hgoes] at hsearch
    have hstart : ∀ n ∈ [s], n < g.size := fun n hn => List.mem_singleton.mp hn ▸ hlt
    rcases searchCycle_starts hg hstart (fun n hn => hdone n hn List.not_mem_nil) with
      ⟨found, hfound, hreach, hstops⟩ | ⟨seen', hmem, -, hdone', -⟩
    · rw [hstops, Option.some.injEq] at hsearch
      subst hsearch
      exact ⟨hfound, s, hs, by simpa using hreach⟩
    · exact absurd hs.1 (hdone' s (hmem s (by simp)) List.not_mem_nil)

end Digraph

end ScriptBundle
