import ScriptBundle.Proofs.Graph.Cycle
import ScriptBundle.Proofs.Module.TableRuns

/-!
# The Order of Modules

Modules are emitted in the post-order of the graph that the calls of a table have built. Each module
comes once and, unless there is a cycle, behind the modules that it depends on. Modules that have
nothing to do with each other stay in the order in which they were registered, as the graph follows
the dependencies of a record in the order in which the record lists them.

## Main definitions

* `ModuleTable.IsReached`, `ModuleTable.IsLinked`: tables behind calls, and linked ones;
* `ModuleTable.targets`: the numbers of the dependencies of a record.

## Main statements

* `ModuleTable.IsReached.isLinked`: a table that can be linked is linked then;
* `ModuleTable.postOrder_of_reached`: the order is complete, and puts dependencies first;
* `ModuleTable.postOrder_of_linked`: the order keeps that of registration and is the post-order of
  the records themselves;
* `ModuleTable.findCycle_of_reached`: a cycle is found if there is one, and what is found is one.
-/

namespace ScriptBundle

namespace ModuleTable

variable {t : ModuleTable}

/-! ### Tables behind calls -/

/-- Whether calls lead to a table. -/
def IsReached (t : ModuleTable) : Prop := ∃ calls, run calls = t

/-- Whether calls lead to a table that is **linked**: all recorded dependencies are edges, so that
linking changes nothing. -/
structure IsLinked (t : ModuleTable) : Prop where
  reached : t.IsReached
  linked : t.link = (t, .ok ())

/-- Every table that can be linked is linked then. -/
theorem IsReached.isLinked (h : t.IsReached) {linked : ModuleTable}
    (hlink : t.link = (linked, .ok ())) : linked.IsLinked := by
  obtain ⟨calls, rfl⟩ := h
  refine ⟨⟨calls ++ [.link], ?_⟩, link_of_link hlink⟩
  rw [run_append_singleton, behind, hlink]

theorem IsReached.isCoherent (h : t.IsReached) : t.IsCoherent := by
  obtain ⟨calls, rfl⟩ := h
  exact isCoherent_run calls

/-- Edges join numbers below the size. -/
theorem IsCoherent.isBounded (h : t.IsCoherent) : t.graph.IsBounded :=
  fun edge hedge => (h.depends edge hedge).lt

/-- The edges of a linked table are the dependencies of its records. -/
theorem IsLinked.edge_iff (h : t.IsLinked) {id target : Nat} :
    t.graph.Edge id target ↔ t.Depends id target :=
  h.reached.isCoherent.mem_edges_of_link h.linked

/-- In a linked table every dependency has a record. -/
theorem IsLinked.knows (h : t.IsLinked) : t.Knows := by
  obtain ⟨found, hfound, -⟩ := link_eq_ok_iff.mp h.linked
  exact knows_of_recordedEdges hfound

/-- A record that tells no more than its name and its dependencies. -/
def recordOf (name : String) (dependencies : List String) : ModuleRecord :=
  { path := ⟨"/src/".toList ++ name.toList⟩, relativePath := name
    dependencies := dependencies.map fun dependency => ⟨"/src/".toList ++ dependency.toList⟩ }

/-! ### Dependencies first -/

/-- Two numbers stand in the same order as the records under them. -/
theorem sublist_of_map_get? {order : List Nat} {records : List ModuleRecord}
    (hmap : order.map t.get? = records.map some) {id other : Nat} {first second : ModuleRecord}
    (horder : [id, other].Sublist order) (hfirst : t.get? id = some first)
    (hsecond : t.get? other = some second) : [first, second].Sublist records := by
  have hmapped : [some first, some second].Sublist (records.map some) := by
    have hboth := horder.map t.get?
    rwa [List.map_cons, List.map_cons, List.map_nil, hfirst, hsecond, hmap] at hboth
  obtain ⟨found, hfound, heq⟩ := List.sublist_map_iff.mp hmapped
  have hpair : found = [first, second] :=
    (List.map_inj_right fun _ _ => Option.some.inj).mp heq.symm
  exact hpair ▸ hfound

/-- In a graph without cycles each module comes behind those that its edges lead to. -/
theorem IsCoherent.sublist_postOrder (h : t.IsCoherent) (hacyclic : t.graph.IsAcyclic)
    {id target : Nat} (hedge : t.graph.Edge id target) :
    [target, id].Sublist t.graph.postOrder := by
  have hordered := Digraph.postOrder_ordered h.isBounded hacyclic
  have hid : id ∈ t.graph.postOrder := Digraph.mem_postOrder.mpr (h.isBounded _ hedge).1
  obtain ⟨front, behind, horder⟩ := List.append_of_mem hid
  rw [horder] at hordered ⊢
  have htarget : target ∈ front := by
    rcases hordered.mem_front hedge with hmem | hmem
    · simp at hmem
    · exact hmem
  exact (List.singleton_sublist.mpr htarget).append
    (List.singleton_sublist.mpr List.mem_cons_self)

/-- The post-order holds each module once. Without a cycle each module comes behind those that its
edges lead to. If no cycle is found, then the records can be taken out in this order: all of them,
each behind those that its edges lead to, and in a linked table each behind all that it depends on.
-/
theorem postOrder_of_reached (h : t.IsReached) :
    t.graph.postOrder.Perm (List.range t.records.length) ∧
      (t.graph.IsAcyclic → ∀ id target, t.graph.Edge id target →
        [target, id].Sublist t.graph.postOrder) ∧
      (t.graph.findCycle = none → ∃ records,
        t.orderedRecords t.graph.postOrder = .ok records ∧ records.Perm t.records ∧
          (∀ id target record imported, t.graph.Edge id target → t.get? id = some record →
            t.get? target = some imported → [imported, record].Sublist records) ∧
          (t.IsLinked → ∀ record ∈ records, ∀ dependency ∈ record.dependencies,
            ∃ imported, imported.path.same dependency ∧ [imported, record].Sublist records)) := by
  have hcoherent := h.isCoherent
  refine ⟨Digraph.postOrder_perm, fun hacyclic _ _ => hcoherent.sublist_postOrder hacyclic, ?_⟩
  intro hnone
  have hacyclic := (Digraph.findCycle_eq_none_iff hcoherent.isBounded).mp hnone
  obtain ⟨records, hordered, hmap, hperm⟩ := t.exists_orderedRecords
  refine ⟨records, hordered, hperm, ?_, ?_⟩
  · intro id target record imported hedge hrecord himported
    exact sublist_of_map_get? hmap (hcoherent.sublist_postOrder hacyclic hedge) himported hrecord
  · intro hlinked record hrecord dependency hdependency
    have hrecord : record ∈ t.records := hperm.mem_iff.mp hrecord
    obtain ⟨id, hid⟩ := List.mem_iff_getElem?.mp hrecord
    obtain ⟨target, htarget⟩ :=
      Option.isSome_iff_exists.mp (hlinked.knows record hrecord dependency hdependency)
    obtain ⟨imported, himported, hsame⟩ := path_same_of_idOf? htarget
    have hedge : t.graph.Edge id target :=
      hlinked.edge_iff.mpr ⟨record, hid, dependency, hdependency, htarget⟩
    exact ⟨imported, hsame,
      sublist_of_map_get? hmap (hcoherent.sublist_postOrder hacyclic hedge) himported hid⟩

/-- A module with two dependencies that share one. A first attempt to link it comes too early. -/
def diamond : ModuleTable :=
  run [.add (recordOf "app.js" ["left.js", "right.js"]), .link,
    .add (recordOf "left.js" ["base.js"]), .add (recordOf "right.js" ["base.js"]),
    .add (recordOf "base.js" []), .link]

/-- The shared dependency comes first, and the module that needs all others last. -/
theorem postOrder_of_reached_of_diamond :
    diamond.graph.postOrder = [3, 1, 2, 0] ∧ diamond.graph.postOrder.Perm (List.range 4) ∧
      diamond.graph.IsAcyclic ∧ [3, 2].Sublist diamond.graph.postOrder ∧
      diamond.graph.findCycle = none ∧ diamond.IsLinked ∧
      ∃ records, diamond.orderedRecords diamond.graph.postOrder = .ok records ∧
        ∀ record ∈ records, ∀ dependency ∈ record.dependencies,
          ∃ imported, imported.path.same dependency ∧ [imported, record].Sublist records := by
  have hreached : diamond.IsReached := ⟨_, rfl⟩
  have hlinked : diamond.IsLinked := ⟨hreached, by cbv⟩
  have hnone : diamond.graph.findCycle = none := by cbv
  have hacyclic := (Digraph.findCycle_eq_none_iff hreached.isCoherent.isBounded).mp hnone
  obtain ⟨hperm, hedges, hrecords⟩ := postOrder_of_reached hreached
  obtain ⟨records, hordered, -, -, hdependencies⟩ := hrecords hnone
  have hsuccessors : diamond.graph.successors 2 = [3] := by cbv
  have hedge : diamond.graph.Edge 2 3 :=
    Digraph.mem_successors.mp (hsuccessors ▸ List.mem_singleton_self 3)
  exact ⟨by cbv, hperm, hacyclic, hedges hacyclic 2 3 hedge, hnone, hlinked, records, hordered,
    hdependencies hlinked⟩

/-! ### The order of registration -/

/-- The numbers of the dependencies of a record, in the order in which the record lists them. -/
def targets (t : ModuleTable) (id : Nat) : List Nat :=
  match t.get? id with
  | none => []
  | some record => record.dependencies.filterMap t.idOf?

/-- In a linked table the graph follows the dependencies of a record in order. -/
theorem IsLinked.targets_eq (h : t.IsLinked)
    (hdistinct : ∀ record ∈ t.records, record.dependencies.Pairwise fun a b => a.same b = false)
    {id : Nat} (hid : id < t.graph.size) : t.targets id = t.graph.successors id := by
  have hrecord : t.records[id]? = some t.records[id] := List.getElem?_eq_getElem hid
  have hlists := h.reached.isCoherent.lists_of_link h.linked hrecord
    (hdistinct _ (List.getElem_mem hid))
  have hfilter : ∀ (paths : List Path) (ids : List Nat), ids.map some = paths.map t.idOf? →
      paths.filterMap t.idOf? = ids := by
    intro paths ids heq
    have hids := congrArg (List.filterMap fun found => found) heq
    simpa [List.filterMap_map] using hids.symm
  rw [targets, get?, hrecord]
  exact hfilter _ _ hlists

/-- In a linked table with or without cycles, each module has a seed, the first module from which it
can be reached, and modules with an earlier seed come first. If no record repeats a dependency, then
the order is the one in which a search finishes the records that visits them in the order of their
registration, and below each record its dependencies in the order in which it lists them. -/
theorem postOrder_of_linked (h : t.IsLinked) :
    (∀ id < t.records.length, ∃ s, t.graph.IsSeed s id) ∧
      (∀ id other s r, t.graph.IsSeed s id → t.graph.IsSeed r other → s < r →
        [id, other].Sublist t.graph.postOrder) ∧
      ((∀ record ∈ t.records, record.dependencies.Pairwise fun a b => a.same b = false) →
        ∀ order, (∃ seen, Visits t.targets [] (List.range t.records.length) seen order) ↔
          order = t.graph.postOrder) := by
  have hbounded := h.reached.isCoherent.isBounded
  refine ⟨fun id hid => Digraph.exists_isSeed hid,
    fun id other s r hs hr hlt => Digraph.sublist_postOrder_of_seed_lt hbounded hs hr hlt, ?_⟩
  intro hdistinct order
  obtain ⟨seen, hvisits⟩ := Digraph.visits_postOrder hbounded
  have htargets : Visits t.targets [] (List.range t.records.length) seen t.graph.postOrder := by
    refine hvisits.congr (· < t.graph.size) (fun id hid => (h.targets_eq hdistinct hid).symm)
      (fun id _ target htarget => Digraph.lt_of_mem_successors hbounded htarget) ?_
    exact fun id hid => List.mem_range.mp hid
  constructor
  · rintro ⟨seen', hother⟩
    exact (hother.unique htargets).2
  · rintro rfl
    exact ⟨seen, htargets⟩

/-- Two modules that import each other, and two that have nothing to do with them. -/
def circleAndPair : ModuleTable :=
  run [.add (recordOf "a.js" ["b.js"]), .add (recordOf "b.js" ["a.js"]),
    .add (recordOf "c.js" ["d.js"]), .add (recordOf "d.js" []), .link]

/-- The modules of the circle come first, although the other ones are on no cycle. -/
theorem postOrder_of_linked_of_circle :
    circleAndPair.IsLinked ∧ circleAndPair.graph.IsSeed 0 1 ∧ circleAndPair.graph.IsSeed 2 3 ∧
      [1, 3].Sublist circleAndPair.graph.postOrder ∧
      ∃ seen, Visits circleAndPair.targets [] (List.range 4) seen [1, 0, 3, 2] := by
  have hlinked : circleAndPair.IsLinked := ⟨⟨_, rfl⟩, by cbv⟩
  have hgraph : circleAndPair.graph = ⟨4, [(2, 3), (1, 0), (0, 1)]⟩ := by cbv
  have hedge : ∀ n m, circleAndPair.graph.Edge n m ↔
      n = 2 ∧ m = 3 ∨ n = 1 ∧ m = 0 ∨ n = 0 ∧ m = 1 := by simp [Digraph.Edge, hgraph]
  have hfirst : circleAndPair.graph.IsSeed 0 1 :=
    ⟨⟨by decide +kernel, .single ((hedge 0 1).mpr (by decide))⟩, fun k _ => Nat.zero_le k⟩
  have hcircle : ∀ {k n}, Relation.ReflTransGen circleAndPair.graph.Edge k n → k < 2 → n < 2 := by
    intro k n hreach hk
    induction hreach with
    | refl => exact hk
    | tail _ hstep ih =>
      rw [hedge] at hstep
      omega
  have hsecond : circleAndPair.graph.IsSeed 2 3 := by
    refine ⟨⟨by decide +kernel, .single ((hedge 2 3).mpr (by decide))⟩, fun k hk => ?_⟩
    by_contra hlt
    exact absurd (hcircle hk.2 (Nat.lt_of_not_le hlt)) (by decide)
  obtain ⟨-, hseeds, hrecords⟩ := postOrder_of_linked hlinked
  have hdistinct : ∀ record ∈ circleAndPair.records,
      record.dependencies.Pairwise fun a b => a.same b = false := by
    have hall : circleAndPair.records.all (fun record =>
        decide (record.dependencies.Pairwise fun a b => a.same b = false)) = true := by cbv
    exact fun record hrecord => of_decide_eq_true (List.all_eq_true.mp hall record hrecord)
  exact ⟨hlinked, hfirst, hsecond, hseeds 1 3 0 2 hfirst hsecond (by decide),
    (hrecords hdistinct [1, 0, 3, 2]).mpr (by cbv)⟩

/-! ### Cycles -/

/-- A cycle is found exactly if some module reaches itself along at least one edge. What is found
is a cycle, and can be reached from the first module that leads to any cycle. -/
theorem findCycle_of_reached (h : t.IsReached) :
    (t.graph.hasCycle = true ↔ ∃ id, Relation.TransGen t.graph.Edge id id) ∧
      (t.graph.findCycle.isSome ↔ ∃ id, Relation.TransGen t.graph.Edge id id) ∧
      ∀ cycle, t.graph.findCycle = some cycle → t.graph.IsCycle cycle ∧
        ∃ s, IsLeast {id | t.graph.ReachesCycle id} s ∧
          ∀ id ∈ cycle, Relation.ReflTransGen t.graph.Edge s id := by
  have hbounded := h.isCoherent.isBounded
  refine ⟨Digraph.hasCycle_iff hbounded, ?_, fun cycle => Digraph.isCycle_of_findCycle hbounded⟩
  rw [Option.isSome_iff_ne_none, Ne, Digraph.findCycle_eq_none_iff hbounded, Digraph.IsAcyclic]
  push Not
  rfl

/-- A module that leads to a circle of two others, behind which a module imports itself. -/
def tailedCircle : ModuleTable :=
  run [.add (recordOf "a.js" ["b.js"]), .add (recordOf "b.js" ["c.js"]),
    .add (recordOf "c.js" ["b.js", "d.js"]), .add (recordOf "d.js" ["d.js"]), .link]

/-- The circle is found without the module that leads to it. -/
theorem findCycle_of_reached_of_tail :
    tailedCircle.graph.findCycle = some [1, 2, 1] ∧ tailedCircle.graph.IsCycle [1, 2, 1] ∧
      ∃ s, IsLeast {id | tailedCircle.graph.ReachesCycle id} s ∧
        ∀ id ∈ [1, 2, 1], Relation.ReflTransGen tailedCircle.graph.Edge s id := by
  have hfound : tailedCircle.graph.findCycle = some [1, 2, 1] := by cbv
  exact ⟨hfound, (findCycle_of_reached ⟨_, rfl⟩).2.2 _ hfound⟩

end ModuleTable

end ScriptBundle
