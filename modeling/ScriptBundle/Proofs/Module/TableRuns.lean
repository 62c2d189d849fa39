import Mathlib.Data.List.Lattice
import Mathlib.Data.List.Dedup
import Mathlib.Data.List.Induction
import ScriptBundle.Proofs.Module.Table
import ScriptBundle.Proofs.Report

/-!
# Runs of Module Tables

A table is filled by calls that register a record or link what is there, as often as one likes and
in any order. The edges of a module are added all at once, by the first call that can link the
table, and from then on they stay as they are.

## Main definitions

* `TableCall`: what can be asked of a table;
* `ModuleTable.run`: the table behind a list of calls;
* `ModuleTable.IsCoherent`: what every call preserves;
* `ModuleTable.IsRegistry`: what can be said of the table behind a list of calls.

## Main statements

* `ModuleTable.successors_recordedEdges`: the edges of a module, in the order of its dependencies;
* `ModuleTable.link_eq_error_iff`: a table cannot be linked if a dependency has no record;
* `ModuleTable.eq_of_link_eq_error`: such a table gets no edge;
* `ModuleTable.IsCoherent.behind`: each call preserves coherence;
* `ModuleTable.isRegistry_run`: what every run amounts to.
-/

namespace ScriptBundle

/-- A **call** of a table. -/
inductive TableCall where
  | add (record : ModuleRecord)
  | link
  deriving DecidableEq, Repr

/-- The record that a call registers. -/
def TableCall.record? : TableCall → Option ModuleRecord
  | add record => some record
  | link => none

/-! ### Edges -/

namespace Digraph

/-- Edges are added like elements of a set, each one in front of those added before. -/
theorem foldl_addEdge (edges found : List (Nat × Nat)) :
    found.foldl addEdge edges = found.reverse ∪ edges := by
  rw [List.union_def, List.foldr_reverse]
  rfl

variable {size : Nat}

/-- Neighbours are there once if the edges are. -/
theorem nodup_neighbours {edges : List (Nat × Nat)} (h : edges.Nodup) (n : Nat) :
    ((Digraph.mk size edges).successors n).Nodup ∧
      ((Digraph.mk size edges).predecessors n).Nodup := by
  refine ⟨List.Nodup.filterMap ?_ h, List.Nodup.filterMap ?_ h⟩
  · rintro ⟨start, stop⟩ ⟨start', stop'⟩ other hother hother'
    obtain ⟨rfl, rfl⟩ : start = n ∧ stop = other := by simpa using hother
    obtain ⟨rfl, rfl⟩ : start' = start ∧ stop' = stop := by simpa using hother'
    rfl
  · rintro ⟨start, stop⟩ ⟨start', stop'⟩ other hother hother'
    obtain ⟨rfl, rfl⟩ : stop = n ∧ start = other := by simpa using hother
    obtain ⟨rfl, rfl⟩ : stop' = stop ∧ start' = start := by simpa using hother'
    rfl

/-- Edges that are there are not added. -/
theorem union_of_subset {found edges : List (Nat × Nat)} (h : found ⊆ edges) :
    found ∪ edges = edges := by
  induction found with
  | nil => rfl
  | cons edge rest ih =>
    obtain ⟨hedge, hrest⟩ := List.cons_subset.mp h
    rw [List.cons_union, ih hrest, List.insert_of_mem hedge]

/-- Nothing is merged into a list without repetitions. -/
theorem union_nil {ns : List Nat} (h : ns.Nodup) : ns ∪ [] = ns := by
  induction ns with
  | nil => rfl
  | cons n rest ih =>
    obtain ⟨hn, hrest⟩ := List.nodup_cons.mp h
    rw [List.cons_union, ih hrest, List.insert_of_not_mem hn]

/-- A node has no neighbours if no edge starts there. -/
theorem successors_eq_nil {g : Digraph} {n : Nat} (h : ∀ edge ∈ g.edges, edge.1 ≠ n) :
    g.successors n = [] :=
  List.eq_nil_iff_forall_not_mem.mpr fun _ hmem => h _ (mem_successors.mp hmem) rfl

/-- The neighbours of a node along the edges from one node and others. -/
theorem successors_edgesFrom (id : Nat) (targets : List Nat) (others : List (Nat × Nat)) (n : Nat) :
    (Digraph.mk size (targets.map (id, ·) ++ others)).successors n =
      (if id = n then targets else []) ++ (Digraph.mk size others).successors n := by
  rw [successors, List.filterMap_append, List.filterMap_map]
  congr 1
  split
  · next hstart => simp [hstart]
  · next hstart => simp [hstart]

/-- Along an edge that is added a node gets a neighbour. -/
theorem successors_insert (edge : Nat × Nat) (edges : List (Nat × Nat)) (n : Nat) :
    (Digraph.mk size (edges.insert edge)).successors n =
      if edge.1 = n then ((Digraph.mk size edges).successors n).insert edge.2
      else (Digraph.mk size edges).successors n := by
  by_cases hmem : edge ∈ edges
  · rw [List.insert_of_mem hmem]
    split
    · next hstart =>
      rw [List.insert_of_mem (mem_successors.mpr (hstart ▸ hmem))]
    · rfl
  · rw [List.insert_of_not_mem hmem]
    split
    · next hstart =>
      have hnone : edge.2 ∉ (Digraph.mk size edges).successors n := by
        rw [mem_successors, ← hstart]
        exact hmem
      rw [List.insert_of_not_mem hnone]
      simp [successors, hstart]
    · next hstart => simp [successors, hstart]

/-- The neighbours of a node along edges of two kinds. -/
theorem successors_union (found edges : List (Nat × Nat)) (n : Nat) :
    (Digraph.mk size (found ∪ edges)).successors n =
      (Digraph.mk size found).successors n ∪ (Digraph.mk size edges).successors n := by
  induction found with
  | nil => rfl
  | cons edge found ih =>
    rw [List.cons_union, successors_insert, ih]
    split
    · next hstart => simp [successors, hstart, List.cons_union]
    · next hstart => simp [successors, hstart]

end Digraph

namespace ModuleTable

variable {t : ModuleTable}

/-! ### Numbers -/

/-- A path has a number if a record has the same path. -/
theorem isSome_idOf?_iff {path : Path} :
    (t.idOf? path).isSome ↔ ∃ record ∈ t.records, record.path.same path = true := by
  rw [idOf?, List.findIdx?_isSome, List.any_eq_true]

/-- Two paths that are the same as a third one are the same. -/
theorem same_of_same {p q r : Path} (hp : r.same p) (hq : r.same q) : p.same q := by
  rw [Path.same, beq_iff_eq] at hp hq ⊢
  exact hp.symm.trans hq

theorem same_comm {p q : Path} : p.same q = q.same p := by
  rw [Path.same, Path.same, Bool.beq_comm]

/-- Among records with paths of their own, the number of a path is that of its record. -/
theorem idOf?_eq_some_iff (h : t.records.Pairwise fun a b => a.path.same b.path = false)
    {path : Path} {id : Nat} :
    t.idOf? path = some id ↔
      ∃ record, t.records[id]? = some record ∧ record.path.same path = true := by
  refine ⟨path_same_of_idOf?, ?_⟩
  rintro ⟨record, hrecord, hsame⟩
  obtain ⟨hlt, rfl⟩ := List.getElem?_eq_some_iff.mp hrecord
  refine List.findIdx?_eq_some_iff_getElem.mpr ⟨hlt, hsame, fun j hj hother => ?_⟩
  have hdistinct := List.pairwise_iff_getElem.mp h j id (by omega) hlt hj
  rw [same_of_same (r := path) (same_comm ▸ hother) (same_comm ▸ hsame)] at hdistinct
  simp at hdistinct

/-- A path keeps its number. -/
theorem idOf?_add_of_known (record : ModuleRecord) {path : Path} {id : Nat}
    (h : t.idOf? path = some id) : (t.add record).idOf? path = some id := by
  unfold add
  split
  · exact h
  · rw [idOf?, List.findIdx?_append]
    rw [idOf?] at h
    simp [h]

/-- A record is found under the number that it is registered with. -/
theorem idOf?_add (t : ModuleTable) (record : ModuleRecord) :
    (t.add record).idOf? record.path = some (t.idAfterAdd record) := by
  cases hid : t.idOf? record.path with
  | some id => rw [idOf?_add_of_known record hid, idAfterAdd, hid, Option.getD_some]
  | none =>
    rw [idAfterAdd, hid, add, hid, idOf?, List.findIdx?_append]
    rw [idOf?] at hid
    simp [hid]

/-- Dependencies are told from one another by their numbers. -/
theorem nodup_targets {dependencies : List Path} {targets : List Nat}
    (h : dependencies.Pairwise fun a b => a.same b = false)
    (htargets : dependencies.map t.idOf? = targets.map some) : targets.Nodup := by
  have hne : (dependencies.map t.idOf?).Pairwise fun a b => a ≠ b ∨ a = none := by
    rw [List.pairwise_map]
    refine h.imp fun {a b} hab => ?_
    by_cases heq : t.idOf? a = t.idOf? b
    · cases hid : t.idOf? a with
      | none => exact .inr rfl
      | some id =>
        obtain ⟨record, hrecord, hsame⟩ := path_same_of_idOf? hid
        obtain ⟨other, hother, hsame'⟩ := path_same_of_idOf? (heq ▸ hid)
        obtain rfl : record = other := by simpa [hrecord] using hother
        simp [same_of_same hsame hsame'] at hab
    · exact .inl heq
  rw [htargets, List.pairwise_map] at hne
  refine hne.imp fun {a b} hab => ?_
  simpa using hab

/-! ### Recorded edges -/

/-- The edges of a module lead to the numbers of its dependencies. -/
theorem edgesTo_eq_ok_iff {id : Nat} {record : ModuleRecord} {dependencies : List Path}
    {found : List (Nat × Nat)} :
    t.edgesTo id record dependencies = .ok found ↔
      ∃ targets : List Nat,
        dependencies.map t.idOf? = targets.map some ∧ found = targets.map (id, ·) := by
  induction dependencies generalizing found with
  | nil =>
    constructor
    · intro h
      exact ⟨[], rfl, by simpa [edgesTo] using h.symm⟩
    · rintro ⟨targets, htargets, rfl⟩
      obtain rfl : targets = [] := by simpa using htargets.symm
      rfl
  | cons first rest ih =>
    cases hid : t.idOf? first with
    | none =>
      constructor
      · intro h
        simp [edgesTo, hid] at h
      · rintro ⟨targets, htargets, -⟩
        cases targets <;> simp [hid] at htargets
    | some target =>
      simp only [edgesTo, hid, map_eq_ok_iff]
      constructor
      · rintro ⟨others, hothers, rfl⟩
        obtain ⟨targets, htargets, rfl⟩ := ih.mp hothers
        exact ⟨target :: targets, by simp [hid, htargets], rfl⟩
      · rintro ⟨targets, htargets, rfl⟩
        cases targets with
        | nil => simp at htargets
        | cons next targets =>
          rw [List.map_cons, List.map_cons, List.cons.injEq, hid, Option.some.injEq] at htargets
          obtain ⟨rfl, hrest⟩ := htargets
          exact ⟨_, ih.mpr ⟨targets, hrest, rfl⟩, rfl⟩

/-- A module without edges names a dependency that has no record. -/
theorem edgesTo_eq_error {id : Nat} {record : ModuleRecord} {dependencies : List Path}
    {fault : TableFault} (h : t.edgesTo id record dependencies = .error fault) :
    ∃ dependency ∈ dependencies, t.idOf? dependency = none ∧
      fault = .unknownDependency record.relativePath dependency := by
  induction dependencies with
  | nil => simp [edgesTo] at h
  | cons first rest ih =>
    cases hid : t.idOf? first with
    | none => exact ⟨first, by simp, hid, by simpa [edgesTo, hid] using h.symm⟩
    | some target =>
      cases hrest : t.edgesTo id record rest with
      | ok found => simp [edgesTo, hid, hrest, Except.map] at h
      | error cause =>
        obtain rfl : cause = fault := by simpa [edgesTo, hid, hrest, Except.map] using h
        obtain ⟨dependency, hmem, hnone, hfault⟩ := ih hrest
        exact ⟨dependency, by simp [hmem], hnone, hfault⟩

/-- Modules without edges name a dependency that has no record. -/
theorem recordedEdges_eq_error {id : Nat} {records : List ModuleRecord} {fault : TableFault}
    (h : t.recordedEdges id records = .error fault) :
    ∃ record ∈ records, ∃ dependency ∈ record.dependencies, t.idOf? dependency = none ∧
      fault = .unknownDependency record.relativePath dependency := by
  induction records generalizing id with
  | nil => simp [recordedEdges] at h
  | cons first rest ih =>
    rw [recordedEdges] at h
    split at h
    · next cause hfirst =>
      obtain rfl : cause = fault := by simpa using h
      obtain ⟨dependency, hmem, hnone, hfault⟩ := edgesTo_eq_error hfirst
      exact ⟨first, by simp, dependency, by simpa using hmem, hnone, hfault⟩
    · cases hrest : t.recordedEdges (id + 1) rest with
      | ok found => simp [hrest, Except.map] at h
      | error cause =>
        obtain rfl : cause = fault := by simpa [hrest, Except.map] using h
        obtain ⟨record, hrecord, hdependency⟩ := ih hrest
        exact ⟨record, by simp [hrecord], hdependency⟩

/-- The edges of each module lead to its dependencies, the last one first. -/
theorem successors_recordedEdges {id : Nat} {records : List ModuleRecord}
    {found : List (Nat × Nat)} (h : t.recordedEdges id records = .ok found) (size : Nat) :
    (∀ edge ∈ found, id ≤ edge.1) ∧ ∀ i record, records[i]? = some record →
      ∃ targets : List Nat, record.dependencies.map t.idOf? = targets.map some ∧
        (Digraph.mk size found).successors (id + i) = targets.reverse := by
  induction records generalizing id found with
  | nil =>
    obtain rfl : found = [] := by simpa [recordedEdges] using h.symm
    simp
  | cons first rest ih =>
    rw [recordedEdges] at h
    split at h
    · simp at h
    · next front hfront =>
      obtain ⟨behind, hbehind, rfl⟩ := map_eq_ok_iff.mp h
      obtain ⟨targets, htargets, rfl⟩ := edgesTo_eq_ok_iff.mp hfront
      obtain ⟨hstarts, hrest⟩ := ih hbehind
      refine ⟨?_, ?_⟩
      · intro edge hedge
        rcases List.mem_append.mp hedge with hedge | hedge
        · obtain ⟨target, -, rfl⟩ := List.mem_map.mp hedge
          exact Nat.le_refl _
        · exact Nat.le_of_succ_le (hstarts edge hedge)
      · intro i record hrecord
        cases i with
        | zero =>
          obtain rfl : first = record := by simpa using hrecord
          have hnone : (Digraph.mk size behind).successors id = [] :=
            Digraph.successors_eq_nil fun edge hedge => Nat.ne_of_gt (hstarts edge hedge)
          refine ⟨targets.reverse, ?_, ?_⟩
          · rw [← List.reverse_inj, ← List.map_reverse, htargets, ← List.map_reverse,
              List.reverse_reverse]
          · rw [Nat.add_zero, Digraph.successors_edgesFrom, if_pos rfl, hnone, List.append_nil,
              List.reverse_reverse]
        | succ i =>
          obtain ⟨others, hothers, hsuccessors⟩ := hrest i record (by simpa using hrecord)
          refine ⟨others, hothers, ?_⟩
          have hplace : id + (i + 1) = id + 1 + i := by omega
          rw [Digraph.successors_edgesFrom, if_neg (by omega), List.nil_append, hplace, hsuccessors]

/-! ### Linking -/

/-- A table is linked by adding the edges of all of its records. -/
theorem link_eq_ok_iff {linked : ModuleTable} :
    t.link = (linked, .ok ()) ↔ ∃ found, t.recordedEdges 0 t.records = .ok found ∧
      linked = ⟨t.records, found.reverse ∪ t.edges⟩ := by
  rw [link]
  split
  · next fault hfault => simp [hfault]
  · next found hfound => simp [hfound, Digraph.foldl_addEdge, eq_comm]

/-- A table that cannot be linked gets no edge. -/
theorem eq_of_link_eq_error {changed : ModuleTable} {fault : TableFault}
    (h : t.link = (changed, .error fault)) : changed = t := by
  rw [link] at h
  split at h
  · exact (Prod.mk.inj h).1.symm
  · simp at h

/-- A table cannot be linked if a dependency has no record, and only then. -/
theorem link_eq_error_iff :
    (∃ changed fault, t.link = (changed, .error fault)) ↔
      ∃ record ∈ t.records, ∃ dependency ∈ record.dependencies,
        ∀ other ∈ t.records, other.path.same dependency = false := by
  simp only [← idOf?_eq_none_iff]
  constructor
  · rintro ⟨changed, fault, hfault⟩
    cases hedges : t.recordedEdges 0 t.records with
    | ok found => simp [link, hedges] at hfault
    | error cause =>
      obtain ⟨record, hrecord, dependency, hdependency, hnone, -⟩ := recordedEdges_eq_error hedges
      exact ⟨record, hrecord, dependency, hdependency, hnone⟩
  · rintro ⟨record, hrecord, dependency, hdependency, hnone⟩
    cases hedges : t.recordedEdges 0 t.records with
    | error fault => exact ⟨t, fault, by rw [link, hedges]⟩
    | ok found =>
      obtain ⟨i, hi⟩ := List.mem_iff_getElem?.mp hrecord
      obtain ⟨targets, htargets, -⟩ := (successors_recordedEdges hedges 0).2 i record hi
      have hmem := List.mem_map_of_mem (f := t.idOf?) hdependency
      rw [htargets, hnone] at hmem
      simp at hmem

/-- The numbers of paths are told by the records alone. -/
theorem recordedEdges_congr {linked : ModuleTable} (h : linked.records = t.records) (id : Nat)
    (records : List ModuleRecord) :
    linked.recordedEdges id records = t.recordedEdges id records := by
  have hid : linked.idOf? = t.idOf? := by
    funext path
    rw [idOf?, idOf?, h]
  have hedges : ∀ (id : Nat) (record : ModuleRecord) (dependencies : List Path),
      linked.edgesTo id record dependencies = t.edgesTo id record dependencies := by
    intro id record dependencies
    induction dependencies with
    | nil => rfl
    | cons first rest ih => rw [edgesTo, edgesTo, hid, ih]
  induction records generalizing id with
  | nil => rfl
  | cons first rest ih => rw [recordedEdges, recordedEdges, hedges, ih]

/-- A linked table is linked already. -/
theorem link_of_link {linked : ModuleTable} (h : t.link = (linked, .ok ())) :
    linked.link = (linked, .ok ()) := by
  obtain ⟨found, hfound, rfl⟩ := link_eq_ok_iff.mp h
  refine link_eq_ok_iff.mpr ⟨found, ?_, ?_⟩
  · have hrecords : (ModuleTable.mk t.records (found.reverse ∪ t.edges)).records = t.records := rfl
    exact (recordedEdges_congr hrecords 0 t.records).trans hfound
  · have hsubset : found.reverse ⊆ found.reverse ∪ t.edges := fun edge hedge =>
      List.mem_union_iff.mpr (.inl hedge)
    exact congrArg (ModuleTable.mk t.records) (Digraph.union_of_subset hsubset).symm

/-- Where the recorded edges can be told, every dependency has a record. -/
theorem knows_of_recordedEdges {found : List (Nat × Nat)}
    (h : t.recordedEdges 0 t.records = .ok found) : t.Knows := by
  intro record hrecord dependency hdependency
  obtain ⟨i, hi⟩ := List.mem_iff_getElem?.mp hrecord
  obtain ⟨targets, htargets, -⟩ := (successors_recordedEdges h 0).2 i record hi
  have hmem := List.mem_map_of_mem (f := t.idOf?) hdependency
  rw [htargets] at hmem
  obtain ⟨target, -, htarget⟩ := List.mem_map.mp hmem
  rw [← htarget, Option.isSome_some]

/-- The recorded edges are the dependencies. -/
theorem mem_recordedEdges {found : List (Nat × Nat)} (h : t.recordedEdges 0 t.records = .ok found)
    {id target : Nat} : (id, target) ∈ found ↔ t.Depends id target := by
  obtain ⟨found', hfound', hmem⟩ := recordedEdges_of_known 0 (knows_of_recordedEdges h)
  obtain rfl : found = found' := by simpa [h] using hfound'
  rw [hmem]
  constructor
  · rintro ⟨i, record, hi, dependency, hd, other, hid, heq⟩
    obtain ⟨rfl, rfl⟩ : id = 0 + i ∧ target = other := by simpa using heq
    exact ⟨record, by simpa using hi, dependency, hd, hid⟩
  · rintro ⟨record, hi, dependency, hd, hid⟩
    exact ⟨id, record, hi, dependency, hd, target, hid, by simp⟩

/-! ### Coherence -/

/-- Whether a module lists the dependencies of its record, each under its number. -/
def Lists (t : ModuleTable) (id : Nat) (record : ModuleRecord) : Prop :=
  (t.graph.successors id).map some = record.dependencies.map t.idOf?

/-- A table is **coherent** if each of its records has a path of its own, and its edges are
dependencies. A module that repeats no dependency has no edges yet, or has all of them in order. -/
structure IsCoherent (t : ModuleTable) : Prop where
  distinct : t.records.Pairwise fun a b => a.path.same b.path = false
  once : t.edges.Nodup
  depends : ∀ edge ∈ t.edges, t.Depends edge.1 edge.2
  listed : ∀ id record, t.records[id]? = some record →
    (record.dependencies.Pairwise fun a b => a.same b = false) →
      t.graph.successors id = [] ∨ t.Lists id record

theorem isCoherent_empty : empty.IsCoherent where
  distinct := .nil
  once := .nil
  depends := by simp [empty]
  listed := by simp [empty]

/-- Dependencies stay dependencies when a record is registered. -/
theorem Depends.add {id target : Nat} (h : t.Depends id target) (record : ModuleRecord) :
    (t.add record).Depends id target := by
  obtain ⟨found, hfound, dependency, hdependency, hid⟩ := h
  refine ⟨found, ?_, dependency, hdependency, idOf?_add_of_known record hid⟩
  unfold ModuleTable.add
  split
  · exact hfound
  · rw [List.getElem?_append_left (List.getElem?_eq_some_iff.mp hfound).1]
    exact hfound

/-- Registering a record preserves coherence. -/
theorem IsCoherent.add (h : t.IsCoherent) (record : ModuleRecord) : (t.add record).IsCoherent := by
  cases hid : t.idOf? record.path with
  | some id =>
    rw [add_of_known hid]
    exact h
  | none =>
    have hnew := idOf?_eq_none_iff.mp hid
    have hrecords := records_add hnew
    have hgraph : ∀ id, (t.add record).graph.successors id = t.graph.successors id := by
      intro id
      rw [Digraph.successors, Digraph.successors, graph, graph, edges_add]
    refine ⟨?_, ?_, ?_, ?_⟩
    · rw [hrecords]
      refine List.pairwise_append.mpr ⟨h.distinct, List.pairwise_singleton _ _, ?_⟩
      intro other hother new hmem
      rw [List.mem_singleton.mp hmem]
      exact hnew other hother
    · rw [edges_add]
      exact h.once
    · intro edge hedge
      rw [edges_add] at hedge
      exact (h.depends edge hedge).add record
    · intro id found hfound hdistinct
      rw [hgraph, Lists, hgraph]
      rcases Nat.lt_or_ge id t.records.length with hlt | hge
      · rw [hrecords, List.getElem?_append_left hlt] at hfound
        refine (h.listed id found hfound hdistinct).imp_right fun hlists => hlists.trans ?_
        refine List.map_congr_left fun dependency hdependency => ?_
        have hmem := List.mem_map_of_mem (f := t.idOf?) hdependency
        rw [← hlists] at hmem
        obtain ⟨target, -, htarget⟩ := List.mem_map.mp hmem
        rw [← htarget, idOf?_add_of_known record htarget.symm]
      · left
        refine Digraph.successors_eq_nil fun edge hedge => ?_
        have hlt := (h.depends edge hedge).lt.1
        omega

/-- In a linked table a module that repeats no dependency lists them in order. -/
theorem IsCoherent.lists_of_link (h : t.IsCoherent) {linked : ModuleTable}
    (hlink : t.link = (linked, .ok ())) {id : Nat} {record : ModuleRecord}
    (hrecord : t.records[id]? = some record)
    (hdistinct : record.dependencies.Pairwise fun a b => a.same b = false) :
    linked.Lists id record := by
  obtain ⟨found, hfound, rfl⟩ := link_eq_ok_iff.mp hlink
  obtain ⟨targets, htargets, hsuccessors⟩ :=
    (successors_recordedEdges hfound t.records.length).2 id record hrecord
  have hnodup := nodup_targets hdistinct htargets
  have hadded : (Digraph.mk t.records.length found.reverse).successors id = targets := by
    rw [Digraph.successors, List.filterMap_reverse, ← Digraph.successors.eq_def ⟨_, found⟩,
      ← Nat.zero_add id, hsuccessors, List.reverse_reverse]
  have hold : t.graph.successors id = [] ∨ t.graph.successors id = targets := by
    refine (h.listed id record hrecord hdistinct).imp_right fun hlists => ?_
    rw [Lists, htargets] at hlists
    exact (List.map_inj_right fun _ _ => Option.some.inj).mp hlists
  have hall : targets ∪ t.graph.successors id = targets := by
    rcases hold with hold | hold
    · rw [hold, Digraph.union_nil hnodup]
    · rw [hold, List.Subset.union_eq_right fun _ htarget => htarget]
  have hlinked :
      (Digraph.mk t.records.length (found.reverse ∪ t.edges)).successors id = targets := by
    rw [Digraph.successors_union, hadded, ← graph, hall]
  exact (congrArg (List.map some) hlinked).trans htargets.symm

/-- Linking preserves coherence. -/
theorem IsCoherent.link (h : t.IsCoherent) {linked : ModuleTable}
    (hlink : t.link = (linked, .ok ())) : linked.IsCoherent := by
  have hlists := fun id record => @IsCoherent.lists_of_link t h linked hlink id record
  obtain ⟨found, hfound, rfl⟩ := link_eq_ok_iff.mp hlink
  refine ⟨h.distinct, List.Nodup.union _ h.once, ?_, ?_⟩
  · intro edge hedge
    rcases List.mem_union_iff.mp hedge with hedge | hedge
    · exact (mem_recordedEdges hfound).mp (List.mem_reverse.mp hedge)
    · exact h.depends edge hedge
  · intro id record hrecord hdistinct
    exact .inr (hlists id record hrecord hdistinct)

/-- The edges of a linked table are the dependencies of its records. -/
theorem IsCoherent.mem_edges_of_link (h : t.IsCoherent) {linked : ModuleTable}
    (hlink : t.link = (linked, .ok ())) {id target : Nat} :
    (id, target) ∈ linked.edges ↔ linked.Depends id target := by
  refine ⟨(h.link hlink).depends (id, target), ?_⟩
  obtain ⟨found, hfound, rfl⟩ := link_eq_ok_iff.mp hlink
  intro hdepends
  exact List.mem_union_iff.mpr
    (.inl (List.mem_reverse.mpr ((mem_recordedEdges hfound).mpr hdepends)))

/-! ### Runs -/

/-- The table behind a call. -/
def behind (t : ModuleTable) : TableCall → ModuleTable
  | .add record => t.add record
  | .link => t.link.1

/-- The table behind a list of calls, the first one on a table without modules. -/
def run (calls : List TableCall) : ModuleTable := calls.foldl behind empty

theorem run_append_singleton (calls : List TableCall) (call : TableCall) :
    run (calls ++ [call]) = (run calls).behind call := by
  rw [run, run, List.foldl_append, List.foldl_cons, List.foldl_nil]

/-- Each call preserves coherence. -/
theorem IsCoherent.behind (h : t.IsCoherent) (call : TableCall) : (t.behind call).IsCoherent := by
  cases call with
  | add record => exact h.add record
  | link =>
    rw [ModuleTable.behind]
    cases hlink : t.link with
    | mk changed outcome =>
      cases outcome with
      | error fault => exact eq_of_link_eq_error hlink ▸ h
      | ok => exact h.link hlink

/-- The table behind a list of calls is coherent. -/
theorem isCoherent_run (calls : List TableCall) : (run calls).IsCoherent := by
  induction calls using List.reverseRecOn with
  | nil => exact isCoherent_empty
  | append_singleton calls call ih =>
    rw [run_append_singleton]
    exact ih.behind call

/-- Linking changes no record. -/
theorem records_behind_link (t : ModuleTable) : (t.behind .link).records = t.records := by
  rw [behind, link]
  split <;> rfl

/-- What is registered behind a list of calls, from any table on: the records of the table, and
those of the calls whose path comes for the first time. -/
theorem records_foldl_behind (t : ModuleTable) (calls : List TableCall) :
    (calls.foldl behind t).records =
      List.eraseDupsBy.loop (fun a b => a.path.same b.path) (calls.filterMap TableCall.record?)
        t.records.reverse := by
  induction calls generalizing t with
  | nil => rw [List.foldl_nil, List.filterMap_nil, List.eraseDupsBy.loop, List.reverse_reverse]
  | cons call rest ih =>
    rw [List.foldl_cons, ih]
    cases call with
    | link =>
      rw [records_behind_link, List.filterMap_cons_none rfl]
    | add record =>
      have hcalls : (TableCall.add record :: rest).filterMap TableCall.record? =
          record :: rest.filterMap TableCall.record? := rfl
      rw [hcalls, List.eraseDupsBy.loop, behind]
      by_cases hnew : ∀ other ∈ t.records, other.path.same record.path = false
      · have hany : t.records.reverse.any (fun other => record.path.same other.path) = false := by
          rw [List.any_reverse, List.any_eq_false]
          intro other hother
          rw [same_comm, hnew other hother]
          exact Bool.false_ne_true
        rw [hany, records_add hnew, List.reverse_append, List.reverse_singleton,
          List.singleton_append]
      · push Not at hnew
        obtain ⟨other, hother, hsame⟩ := hnew
        have hany : t.records.reverse.any (fun other => record.path.same other.path) = true := by
          rw [List.any_reverse, List.any_eq_true]
          exact ⟨other, hother, by simpa [same_comm] using hsame⟩
        obtain ⟨id, hid⟩ := Option.isSome_iff_exists.mp
          (isSome_idOf?_iff.mpr ⟨other, hother, by simpa using hsame⟩)
        rw [hany, add_of_known hid]

/-- What can be said of a table behind a list of calls.

It holds the first record of each path, in the order of the calls, and a path has the number of
its record. Registering a record whose path has a number gives that number and changes nothing;
another one gets the number behind the last. Edges can be followed both ways and are there once.
The table can be linked unless a dependency has no record, in which case no edge is added. A linked
table has all dependencies for edges, lists those of a module in order if none of them is repeated,
and is linked already. -/
structure IsRegistry (calls : List TableCall) (t : ModuleTable) : Prop where
  records : t.records =
    (calls.filterMap TableCall.record?).eraseDupsBy fun a b => a.path.same b.path
  numbers : ∀ path id, t.idOf? path = some id ↔
    ∃ record, t.records[id]? = some record ∧ record.path.same path = true
  known : ∀ record id, t.idOf? record.path = some id →
    t.idAfterAdd record = id ∧ t.behind (.add record) = t
  new : ∀ record, t.idOf? record.path = none → t.idAfterAdd record = t.records.length ∧
    t.behind (.add record) = ⟨t.records ++ [record], t.edges⟩
  inverse : ∀ id other, other ∈ t.graph.successors id ↔ id ∈ t.graph.predecessors other
  once : ∀ id, (t.graph.successors id).Nodup ∧ (t.graph.predecessors id).Nodup
  unlinkable : (∃ changed fault, t.link = (changed, .error fault)) ↔ ∃ record ∈ t.records,
    ∃ dependency ∈ record.dependencies, ∀ other ∈ t.records, other.path.same dependency = false
  failed : ∀ changed fault, t.link = (changed, .error fault) → changed = t ∧ t.behind .link = t
  complete : ∀ linked, t.link = (linked, .ok ()) → t.behind .link = linked ∧
    linked.records = t.records ∧ ∀ id target, (id, target) ∈ linked.edges ↔ linked.Depends id target
  ordered : ∀ linked, t.link = (linked, .ok ()) → ∀ id record, linked.records[id]? = some record →
    (record.dependencies.Pairwise fun a b => a.same b = false) → linked.Lists id record
  again : ∀ linked, t.link = (linked, .ok ()) → linked.link = (linked, .ok ())

/-- What every run of calls amounts to. -/
theorem isRegistry_run (calls : List TableCall) : IsRegistry calls (run calls) := by
  have hcoherent := isCoherent_run calls
  refine ⟨?_, ?_, ?_, ?_, ?_, ?_, link_eq_error_iff, ?_, ?_, ?_, ?_⟩
  case refine_1 => exact records_foldl_behind empty calls
  case refine_2 => exact fun path id => idOf?_eq_some_iff hcoherent.distinct
  case refine_3 =>
    intro record id hid
    exact ⟨by rw [idAfterAdd, hid, Option.getD_some], add_of_known hid⟩
  case refine_4 =>
    intro record hid
    exact ⟨by rw [idAfterAdd, hid, Option.getD_none], by rw [behind, add, hid]⟩
  case refine_5 =>
    intro id other
    rw [Digraph.mem_successors, Digraph.mem_predecessors]
  case refine_6 => exact Digraph.nodup_neighbours hcoherent.once
  case refine_7 =>
    intro changed fault hfault
    obtain rfl := eq_of_link_eq_error hfault
    exact ⟨rfl, by rw [behind, hfault]⟩
  case refine_8 =>
    intro linked hlinked
    have hbehind : (run calls).behind .link = linked := by rw [behind, hlinked]
    refine ⟨hbehind, ?_, ?_⟩
    · rw [← hbehind, records_behind_link]
    · exact fun id target => hcoherent.mem_edges_of_link hlinked
  case refine_9 =>
    intro linked hlinked id record hrecord hdistinct
    have hbehind : (run calls).behind .link = linked := by rw [behind, hlinked]
    rw [← hbehind, records_behind_link] at hrecord
    exact hcoherent.lists_of_link hlinked hrecord hdistinct
  case refine_10 => exact fun linked => link_of_link

end ModuleTable

end ScriptBundle
