import Mathlib.Data.List.Perm.Basic
import ScriptBundle.Module.Table
import ScriptBundle.Proofs.FileTree.WellFormed
import ScriptBundle.Proofs.Graph.PostOrder

/-!
# Tables of Linked Modules

If every dependency of a module table has a record, then the table can be linked, and its edges are
the dependencies. The records under numbers of the table can be taken out in any order.

## Main definitions

* `ModuleTable.Knows`: whether every dependency has a record;
* `ModuleTable.Depends`: whether the module under one number depends on that under another.

## Main statements

* `ModuleTable.records_addAll`: records with paths of their own are registered in order;
* `ModuleTable.link_of_knows`: the edges of a linked table are the dependencies of its records;
* `ModuleTable.orderedRecords_of_nodup`: the records under numbers that do not repeat;
* `ModuleTable.exists_orderedRecords`: all records in post-order.
-/

namespace ScriptBundle

namespace ModuleTable

variable {t : ModuleTable}

/-! ### Registering -/

/-- A path without a number is that of no record. -/
theorem idOf?_eq_none_iff {path : Path} :
    t.idOf? path = none ↔ ∀ record ∈ t.records, record.path.same path = false := by
  simp [idOf?]

/-- The number of a path is that of a record with this path. -/
theorem path_same_of_idOf? {path : Path} {id : Nat} (h : t.idOf? path = some id) :
    ∃ record, t.records[id]? = some record ∧ record.path.same path := by
  obtain ⟨hlt, hsame, -⟩ := List.findIdx?_eq_some_iff_getElem.mp h
  exact ⟨t.records[id], List.getElem?_eq_getElem hlt, hsame⟩

/-- The number of a path is below the size. -/
theorem idOf?_lt {path : Path} {id : Nat} (h : t.idOf? path = some id) : id < t.records.length :=
  (List.findIdx?_eq_some_iff_getElem.mp h).1

/-- A path has a number if it has a record. -/
theorem isSome_idOf?_of_find? {path : Path} {record : ModuleRecord}
    (h : t.find? path = some record) : (t.idOf? path).isSome := by
  rw [find?] at h
  have hsame : record.path.same path = true := by simpa using List.find?_some h
  rw [idOf?, List.findIdx?_isSome, List.any_eq_true]
  exact ⟨record, List.mem_of_find?_eq_some h, hsame⟩

/-- Registering adds no edge. -/
@[simp] theorem edges_add (t : ModuleTable) (record : ModuleRecord) :
    (t.add record).edges = t.edges := by
  unfold add
  split <;> rfl

/-- What is registered is an old record or the new one. -/
theorem mem_records_add {record other : ModuleRecord} (h : other ∈ (t.add record).records) :
    other ∈ t.records ∨ other = record := by
  unfold add at h
  split at h
  · exact .inl h
  · simpa using h

/-- A record is registered behind the others if its path is new. -/
theorem records_add {record : ModuleRecord}
    (h : ∀ other ∈ t.records, other.path.same record.path = false) :
    (t.add record).records = t.records ++ [record] := by
  rw [add, idOf?_eq_none_iff.mpr h]

/-- Registering any number of records adds no edge. -/
theorem edges_addAll (t : ModuleTable) (records : List ModuleRecord) :
    (records.foldl add t).edges = t.edges := by
  induction records generalizing t with
  | nil => rfl
  | cons record rest ih => rw [List.foldl_cons, ih, edges_add]

/-- What is registered in the end is an old record or one of the new ones. -/
theorem mem_records_addAll {records : List ModuleRecord} {record : ModuleRecord}
    (h : record ∈ (records.foldl add t).records) : record ∈ t.records ∨ record ∈ records := by
  induction records generalizing t with
  | nil => exact .inl h
  | cons first rest ih =>
    rcases ih h with hmem | hmem
    · rcases mem_records_add hmem with hmem | rfl
      · exact .inl hmem
      · exact .inr List.mem_cons_self
    · exact .inr (List.mem_cons_of_mem _ hmem)

/-- Records with paths of their own are registered in order. -/
theorem records_addAll {records : List ModuleRecord}
    (h : (t.records ++ records).Pairwise fun a b => a.path.same b.path = false) :
    (records.foldl add t).records = t.records ++ records := by
  induction records generalizing t with
  | nil => simp
  | cons record rest ih =>
    have hnew : ∀ other ∈ t.records, other.path.same record.path = false := fun other hother =>
      (List.pairwise_append.mp h).2.2 other hother record List.mem_cons_self
    have hadd := records_add hnew
    rw [List.foldl_cons, ih (by simpa [hadd] using h), hadd]
    simp

/-! ### Linking -/

/-- Whether every dependency has a record. -/
def Knows (t : ModuleTable) : Prop :=
  ∀ record ∈ t.records, ∀ dependency ∈ record.dependencies, (t.idOf? dependency).isSome

/-- Whether the module under one number **depends** on that under another. -/
def Depends (t : ModuleTable) (id target : Nat) : Prop :=
  ∃ record, t.records[id]? = some record ∧
    ∃ dependency ∈ record.dependencies, t.idOf? dependency = some target

/-- Edges lead to the numbers of the dependencies. -/
theorem edgesTo_of_known (id : Nat) (record : ModuleRecord) {dependencies : List Path}
    (h : ∀ dependency ∈ dependencies, (t.idOf? dependency).isSome) :
    ∃ found, t.edgesTo id record dependencies = .ok found ∧ ∀ edge, edge ∈ found ↔
      ∃ dependency ∈ dependencies, ∃ target, t.idOf? dependency = some target ∧
        edge = (id, target) := by
  induction dependencies with
  | nil => exact ⟨[], rfl, by simp⟩
  | cons first rest ih =>
    obtain ⟨found, hfound, hmem⟩ := ih fun dependency hd => h dependency (by simp [hd])
    obtain ⟨target, htarget⟩ := Option.isSome_iff_exists.mp (h first (by simp))
    refine ⟨(id, target) :: found, by simp [edgesTo, htarget, hfound, Except.map], ?_⟩
    intro edge
    simp [hmem, htarget]

/-- The edges of records start at the numbers of the records. -/
theorem recordedEdges_of_known (id : Nat) {records : List ModuleRecord}
    (h : ∀ record ∈ records, ∀ dependency ∈ record.dependencies, (t.idOf? dependency).isSome) :
    ∃ found, t.recordedEdges id records = .ok found ∧ ∀ edge, edge ∈ found ↔
      ∃ i record, records[i]? = some record ∧ ∃ dependency ∈ record.dependencies,
        ∃ target, t.idOf? dependency = some target ∧ edge = (id + i, target) := by
  induction records generalizing id with
  | nil => exact ⟨[], rfl, by simp⟩
  | cons first rest ih =>
    have hfirst : ∀ dependency ∈ first.dependencies.reverse, (t.idOf? dependency).isSome :=
      fun dependency hd => h first (by simp) dependency (by simpa using hd)
    obtain ⟨front, hfront, hmem⟩ := edgesTo_of_known id first hfirst
    obtain ⟨behind, hbehind, hmem'⟩ := ih (id + 1) fun record hrecord =>
      h record (by simp [hrecord])
    refine ⟨front ++ behind, by simp [recordedEdges, hfront, hbehind, Except.map], ?_⟩
    intro edge
    rw [List.mem_append, hmem, hmem']
    constructor
    · rintro (⟨dependency, hd, target, hid, rfl⟩ |
        ⟨i, record, hi, dependency, hd, target, hid, rfl⟩)
      · exact ⟨0, first, by simp, dependency, by simpa using hd, target, hid, by simp⟩
      · exact ⟨i + 1, record, by simpa using hi, dependency, hd, target, hid, by simp; omega⟩
    · rintro ⟨i, record, hi, dependency, hd, target, hid, rfl⟩
      cases i with
      | zero =>
        obtain rfl : first = record := by simpa using hi
        exact .inl ⟨dependency, by simpa using hd, target, hid, by simp⟩
      | succ i =>
        exact .inr ⟨i, record, by simpa using hi, dependency, hd, target, hid, by simp; omega⟩

/-- Edges are added to those that are there. -/
theorem mem_addEdges {edges found : List (Nat × Nat)} {edge : Nat × Nat} :
    edge ∈ found.foldl Digraph.addEdge edges ↔ edge ∈ edges ∨ edge ∈ found := by
  induction found generalizing edges with
  | nil => simp
  | cons first rest ih =>
    rw [List.foldl_cons, ih, Digraph.addEdge]
    split
    · next hcontains =>
      have hmem : first ∈ edges := by simpa using hcontains
      constructor
      · rintro (h | h)
        · exact .inl h
        · exact .inr (List.mem_cons_of_mem _ h)
      · rintro (h | h)
        · exact .inl h
        · rcases List.mem_cons.mp h with rfl | h
          · exact .inl hmem
          · exact .inr h
    · simp only [List.mem_cons]
      constructor
      · rintro ((rfl | h) | h)
        · exact .inr (.inl rfl)
        · exact .inl h
        · exact .inr (.inr h)
      · rintro (h | rfl | h)
        · exact .inl (.inr h)
        · exact .inl (.inl rfl)
        · exact .inr h

/-- The edges of a linked table are the dependencies of its records. -/
theorem link_of_knows (h : t.Knows) (hedges : t.edges = []) :
    ∃ linked, t.link = (linked, .ok ()) ∧ linked.records = t.records ∧
      ∀ id target, linked.graph.Edge id target ↔ t.Depends id target := by
  obtain ⟨found, hfound, hmem⟩ := recordedEdges_of_known 0 h
  refine ⟨{ t with edges := found.foldl Digraph.addEdge t.edges }, ?_, rfl, ?_⟩
  · rw [link, hfound]
  · intro id target
    rw [Digraph.Edge, graph, mem_addEdges, hedges]
    constructor
    · rintro (h | h)
      · simp at h
      · obtain ⟨i, record, hi, dependency, hd, other, hid, heq⟩ := (hmem _).mp h
        obtain ⟨rfl, rfl⟩ : id = 0 + i ∧ target = other := by simpa using heq
        exact ⟨record, by simpa using hi, dependency, hd, hid⟩
    · rintro ⟨record, hi, dependency, hd, hid⟩
      exact .inr ((hmem _).mpr ⟨id, record, hi, dependency, hd, target, hid, by simp⟩)

/-- Dependencies join numbers below the size. -/
theorem Depends.lt {id target : Nat} (h : t.Depends id target) :
    id < t.records.length ∧ target < t.records.length := by
  obtain ⟨record, hi, dependency, hd, hid⟩ := h
  exact ⟨(List.getElem?_eq_some_iff.mp hi).1, idOf?_lt hid⟩

/-! ### Taking records out -/

/-- The records under numbers that do not repeat. -/
theorem recordsFrom_of_nodup {seen order : List Nat} (hnodup : order.Nodup)
    (hseen : ∀ id ∈ order, id ∉ seen) (hknown : ∀ id ∈ order, id < t.records.length) :
    ∃ records, t.recordsFrom seen order = .ok records ∧
      order.map t.get? = records.map some := by
  induction order generalizing seen with
  | nil => exact ⟨[], rfl, rfl⟩
  | cons id rest ih =>
    obtain ⟨hid, hrest⟩ := List.nodup_cons.mp hnodup
    have hlt : id < t.records.length := hknown id (by simp)
    have hget : t.get? id = some t.records[id] := List.getElem?_eq_getElem hlt
    have hnew : ∀ other ∈ rest, other ∉ id :: seen := by
      intro other hother hmem
      rcases List.mem_cons.mp hmem with rfl | hmem
      · exact hid hother
      · exact hseen other (by simp [hother]) hmem
    obtain ⟨records, hrecords, hmap⟩ := ih hrest hnew fun other hother =>
      hknown other (by simp [hother])
    refine ⟨t.records[id] :: records, ?_, by simp [hget, hmap]⟩
    simp [recordsFrom, hseen id (by simp), hget, hrecords, Except.map]

theorem orderedRecords_of_nodup {order : List Nat} (hnodup : order.Nodup)
    (hknown : ∀ id ∈ order, id < t.records.length) :
    ∃ records, t.orderedRecords order = .ok records ∧ order.map t.get? = records.map some :=
  recordsFrom_of_nodup hnodup (by simp) hknown

/-- In post-order, all records of a table can be taken out. -/
theorem exists_orderedRecords (t : ModuleTable) :
    ∃ records, t.orderedRecords t.graph.postOrder = .ok records ∧
      t.graph.postOrder.map t.get? = records.map some ∧ records.Perm t.records := by
  have hknown : ∀ id ∈ t.graph.postOrder, id < t.records.length := fun id hid =>
    Digraph.mem_postOrder.mp hid
  obtain ⟨records, hordered, hmap⟩ := orderedRecords_of_nodup Digraph.nodup_postOrder.1 hknown
  refine ⟨records, hordered, hmap, ?_⟩
  have hall : (List.range t.records.length).map t.get? = t.records.map some :=
    List.ext_getElem (by simp) fun i _ _ => by simp [get?]
  have hperm : (records.map some).Perm (t.records.map some) := by
    rw [← hmap, ← hall]
    exact Digraph.postOrder_perm.map _
  exact (List.map_perm_map_iff fun _ _ => Option.some.inj).mp hperm

end ModuleTable

end ScriptBundle
