import Mathlib.Data.List.Perm.Basic
import ScriptBundle.Proofs.Module.Table
import ScriptBundle.Proofs.Source.Discovery
import ScriptBundle.Proofs.Source.Loading
import ScriptBundle.Proofs.Token.Bounded

/-!
# Exact Resolution

The modules of a source tree can be resolved exactly if its directories can be listed, each
discovered file is a module, each of its imports that is not external leads to a discovered file,
which offers what the import takes, and no module needs itself to be there first. What is found then
are the discovered files, each behind those that it imports.

## Main definitions

* `SourceRoot.Imports`: whether one file imports another one;
* `SourceRoot.Resolvable`: whether files make up a bundle;
* `SourceRoot.IsResolution`: whether records are those of files, in order.

## Main statements

* `ModuleTable.IsLoaded.knows`: if all imports pass, then every dependency has a record;
* `ModuleTable.IsLoaded.isAcyclic_iff`: the graph of a table has a cycle if the imports have one;
* `resolve_ne_table`: the table of modules is never at fault;
* `resolve_exact`: which source trees can be resolved, and into what.
-/

namespace ScriptBundle

namespace SourceRoot

/-- Whether one file **imports** another one. -/
def Imports (root : SourceRoot) (t : FileTree) (path target : Path) : Prop :=
  ∃ interface, t.Holds path interface ∧ ∃ imported ∈ interface.imports,
    root.lookup t imported.source path = .ok (some target)

/-- Whether files make up a bundle. -/
structure Resolvable (root : SourceRoot) (t : FileTree) (files : List Path) : Prop where
  /-- Each file is a module. -/
  parses : ∀ path ∈ files, ∃ interface, t.Holds path interface
  /-- Imports lead to one of the files, unless they are external. -/
  finds : ∀ path ∈ files, ∀ interface, t.Holds path interface → ∀ imported ∈ interface.imports,
    SpecifierKind.of imported.source.toList ≠ .external →
      ∃ target ∈ files, root.lookup t imported.source path = .ok (some target)
  /-- What an import takes is offered by the file that it leads to. -/
  offers : ∀ path ∈ files, ∀ interface, t.Holds path interface → ∀ imported ∈ interface.imports,
    ∀ target, root.lookup t imported.source path = .ok (some target) →
      ∀ offered, t.Holds target offered → imported.clause.SatisfiedBy offered.exports
  /-- No file imports itself, be it by way of others. -/
  acyclic : ∀ path ∈ files, ¬Relation.TransGen (root.Imports t) path path

/-- Whether records are those of files, each once and behind the files that it imports. -/
structure IsResolution (root : SourceRoot) (t : FileTree) (files : List Path)
    (records : List ModuleRecord) : Prop where
  files : (records.map ModuleRecord.path).Perm files
  once : (records.map ModuleRecord.path).Nodup
  describes : ∀ record ∈ records, record.Describes root t
  ordered : ∀ front record behind, records = front ++ record :: behind →
    ∀ dependency ∈ record.dependencies, ∃ earlier ∈ front, earlier.path = dependency

end SourceRoot

/-! ### Tables of loaded records -/

/-- Whether a table holds what was loaded from files, and no edges yet. -/
structure ModuleTable.IsLoaded (table : ModuleTable) (root : SourceRoot) (t : FileTree) :
    Prop where
  loads : ∀ record ∈ table.records, root.load t record.path = .ok record
  edges : table.edges = []

namespace ModuleTable

variable {table : ModuleTable} {root : SourceRoot} {t : FileTree}

/-- What is loaded from a list of files describes one of them each. -/
theorem isLoaded_addAll {files : List Path} {loaded : List ModuleRecord}
    (h : files.map (root.load t) = loaded.map .ok) :
    (loaded.foldl add empty).IsLoaded root t := by
  refine ⟨fun record hrecord => ?_, edges_addAll empty loaded⟩
  have hmem : record ∈ loaded := by simpa [empty] using mem_records_addAll hrecord
  have hok : .ok record ∈ files.map (root.load t) := by
    rw [h]
    exact List.mem_map_of_mem hmem
  obtain ⟨path, -, hload⟩ := List.mem_map.mp hok
  obtain ⟨rfl, -⟩ := SourceRoot.load_eq_ok_iff.mp hload
  exact hload

/-- What an import of a record means is a dependency of the record, and the other way round. -/
theorem IsLoaded.mem_dependencies (h : table.IsLoaded root t) {record : ModuleRecord}
    (hrecord : record ∈ table.records) {target : Path} :
    target ∈ record.dependencies ↔ ∃ imported ∈ record.imports,
      root.lookup t imported.source record.path = .ok (some target) := by
  obtain ⟨-, hdescribes, -⟩ := SourceRoot.load_eq_ok_iff.mp (h.loads record hrecord)
  rw [hdescribes.dependencies, List.mem_eraseDups, SourceRoot.mem_localTargets]

/-- If all imports pass, then what each one leads to has a record. -/
theorem IsLoaded.knows (h : table.IsLoaded root t)
    (hchecks : root.checkImports t table = .ok ()) : table.Knows := by
  intro record hrecord dependency hdependency
  obtain ⟨-, hdescribes, -⟩ := SourceRoot.load_eq_ok_iff.mp (h.loads record hrecord)
  obtain ⟨imported, himported, hlookup⟩ := (h.mem_dependencies hrecord).mp hdependency
  have hcheck := SourceRoot.checkImports_eq_ok_iff.mp hchecks record hrecord imported himported
  obtain ⟨found, hfound, -⟩ :=
    (SourceRoot.checkImport_eq_ok_iff hdescribes himported hlookup).mp hcheck dependency rfl
  exact isSome_idOf?_of_find? hfound

/-- If all imports pass, then the table can be linked, and its records can be taken out in
post-order. -/
theorem IsLoaded.exists_linked (h : table.IsLoaded root t)
    (hchecks : root.checkImports t table = .ok ()) :
    ∃ linked, table.link = (linked, .ok ()) ∧ linked.graph.IsBounded ∧
      (∀ id target, linked.graph.Edge id target ↔ table.Depends id target) ∧
      ∃ records, linked.orderedRecords linked.graph.postOrder = .ok records ∧
        linked.graph.postOrder.map table.get? = records.map some ∧
        records.Perm table.records := by
  obtain ⟨linked, hlink, hrecords, hedges⟩ := link_of_knows (h.knows hchecks) h.edges
  have hsize : linked.graph.size = table.records.length := by rw [graph, hrecords]
  obtain ⟨records, hordered, hmap, hperm⟩ := linked.exists_orderedRecords
  have hget : linked.get? = table.get? := by
    funext id
    rw [get?, get?, hrecords]
  rw [hget] at hmap
  rw [hrecords] at hperm
  refine ⟨linked, hlink, ?_, hedges, records, hordered, hmap, hperm⟩
  intro edge hedge
  have hdepends : table.Depends edge.1 edge.2 := (hedges _ _).mp hedge
  rw [hsize]
  exact hdepends.lt

/-! ### Imports and dependencies -/

/-- Whether the paths of the records of a table are direct. -/
def IsDirect (table : ModuleTable) : Prop := ∀ record ∈ table.records, record.path.IsDirect

/-- What is found under a direct path is a record with this path. -/
theorem IsDirect.of_find? (h : table.IsDirect) {target : Path} (htarget : target.IsDirect)
    {record : ModuleRecord} (hfind : table.find? target = some record) :
    record ∈ table.records ∧ record.path = target := by
  rw [find?] at hfind
  have hmem := List.mem_of_find?_eq_some hfind
  have hsame : record.path.same target = true := by simpa using List.find?_some hfind
  exact ⟨hmem, (h record hmem).eq_of_same htarget hsame⟩

/-- A path that is one of the records is found. -/
theorem exists_find?_of_mem {record : ModuleRecord} (h : record ∈ table.records) :
    ∃ found, table.find? record.path = some found := by
  refine Option.isSome_iff_exists.mp ?_
  rw [find?, List.find?_isSome]
  exact ⟨record, h, record.path.same_self⟩

/-- Dependencies of numbers are imports of the files. -/
theorem IsLoaded.imports_of_depends (h : table.IsLoaded root t) (ht : t.root.WellFormed)
    (hdirect : table.IsDirect) {id target : Nat} (hdepends : table.Depends id target)
    {record : ModuleRecord} (hrecord : table.records[id]? = some record) :
    ∃ other, table.records[target]? = some other ∧ root.Imports t record.path other.path := by
  obtain ⟨found, hfound, dependency, hdependency, hid⟩ := hdepends
  obtain rfl : found = record := by simpa [hfound] using hrecord
  have hmem : found ∈ table.records := List.mem_of_getElem? hfound
  obtain ⟨-, hdescribes, -⟩ := SourceRoot.load_eq_ok_iff.mp (h.loads found hmem)
  obtain ⟨imported, himported, hlookup⟩ := (h.mem_dependencies hmem).mp hdependency
  obtain ⟨other, hother, hsame⟩ := path_same_of_idOf? hid
  have heq : other.path = dependency :=
    (hdirect other (List.mem_of_getElem? hother)).eq_of_same
      (SourceRoot.isDirect_of_lookup ht hlookup) hsame
  obtain ⟨edits, hread⟩ := hdescribes.interface
  refine ⟨other, hother, ⟨_, _, _⟩, ⟨_, hdescribes.content, hread⟩, imported, himported, ?_⟩
  rw [heq, hlookup]

/-- Imports of the files are dependencies of numbers. -/
theorem IsLoaded.depends_of_imports (h : table.IsLoaded root t) (ht : t.root.WellFormed)
    (hdirect : table.IsDirect) (hknows : table.Knows) {path target : Path} {id : Nat}
    (hid : table.idOf? path = some id) (hpath : path.IsDirect)
    (himports : root.Imports t path target) :
    target.IsDirect ∧ ∃ other, table.idOf? target = some other ∧ table.Depends id other := by
  obtain ⟨record, hrecord, hsame⟩ := path_same_of_idOf? hid
  have hmem : record ∈ table.records := List.mem_of_getElem? hrecord
  obtain rfl : record.path = path := (hdirect record hmem).eq_of_same hpath hsame
  obtain ⟨-, hdescribes, -⟩ := SourceRoot.load_eq_ok_iff.mp (h.loads record hmem)
  obtain ⟨interface, hholds, imported, himported, hlookup⟩ := himports
  obtain ⟨edits, hholds'⟩ := hdescribes.holds
  obtain rfl := hholds.unique hholds'
  have hdependency : target ∈ record.dependencies :=
    (h.mem_dependencies hmem).mpr ⟨imported, himported, hlookup⟩
  obtain ⟨other, hother⟩ := Option.isSome_iff_exists.mp (hknows record hmem target hdependency)
  exact ⟨SourceRoot.isDirect_of_lookup ht hlookup, other, hother, record, hrecord, target,
    hdependency, hother⟩

variable {g : Digraph}

/-- A walk along imports is one along edges, told by the numbers of its paths. -/
theorem IsLoaded.edges_of_imports (h : table.IsLoaded root t) (ht : t.root.WellFormed)
    (hdirect : table.IsDirect) (hknows : table.Knows)
    (hedges : ∀ id target, g.Edge id target ↔ table.Depends id target) {path target : Path}
    (hpath : Relation.TransGen (root.Imports t) path target) {id : Nat}
    (hid : table.idOf? path = some id) (hstart : path.IsDirect) :
    target.IsDirect ∧
      ∃ other, table.idOf? target = some other ∧ Relation.TransGen g.Edge id other := by
  induction hpath with
  | single himports =>
    obtain ⟨hd, other, hother, hdepends⟩ :=
      h.depends_of_imports ht hdirect hknows hid hstart himports
    exact ⟨hd, other, hother, .single ((hedges _ _).mpr hdepends)⟩
  | tail _ himports ih =>
    obtain ⟨hbetween, between, hidBetween, hreach⟩ := ih
    obtain ⟨hd, other, hother, hdepends⟩ :=
      h.depends_of_imports ht hdirect hknows hidBetween hbetween himports
    exact ⟨hd, other, hother, hreach.tail ((hedges _ _).mpr hdepends)⟩

/-- A walk along edges is one along imports, told by the paths of its records. -/
theorem IsLoaded.imports_of_edges (h : table.IsLoaded root t) (ht : t.root.WellFormed)
    (hdirect : table.IsDirect) (hedges : ∀ id target, g.Edge id target ↔ table.Depends id target)
    {id target : Nat} (hwalk : Relation.TransGen g.Edge id target) {record : ModuleRecord}
    (hrecord : table.records[id]? = some record) :
    ∃ other, table.records[target]? = some other ∧
      Relation.TransGen (root.Imports t) record.path other.path := by
  induction hwalk with
  | single hedge =>
    obtain ⟨other, hother, himports⟩ :=
      h.imports_of_depends ht hdirect ((hedges _ _).mp hedge) hrecord
    exact ⟨other, hother, .single himports⟩
  | tail _ hedge ih =>
    obtain ⟨between, hbetween, hreach⟩ := ih
    obtain ⟨other, hother, himports⟩ :=
      h.imports_of_depends ht hdirect ((hedges _ _).mp hedge) hbetween
    exact ⟨other, hother, hreach.tail himports⟩

/-- The dependencies have a cycle if the imports have one. -/
theorem IsLoaded.isAcyclic_iff (h : table.IsLoaded root t) (ht : t.root.WellFormed)
    (hdirect : table.IsDirect) (hknows : table.Knows)
    (hedges : ∀ id target, g.Edge id target ↔ table.Depends id target) :
    g.IsAcyclic ↔ ∀ record ∈ table.records,
      ¬Relation.TransGen (root.Imports t) record.path record.path := by
  constructor
  · intro hacyclic record hrecord hcycle
    obtain ⟨found, hfound⟩ := exists_find?_of_mem hrecord
    obtain ⟨id, hid⟩ := Option.isSome_iff_exists.mp (isSome_idOf?_of_find? hfound)
    obtain ⟨-, other, hother, hreach⟩ :=
      h.edges_of_imports ht hdirect hknows hedges hcycle hid (hdirect record hrecord)
    obtain rfl : id = other := by simpa [hid] using hother
    exact hacyclic id hreach
  · intro hacyclic id hcycle
    obtain ⟨next, hedge, -⟩ := Relation.TransGen.head'_iff.mp hcycle
    obtain ⟨record, hrecord, -⟩ := (hedges _ _).mp hedge
    obtain ⟨other, hother, hreach⟩ := h.imports_of_edges ht hdirect hedges hcycle hrecord
    obtain rfl : record = other := by simpa [hrecord] using hother
    exact hacyclic record (List.mem_of_getElem? hrecord) hreach

/-! ### Files of a bundle -/

section Files

variable {files : List Path}

/-- A file of a table is that of one of its records. -/
theorem IsLoaded.exists_record (h : table.IsLoaded root t)
    (hpaths : table.records.map ModuleRecord.path = files) {path : Path} (hpath : path ∈ files)
    {interface : Interface} (hholds : t.Holds path interface) :
    ∃ record ∈ table.records, record.path = path ∧ record.Describes root t ∧
      record.imports = interface.imports ∧ record.exports = interface.exports ∧
      ∀ imported ∈ interface.imports, ∃ target?,
        root.lookup t imported.source path = .ok target? := by
  rw [← hpaths] at hpath
  obtain ⟨record, hrecord, rfl⟩ := List.mem_map.mp hpath
  obtain ⟨-, hdescribes, hlookups⟩ := SourceRoot.load_eq_ok_iff.mp (h.loads record hrecord)
  obtain ⟨edits, hholds'⟩ := hdescribes.holds
  obtain rfl := hholds.unique hholds'
  exact ⟨record, hrecord, rfl, hdescribes, rfl, rfl, hlookups⟩

/-- All checks pass if imports lead to files of the table that offer what is taken. -/
theorem IsLoaded.checkImports_eq_ok_iff (h : table.IsLoaded root t) (ht : t.root.WellFormed)
    (hdirect : table.IsDirect) (hpaths : table.records.map ModuleRecord.path = files) :
    root.checkImports t table = .ok () ↔ ∀ path ∈ files, ∀ interface, t.Holds path interface →
      ∀ imported ∈ interface.imports, ∀ target,
        root.lookup t imported.source path = .ok (some target) → target ∈ files ∧
          ∀ offered, t.Holds target offered → imported.clause.SatisfiedBy offered.exports := by
  rw [SourceRoot.checkImports_eq_ok_iff]
  constructor
  · intro hchecks path hpath interface hholds imported himported target hlookup
    obtain ⟨record, hrecord, rfl, hdescribes, himports, -, -⟩ :=
      h.exists_record hpaths hpath hholds
    rw [← himports] at himported
    obtain ⟨found, hfound, hsatisfied⟩ :=
      (SourceRoot.checkImport_eq_ok_iff hdescribes himported hlookup).mp
        (hchecks record hrecord imported himported) target rfl
    obtain ⟨hmem, rfl⟩ := hdirect.of_find? (SourceRoot.isDirect_of_lookup ht hlookup) hfound
    have hfile : found.path ∈ files := hpaths ▸ List.mem_map_of_mem hmem
    refine ⟨hfile, fun offered hoffered => ?_⟩
    obtain ⟨-, hfoundDescribes, -⟩ := SourceRoot.load_eq_ok_iff.mp (h.loads found hmem)
    obtain ⟨edits, hholds'⟩ := hfoundDescribes.holds
    rw [hoffered.unique hholds']
    exact hsatisfied
  · intro hall importer himporter imported himported
    obtain ⟨-, hdescribes, hlookups⟩ :=
      SourceRoot.load_eq_ok_iff.mp (h.loads importer himporter)
    obtain ⟨target?, hlookup⟩ := hlookups imported himported
    refine (SourceRoot.checkImport_eq_ok_iff hdescribes himported hlookup).mpr ?_
    rintro target ⟨⟩
    obtain ⟨edits, hholds⟩ := hdescribes.holds
    have himporterFile : importer.path ∈ files := hpaths ▸ List.mem_map_of_mem himporter
    obtain ⟨hfile, hoffers⟩ :=
      hall importer.path himporterFile _ hholds imported himported target hlookup
    rw [← hpaths] at hfile
    obtain ⟨record, hrecord, hpath⟩ := List.mem_map.mp hfile
    obtain ⟨found, hfound⟩ := exists_find?_of_mem hrecord
    rw [hpath] at hfound
    obtain ⟨hmem, hfoundPath⟩ := hdirect.of_find? (SourceRoot.isDirect_of_lookup ht hlookup) hfound
    obtain ⟨-, hfoundDescribes, -⟩ := SourceRoot.load_eq_ok_iff.mp (h.loads found hmem)
    obtain ⟨edits', hholds'⟩ := hfoundDescribes.holds
    rw [hfoundPath] at hholds'
    exact ⟨found, hfound, hoffers _ hholds'⟩

/-- Each record has the path of the file that it was loaded from. -/
theorem map_path_of_loaded {loaded : List ModuleRecord}
    (hloaded : files.map (root.load t) = loaded.map .ok) :
    loaded.map ModuleRecord.path = files := by
  induction files generalizing loaded with
  | nil =>
    obtain rfl : loaded = [] := by simpa using hloaded.symm
    rfl
  | cons path rest ih =>
    cases loaded with
    | nil => simp at hloaded
    | cons record others =>
      rw [List.map_cons, List.map_cons, List.cons.injEq] at hloaded
      rw [List.map_cons, ih hloaded.2, (SourceRoot.load_eq_ok_iff.mp hloaded.1).1]

/-- Files that tell themselves apart by their paths are registered in order. -/
theorem isLoaded_of_loaded {loaded : List ModuleRecord}
    (hloaded : files.map (root.load t) = loaded.map .ok) (hnodup : files.Nodup)
    (hdirect : ∀ path ∈ files, path.IsDirect) :
    (loaded.foldl add empty).IsLoaded root t ∧ (loaded.foldl add empty).IsDirect ∧
      (loaded.foldl add empty).records.map ModuleRecord.path = files := by
  have hpaths := map_path_of_loaded hloaded
  have hpairs : loaded.Pairwise fun a b => a.path ≠ b.path := by
    rw [← hpaths] at hnodup
    exact List.pairwise_map.mp hnodup
  have hdirect' : ∀ record ∈ loaded, record.path.IsDirect := fun record hrecord =>
    hdirect _ (hpaths ▸ List.mem_map_of_mem hrecord)
  have hdistinct : loaded.Pairwise fun a b => a.path.same b.path = false := by
    refine hpairs.imp_of_mem fun {a b} ha hb hne => ?_
    cases hsame : a.path.same b.path with
    | false => rfl
    | true => exact absurd ((hdirect' a ha).eq_of_same (hdirect' b hb) hsame) hne
  have hadd : (loaded.foldl add empty).records = empty.records ++ loaded :=
    records_addAll (by simpa [empty] using hdistinct)
  have hrecords : (loaded.foldl add empty).records = loaded := by simpa [empty] using hadd
  refine ⟨isLoaded_addAll hloaded, fun record hrecord => ?_, by rw [hrecords, hpaths]⟩
  rw [hrecords] at hrecord
  exact hdirect' record hrecord

end Files

end ModuleTable

/-! ### Resolution -/

section Resolve

variable {t : FileTree} {rule : SourceRule} {src : Path}

/-- The source root must be a directory. -/
theorem sourceRoot_eq_ok_iff {location : Location} :
    t.sourceRoot src = .ok location ↔ t.canonicalLocation src = .ok location ∧
      ∃ entries, t.root.at? location = some (.directory entries) := by
  have hdirectory : (t.root.at? location).any FileNode.isDirectory = true ↔
      ∃ entries, t.root.at? location = some (.directory entries) := by
    cases t.root.at? location with
    | none => simp
    | some node => cases node <;> simp [FileNode.isDirectory]
  rw [FileTree.sourceRoot, ← hdirectory]
  split
  · next hlocation => simp [hlocation]
  · next found hlocation =>
    rw [hlocation, Except.ok.injEq]
    constructor
    · intro h
      split at h
      · next hat =>
        obtain rfl : found = location := by simpa using h
        exact ⟨rfl, hat⟩
      · simp at h
    · rintro ⟨rfl, hat⟩
      rw [if_pos hat]

/-- The source root of a rule at a location. -/
def SourceRule.rootAt (rule : SourceRule) (location : Location) : SourceRoot :=
  ⟨.ofNames location, rule.extension⟩

/-- A source tree is resolved in steps. -/
theorem resolve_eq_ok_iff {records : List ModuleRecord} :
    resolve t rule src = .ok records ↔ ∃ location, t.sourceRoot src = .ok location ∧
      ∃ files, t.filesBelow rule location = .ok files ∧
        ∃ loaded : List ModuleRecord,
          files.map ((rule.rootAt location).load t) = loaded.map .ok ∧
          (rule.rootAt location).checkImports t (loaded.foldl .add .empty) = .ok () ∧
          ∃ linked, (loaded.foldl ModuleTable.add .empty).link = (linked, .ok ()) ∧
            linked.checkAcyclic = .ok () ∧
            linked.orderedRecords linked.graph.postOrder = .ok records := by
  have hunit : ∀ {p : Unit → Prop}, (∃ u, p u) ↔ p () :=
    ⟨fun ⟨(), h⟩ => h, fun h => ⟨(), h⟩⟩
  have hlink : ∀ {r : ModuleTable × Except TableFault Unit} {p : ModuleTable → Prop},
      (∃ linked, r = (linked, .ok ()) ∧ p linked) ↔ r.2 = .ok () ∧ p r.1 := by
    rintro ⟨linked, outcome⟩ p
    simp [Prod.ext_iff, and_assoc]
  simp only [resolve, bind_eq_ok_iff, mapM_eq_ok_iff, mapError_eq_ok_iff, hunit, SourceRule.rootAt,
    hlink]

/-- A table passes if its graph has no cycle. -/
theorem checkAcyclic_eq_ok_iff {table : ModuleTable} (h : table.graph.IsBounded) :
    table.checkAcyclic = .ok () ↔ table.graph.IsAcyclic := by
  rw [← Digraph.findCycle_eq_none_iff h, ModuleTable.checkAcyclic]
  split
  · next cycle hcycle => simp [hcycle]
  · next hnone => simp [hnone]

/-- Every file of a bundle can be loaded. -/
theorem SourceRoot.Resolvable.exists_load {root : SourceRoot} {files : List Path}
    (h : root.Resolvable t files) {path : Path} (hpath : path ∈ files) :
    ∃ record, root.load t path = .ok record := by
  obtain ⟨interface, hholds⟩ := h.parses path hpath
  refine SourceRoot.exists_load hholds fun imported himported => ?_
  by_cases hexternal : SpecifierKind.of imported.source.toList = .external
  · exact ⟨none, lookup_eq_none_iff.mpr hexternal⟩
  · obtain ⟨target, -, hlookup⟩ := h.finds path hpath interface hholds imported himported hexternal
    exact ⟨some target, hlookup⟩

/-- What is imported by a file of a bundle is a file of the bundle. -/
theorem SourceRoot.Resolvable.mem_of_lookup {root : SourceRoot} {files : List Path}
    (h : root.Resolvable t files) {path target : Path} {interface : Interface} {imported : Import}
    (hpath : path ∈ files) (hholds : t.Holds path interface)
    (himported : imported ∈ interface.imports)
    (hlookup : root.lookup t imported.source path = .ok (some target)) : target ∈ files := by
  have hexternal : SpecifierKind.of imported.source.toList ≠ .external := by
    intro hexternal
    have hnone : root.lookup t imported.source path = .ok none := lookup_eq_none_iff.mpr hexternal
    simp [hlookup] at hnone
  obtain ⟨found, hfound, hlookup'⟩ :=
    h.finds path hpath interface hholds imported himported hexternal
  obtain rfl : target = found := by simpa [hlookup] using hlookup'
  exact hfound

/-- Files make up a bundle if they can be loaded, all checks pass, and no file imports itself. -/
theorem SourceRoot.resolvable_iff {root : SourceRoot} {files : List Path} (ht : t.root.WellFormed)
    (hnodup : files.Nodup) (hdirect : ∀ path ∈ files, path.IsDirect) :
    root.Resolvable t files ↔ ∃ loaded : List ModuleRecord,
      files.map (root.load t) = loaded.map .ok ∧
      root.checkImports t (loaded.foldl .add .empty) = .ok () ∧
      ∀ path ∈ files, ¬Relation.TransGen (root.Imports t) path path := by
  constructor
  · intro h
    obtain ⟨loaded, hloaded⟩ := exists_map_eq_map_ok fun path hpath => h.exists_load hpath
    obtain ⟨htableLoaded, htableDirect, hpaths⟩ :=
      ModuleTable.isLoaded_of_loaded hloaded hnodup hdirect
    refine ⟨loaded, hloaded, ?_, h.acyclic⟩
    refine (htableLoaded.checkImports_eq_ok_iff ht htableDirect hpaths).mpr ?_
    intro path hpath interface hholds imported himported target hlookup
    exact ⟨h.mem_of_lookup hpath hholds himported hlookup,
      h.offers path hpath interface hholds imported himported target hlookup⟩
  · rintro ⟨loaded, hloaded, hchecks, hacyclic⟩
    obtain ⟨htableLoaded, htableDirect, hpaths⟩ :=
      ModuleTable.isLoaded_of_loaded hloaded hnodup hdirect
    have hall := (htableLoaded.checkImports_eq_ok_iff ht htableDirect hpaths).mp hchecks
    refine ⟨?parses, ?finds, ?offers, hacyclic⟩
    case parses =>
      intro path hpath
      rw [← hpaths] at hpath
      obtain ⟨record, hrecord, rfl⟩ := List.mem_map.mp hpath
      obtain ⟨-, hdescribes, -⟩ := load_eq_ok_iff.mp (htableLoaded.loads record hrecord)
      obtain ⟨edits, hholds⟩ := hdescribes.holds
      exact ⟨_, hholds⟩
    case finds =>
      intro path hpath interface hholds imported himported hexternal
      obtain ⟨-, -, -, -, -, -, hlookups⟩ := htableLoaded.exists_record hpaths hpath hholds
      obtain ⟨target?, hlookup⟩ := hlookups imported himported
      cases target? with
      | none => exact absurd (lookup_eq_none_iff.mp hlookup) hexternal
      | some target =>
        exact ⟨target, (hall path hpath interface hholds imported himported target hlookup).1,
          hlookup⟩
    case offers =>
      intro path hpath interface hholds imported himported target hlookup
      exact (hall path hpath interface hholds imported himported target hlookup).2

/-- The records of a loaded table in post-order, if its graph has no cycle. -/
theorem ModuleTable.IsLoaded.isResolution {root : SourceRoot} {files : List Path}
    {table : ModuleTable} {g : Digraph} {records : List ModuleRecord}
    (h : table.IsLoaded root t) (hknows : table.Knows)
    (hpaths : table.records.map ModuleRecord.path = files)
    (hnodup : files.Nodup) (hdirect : ∀ path ∈ files, path.IsDirect) (ht : t.root.WellFormed)
    (hedges : ∀ id target, g.Edge id target ↔ table.Depends id target)
    (hordered : g.Ordered [] g.postOrder) (hmap : g.postOrder.map table.get? = records.map some)
    (hperm : records.Perm table.records) : root.IsResolution t files records := by
  have hfiles : (records.map ModuleRecord.path).Perm files := hpaths ▸ hperm.map _
  refine ⟨hfiles, hfiles.nodup_iff.mpr hnodup, ?_, ?_⟩
  · intro record hrecord
    exact (SourceRoot.load_eq_ok_iff.mp (h.loads record (hperm.mem_iff.mp hrecord))).2.1
  · rintro front record behind rfl dependency hdependency
    rw [List.map_append, List.map_cons] at hmap
    obtain ⟨idsFront, rest, horder, hfront, hrest⟩ := List.map_eq_append_iff.mp hmap
    obtain ⟨id, idsBehind, rfl, hid, -⟩ := List.map_eq_cons_iff.mp hrest
    have hmem : record ∈ table.records := hperm.mem_iff.mp (by simp)
    obtain ⟨target, htarget⟩ :=
      Option.isSome_iff_exists.mp (hknows record hmem dependency hdependency)
    have hedge : g.Edge id target :=
      (hedges _ _).mpr ⟨record, hid, dependency, hdependency, htarget⟩
    rw [horder] at hordered
    have htargetFront : target ∈ idsFront := by
      rcases hordered.mem_front hedge with hmem | hmem
      · simp at hmem
      · exact hmem
    have hget : table.get? target ∈ front.map some := hfront ▸ List.mem_map_of_mem htargetFront
    obtain ⟨earlier, hearlier, heq⟩ := List.mem_map.mp hget
    obtain ⟨found, hfound, hsame⟩ := path_same_of_idOf? htarget
    obtain rfl : earlier = found := by simpa [get?, hfound] using heq
    have hfoundMem : earlier ∈ table.records := List.mem_of_getElem? hfound
    have hfoundDirect : earlier.path.IsDirect :=
      hdirect _ (hpaths ▸ List.mem_map_of_mem hfoundMem)
    obtain ⟨imported, -, hlookup⟩ := (h.mem_dependencies hmem).mp hdependency
    exact ⟨earlier, hearlier,
      hfoundDirect.eq_of_same (SourceRoot.isDirect_of_lookup ht hlookup) hsame⟩

/-- Resolution finds no fault with the table of modules. -/
theorem resolve_ne_table {fault : TableFault} : resolve t rule src ≠ .error (.table fault) := by
  intro h
  rw [resolve] at h
  rcases bind_eq_error_iff.mp h with h | ⟨location, -, h⟩
  · rw [FileTree.sourceRoot] at h
    split at h
    · simp at h
    · split at h <;> simp at h
  rcases bind_eq_error_iff.mp h with h | ⟨files, -, h⟩
  · rw [FileTree.filesBelow] at h
    split at h <;> simp at h
  rcases bind_eq_error_iff.mp h with h | ⟨loaded, hloaded, h⟩
  · obtain ⟨path, -, hload⟩ := mapM_eq_error h
    exact SourceRoot.load_ne_table hload
  rcases bind_eq_error_iff.mp h with h | ⟨⟨⟩, hchecks, h⟩
  · obtain ⟨importer, -, hfailed⟩ := forM_eq_error h
    obtain ⟨imported, -, hcheck⟩ := forM_eq_error hfailed
    exact SourceRoot.checkImport_ne_table hcheck
  obtain ⟨linked, hlink, -, -, records, hrecords, -⟩ :=
    (ModuleTable.isLoaded_addAll (mapM_eq_ok_iff.mp hloaded)).exists_linked hchecks
  rw [hlink] at h
  rcases bind_eq_error_iff.mp h with h | ⟨-, -, h⟩
  · simp at h
  rcases bind_eq_error_iff.mp h with h | ⟨-, -, h⟩
  · rw [ModuleTable.checkAcyclic] at h
    split at h <;> simp at h
  · obtain ⟨cause, hcause, -⟩ := mapError_eq_error_iff.mp h
    simp [hrecords] at hcause

/-- If all checks pass, then the modules of the files can be put in order, provided that no file
imports itself. -/
theorem exists_resolution {root : SourceRoot} {files : List Path} {loaded : List ModuleRecord}
    (ht : t.root.WellFormed) (hnodup : files.Nodup) (hdirect : ∀ path ∈ files, path.IsDirect)
    (hloaded : files.map (root.load t) = loaded.map .ok)
    (hchecks : root.checkImports t (loaded.foldl .add .empty) = .ok ()) :
    ∃ linked records, (loaded.foldl ModuleTable.add .empty).link = (linked, .ok ()) ∧
      linked.orderedRecords linked.graph.postOrder = .ok records ∧
      (linked.checkAcyclic = .ok () ↔
        ∀ path ∈ files, ¬Relation.TransGen (root.Imports t) path path) ∧
      (linked.checkAcyclic = .ok () → root.IsResolution t files records) := by
  obtain ⟨htable, htableDirect, hpaths⟩ :=
    ModuleTable.isLoaded_of_loaded hloaded hnodup hdirect
  obtain ⟨linked, hlink, hbounded, hedges, records, hordered, hmap, hperm⟩ :=
    htable.exists_linked hchecks
  have hknows := htable.knows hchecks
  refine ⟨linked, records, hlink, hordered, ?_, fun hacyclic => ?_⟩
  · rw [checkAcyclic_eq_ok_iff hbounded, htable.isAcyclic_iff ht htableDirect hknows hedges,
      ← hpaths]
    constructor
    · intro h path hpath
      obtain ⟨record, hrecord, rfl⟩ := List.mem_map.mp hpath
      exact h record hrecord
    · intro h record hrecord
      exact h record.path (List.mem_map_of_mem hrecord)
  · have hgraph := (checkAcyclic_eq_ok_iff hbounded).mp hacyclic
    exact htable.isResolution hknows hpaths hnodup hdirect ht hedges
      (Digraph.postOrder_ordered hbounded hgraph) hmap hperm

/-- The files below a source root are discovered once each, by direct paths. -/
theorem nodup_of_filesBelow (ht : t.root.WellFormed) {location : Location} {files : List Path}
    (hcanonical : t.canonicalLocation src = .ok location)
    (h : t.filesBelow rule location = .ok files) :
    files.Nodup ∧ ∀ path ∈ files, path.IsDirect := by
  have hroot := FileTree.isSome_at?_of_canonicalLocation hcanonical
  obtain rfl := FileTree.eq_discovered_of_filesBelow h
  exact ⟨FileTree.nodup_discovered ht hroot, fun path hpath =>
    FileTree.isDirect_of_mem_discovered ht hroot hpath⟩

/-- What is known of a source tree that has been resolved. -/
theorem isResolution_of_resolve (ht : t.root.WellFormed) {records : List ModuleRecord}
    (h : resolve t rule src = .ok records) :
    ∃ location files, t.canonicalLocation src = .ok location ∧
      (∃ entries, t.root.at? location = some (.directory entries)) ∧
      t.filesBelow rule location = .ok files ∧ (rule.rootAt location).Resolvable t files ∧
      (rule.rootAt location).IsResolution t files records := by
  obtain ⟨location, hlocation, files, hfiles, loaded, hloaded, hchecks, linked, hlink, hacyclic,
    hordered⟩ := resolve_eq_ok_iff.mp h
  obtain ⟨hcanonical, hdirectory⟩ := sourceRoot_eq_ok_iff.mp hlocation
  obtain ⟨hnodup, hdirect⟩ := nodup_of_filesBelow ht hcanonical hfiles
  obtain ⟨found, others, hfound, hothers, hcycles, hresolution⟩ :=
    exists_resolution ht hnodup hdirect hloaded hchecks
  obtain rfl : linked = found := by simpa [hlink] using hfound
  obtain rfl : records = others := by simpa [hordered] using hothers
  exact ⟨location, files, hcanonical, hdirectory, hfiles,
    (SourceRoot.resolvable_iff ht hnodup hdirect).mpr
      ⟨loaded, hloaded, hchecks, hcycles.mp hacyclic⟩, hresolution hacyclic⟩

/-- **Resolution is exact.** A source tree can be resolved if the source root is a directory, this
directory and those that discovery enters below it can be listed, and the files that are discovered
make up a bundle, and not otherwise. What is found are these files, in order, and never is the table
of modules at fault. -/
theorem resolve_exact (ht : t.root.WellFormed) :
    ((∃ records, resolve t rule src = .ok records) ↔
      ∃ location, t.canonicalLocation src = .ok location ∧
        (∃ entries, t.root.at? location = some (.directory entries)) ∧
        t.Listable rule location ∧
        ∃ files, t.filesBelow rule location = .ok files ∧
          (rule.rootAt location).Resolvable t files) ∧
      (∀ records, resolve t rule src = .ok records →
        ∃ location files, t.canonicalLocation src = .ok location ∧
          t.filesBelow rule location = .ok files ∧
          (rule.rootAt location).IsResolution t files records) ∧
      ∀ fault, resolve t rule src ≠ .error (.table fault) := by
  refine ⟨⟨?_, ?_⟩, ?_, fun fault => resolve_ne_table⟩
  · rintro ⟨records, hrecords⟩
    obtain ⟨location, files, hcanonical, ⟨entries, hentries⟩, hfiles, hresolvable, -⟩ :=
      isResolution_of_resolve ht hrecords
    have hlistable := ((FileTree.filesBelow_eq_ok_iff ht hentries).mp hfiles).1
    exact ⟨location, hcanonical, ⟨entries, hentries⟩, hlistable, files, hfiles, hresolvable⟩
  · rintro ⟨location, hcanonical, hdirectory, -, files, hfiles, hresolvable⟩
    have hlocation := sourceRoot_eq_ok_iff.mpr ⟨hcanonical, hdirectory⟩
    obtain ⟨hnodup, hdirect⟩ := nodup_of_filesBelow ht hcanonical hfiles
    obtain ⟨loaded, hloaded, hchecks, hacyclic⟩ :=
      (SourceRoot.resolvable_iff ht hnodup hdirect).mp hresolvable
    obtain ⟨linked, records, hlink, hordered, hcycles, -⟩ :=
      exists_resolution ht hnodup hdirect hloaded hchecks
    exact ⟨records, resolve_eq_ok_iff.mpr ⟨location, hlocation, files, hfiles, loaded, hloaded,
      hchecks, linked, hlink, hcycles.mpr hacyclic, hordered⟩⟩
  · intro records hrecords
    obtain ⟨location, files, hcanonical, -, hfiles, -, hresolution⟩ :=
      isResolution_of_resolve ht hrecords
    exact ⟨location, files, hcanonical, hfiles, hresolution⟩

end Resolve

/-- A source tree of two modules, of which the first one imports the second one. -/
def pairTree : FileTree where
  root := .directory [("src".toList, .directory
    [("a.js".toList, .file "import './b.js'".toUTF8), ("b.js".toList, .file "".toUTF8)])]
  workingDirectory := []

/-- The record of the second module. -/
def pairTarget : ModuleRecord := { path := ⟨"/src/b.js".toList⟩, relativePath := "b.js" }

/-- The record of the first module. -/
def pairImporter : ModuleRecord :=
  { path := ⟨"/src/a.js".toList⟩, relativePath := "a.js", content := "import './b.js'".toList
    imports := [⟨.nothing, "./b.js"⟩], dependencies := [⟨"/src/b.js".toList⟩] }

theorem wellFormed_pairTree : pairTree.root.WellFormed := by
  refine .directory (by simp [Path.IsName]) (by simp) ?_
  intro entry hentry
  obtain rfl := List.mem_singleton.mp hentry
  refine .directory (by simp [Path.IsName]) (by simp) ?_
  simp only [List.forall_mem_cons, List.not_mem_nil, false_implies, implies_true, and_true]
  exact ⟨.file _, .file _⟩

theorem resolve_pairTree :
    resolve pairTree ⟨"js".toList, []⟩ ⟨"/src".toList⟩ = .ok [pairTarget, pairImporter] := by
  have hload : ((SourceRule.mk "js".toList []).rootAt ["src".toList]).load pairTree
      ⟨"/src/a.js".toList⟩ = .ok pairImporter := by
    have hcontent : pairTree.readText ⟨"/src/a.js".toList⟩ = .ok "import './b.js'".toList := by cbv
    have hread : Interface.read "import './b.js'".toList =
        .ok ⟨[⟨.nothing, "./b.js"⟩], [], [⟨⟨0, 15⟩, .nothing⟩]⟩ := by
      simp only [Interface.read, Cursor.ofSource, tokenize_eq_upTo]
      cbv
    simp only [SourceRoot.load, hcontent, hread, Except.mapError, bind, Except.bind]
    cbv
  have hload' : ((SourceRule.mk "js".toList []).rootAt ["src".toList]).load pairTree
      ⟨"/src/b.js".toList⟩ = .ok pairTarget := by
    have hcontent : pairTree.readText ⟨"/src/b.js".toList⟩ = .ok [] := by cbv
    have hread : Interface.read [] = .ok {} := by
      simp only [Interface.read, Cursor.ofSource, tokenize_eq_upTo]
      cbv
    simp only [SourceRoot.load, hcontent, hread, Except.mapError, bind, Except.bind]
    cbv
  refine resolve_eq_ok_iff.mpr ⟨["src".toList], by cbv,
    [⟨"/src/a.js".toList⟩, ⟨"/src/b.js".toList⟩], by cbv, [pairImporter, pairTarget], ?_, by cbv,
    ⟨[pairImporter, pairTarget], [(0, 1)]⟩, by cbv, by cbv, by cbv⟩
  simp only [List.map_cons, List.map_nil, hload, hload']

/-- The imported module comes first. -/
theorem resolve_exact_of_pairTree :
    ∃ location files, pairTree.canonicalLocation ⟨"/src".toList⟩ = .ok location ∧
      pairTree.filesBelow ⟨"js".toList, []⟩ location = .ok files ∧
      ((SourceRule.mk "js".toList []).rootAt location).IsResolution pairTree files
        [pairTarget, pairImporter] :=
  (resolve_exact wellFormed_pairTree).2.1 _ resolve_pairTree

end ScriptBundle
