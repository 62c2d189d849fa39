import ScriptBundle.Proofs.FileTree.WellFormed
import ScriptBundle.Proofs.Report
import ScriptBundle.Source.Resolution

/-!
# Loaded Modules

What the record of a module tells of its file, and when the imports of the module pass.

## Main definitions

* `FileTree.Holds`: whether a file is a module with a given interface;
* `ModuleRecord.Describes`: whether a record tells what is in its file;
* `ImportClause.SatisfiedBy`: whether exports offer what an import takes.

## Main statements

* `SourceRoot.load_eq_ok_iff`: what can be loaded, and what is;
* `SourceRoot.checkImport_eq_ok_iff`: which imports pass;
* `SourceRoot.isDirect_of_lookup`: specifiers lead to direct paths.
-/

namespace ScriptBundle

/-- Whether the file at a path is a module with a given interface. -/
def FileTree.Holds (t : FileTree) (path : Path) (interface : Interface) : Prop :=
  ∃ content, t.readText path = .ok content ∧ Interface.read content = .ok interface

/-- Whether exports offer what a clause takes. -/
def ImportClause.SatisfiedBy (exports : List Export) : ImportClause → Prop
  | names list => ∀ name ∈ list, ∃ offered ∈ exports, offered.name = name.imported
  | defaultExport _ => Export.defaultValue ∈ exports
  | namespaceObject _ => True
  | nothing => True

namespace SourceRoot

/-- The files that imports mean, one for each import that leads to a file. -/
def localTargets (root : SourceRoot) (t : FileTree) (importer : Path) (imports : List Import) :
    List Path :=
  imports.filterMap fun imported => (root.lookup t imported.source importer).toOption.join

end SourceRoot

/-- Whether a record tells what is in the file at its path. -/
structure ModuleRecord.Describes (record : ModuleRecord) (root : SourceRoot) (t : FileTree) :
    Prop where
  relativePath : record.relativePath = root.relative record.path
  content : t.readText record.path = .ok record.content
  interface : ∃ edits, Interface.read record.content = .ok ⟨record.imports, record.exports, edits⟩
  /-- The dependencies are the files that the imports mean, each where it is imported first. -/
  dependencies : record.dependencies =
    (root.localTargets t record.path record.imports).eraseDups

/-- A file has one interface. -/
theorem FileTree.Holds.unique {t : FileTree} {path : Path} {interface other : Interface}
    (h : t.Holds path interface) (h' : t.Holds path other) : interface = other := by
  obtain ⟨content, hcontent, hread⟩ := h
  obtain ⟨content', hcontent', hread'⟩ := h'
  obtain rfl : content = content' := Except.ok.inj (hcontent.symm.trans hcontent')
  exact Except.ok.inj (hread.symm.trans hread')

/-- A record has the imports and exports of its file. -/
theorem ModuleRecord.Describes.holds {record : ModuleRecord} {root : SourceRoot} {t : FileTree}
    (h : record.Describes root t) :
    ∃ edits, t.Holds record.path ⟨record.imports, record.exports, edits⟩ := by
  obtain ⟨edits, hread⟩ := h.interface
  exact ⟨edits, record.content, h.content, hread⟩

/-! ### Loading -/

namespace SourceRoot

variable {root : SourceRoot} {t : FileTree}

theorem localTargets_cons {importer : Path} {imported : Import} {rest : List Import}
    {target? : Option Path} (h : root.lookup t imported.source importer = .ok target?) :
    root.localTargets t importer (imported :: rest) =
      target?.toList ++ root.localTargets t importer rest := by
  rw [localTargets, List.filterMap_cons, h]
  cases target? <;> rfl

/-- The files that imports mean are those that specifiers are looked up to. -/
theorem mem_localTargets {importer : Path} {imports : List Import} {target : Path} :
    target ∈ root.localTargets t importer imports ↔
      ∃ imported ∈ imports, root.lookup t imported.source importer = .ok (some target) := by
  rw [localTargets, List.mem_filterMap]
  refine exists_congr fun imported => and_congr_right fun _ => ?_
  cases root.lookup t imported.source importer <;> simp [Except.toOption]

/-- The files that imports mean are found if each specifier is found or external. -/
theorem targets_eq_ok_iff {importer : Path} {imports : List Import} {found : List Path} :
    root.targets t importer imports = .ok found ↔
      (∀ imported ∈ imports, ∃ target?, root.lookup t imported.source importer = .ok target?) ∧
        found = root.localTargets t importer imports := by
  induction imports generalizing found with
  | nil => simp [targets, localTargets, eq_comm]
  | cons imported rest ih =>
    rw [targets, bind_eq_ok_iff, List.forall_mem_cons]
    constructor
    · rintro ⟨target?, hlookup, hrest⟩
      obtain ⟨others, hothers, hpure⟩ := bind_eq_ok_iff.mp hrest
      obtain ⟨hall, rfl⟩ := ih.mp hothers
      refine ⟨⟨⟨target?, hlookup⟩, hall⟩, ?_⟩
      rw [← pure_eq_ok_iff.mp hpure, localTargets_cons hlookup]
    · rintro ⟨⟨⟨target?, hlookup⟩, hall⟩, rfl⟩
      refine ⟨target?, hlookup, bind_eq_ok_iff.mpr ⟨_, ih.mpr ⟨hall, rfl⟩, ?_⟩⟩
      rw [pure_eq_ok_iff, localTargets_cons hlookup]

/-- A record is loaded if it describes the file, and all imports of the file are found or
external. -/
theorem load_eq_ok_iff {path : Path} {record : ModuleRecord} :
    root.load t path = .ok record ↔ record.path = path ∧ record.Describes root t ∧
      ∀ imported ∈ record.imports, ∃ target?, root.lookup t imported.source path = .ok target? := by
  rw [load]
  constructor
  · intro h
    obtain ⟨content, hcontent, h⟩ := bind_eq_ok_iff.mp h
    obtain ⟨interface, hinterface, h⟩ := bind_eq_ok_iff.mp h
    obtain ⟨targets, htargets, h⟩ := bind_eq_ok_iff.mp h
    obtain rfl := pure_eq_ok_iff.mp h
    obtain ⟨hall, rfl⟩ := targets_eq_ok_iff.mp htargets
    exact ⟨rfl, ⟨rfl, mapError_eq_ok_iff.mp hcontent,
      ⟨interface.edits, mapError_eq_ok_iff.mp hinterface⟩, rfl⟩, hall⟩
  · rintro ⟨rfl, ⟨hrelative, hcontent, ⟨edits, hinterface⟩, hdependencies⟩, hall⟩
    refine bind_eq_ok_iff.mpr ⟨record.content, mapError_eq_ok_iff.mpr hcontent, ?_⟩
    refine bind_eq_ok_iff.mpr ⟨_, mapError_eq_ok_iff.mpr hinterface, ?_⟩
    refine bind_eq_ok_iff.mpr ⟨_, targets_eq_ok_iff.mpr ⟨hall, rfl⟩, ?_⟩
    rw [pure_eq_ok_iff, ← hrelative, ← hdependencies]

/-- A file that holds a module is loaded if all its imports are found. -/
theorem exists_load {path : Path} {interface : Interface} (h : t.Holds path interface)
    (hlookups : ∀ imported ∈ interface.imports, ∃ target?,
      root.lookup t imported.source path = .ok target?) :
    ∃ record, root.load t path = .ok record := by
  obtain ⟨content, hcontent, hread⟩ := h
  let record : ModuleRecord := ⟨path, root.relative path, content, interface.imports,
    interface.exports, (root.localTargets t path interface.imports).eraseDups⟩
  have hdescribes : record.Describes root t := ⟨rfl, hcontent, ⟨interface.edits, hread⟩, rfl⟩
  exact ⟨record, load_eq_ok_iff.mpr ⟨rfl, hdescribes, hlookups⟩⟩

/-! ### Checks -/

/-- No name is missing if the exports offer what the clause takes. -/
theorem missing?_eq_none_iff {target : ModuleRecord} {clause : ImportClause} :
    missing? target clause = none ↔ clause.SatisfiedBy target.exports := by
  cases clause with
  | names list =>
    simp [missing?, ImportClause.SatisfiedBy, ModuleRecord.exportsName]
  | defaultExport bound =>
    have hdefault : target.hasDefaultExport = true ↔ Export.defaultValue ∈ target.exports := by
      rw [ModuleRecord.hasDefaultExport, List.any_eq_true]
      constructor
      · rintro ⟨offered, hmem, hoffered⟩
        cases offered with
        | named name => simp [Export.isDefault] at hoffered
        | defaultValue => exact hmem
      · intro hmem
        exact ⟨_, hmem, rfl⟩
    simp [missing?, ImportClause.SatisfiedBy, hdefault]
  | namespaceObject bound => simp [missing?, ImportClause.SatisfiedBy]
  | nothing => simp [missing?, ImportClause.SatisfiedBy]

/-- An import passes if its file has a record that offers what the import takes. -/
theorem checkImport_eq_ok_iff {table : ModuleTable} {importer : ModuleRecord} {imported : Import}
    (hrecord : importer.Describes root t) (hmem : imported ∈ importer.imports)
    {target? : Option Path} (hlookup : root.lookup t imported.source importer.path = .ok target?) :
    root.checkImport t table importer imported = .ok () ↔ ∀ target ∈ target?,
      ∃ record, table.find? target = some record ∧
        imported.clause.SatisfiedBy record.exports := by
  rw [checkImport, hlookup]
  cases target? with
  | none => simp [bind, Except.bind]
  | some target =>
    have hdependency : target ∈ importer.dependencies := by
      rw [hrecord.dependencies, List.mem_eraseDups, mem_localTargets]
      exact ⟨imported, hmem, hlookup⟩
    cases hfind : table.find? target with
    | none => simp [bind, Except.bind, hfind]
    | some record =>
      cases hmissing : missing? record imported.clause with
      | none =>
        simp [bind, Except.bind, hfind, hdependency, hmissing, ← missing?_eq_none_iff]
      | some name =>
        simp [bind, Except.bind, hfind, hdependency, hmissing, ← missing?_eq_none_iff]

/-- Specifiers are external, or lead to a file, or cannot be resolved. -/
theorem lookup_ne_table {specifier : String} {importer : Path} {fault : TableFault} :
    root.lookup t specifier importer ≠ .error (.table fault) := by
  rw [lookup]
  split
  · simp
  · split <;> simp

/-- No file finds fault with the table. -/
theorem load_ne_table {path : Path} {fault : TableFault} :
    root.load t path ≠ .error (.table fault) := by
  have htargets : ∀ imports, root.targets t path imports ≠ .error (.table fault) := by
    intro imports
    induction imports with
    | nil => simp [targets]
    | cons imported rest ih =>
      rw [targets]
      intro h
      rcases bind_eq_error_iff.mp h with h | ⟨target?, -, h⟩
      · exact lookup_ne_table h
      · rcases bind_eq_error_iff.mp h with h | ⟨others, -, h⟩
        · exact ih h
        · simp at h
  rw [load]
  intro h
  rcases bind_eq_error_iff.mp h with h | ⟨content, -, h⟩
  · obtain ⟨cause, -, hcause⟩ := mapError_eq_error_iff.mp h
    simp at hcause
  · rcases bind_eq_error_iff.mp h with h | ⟨interface, -, h⟩
    · obtain ⟨cause, -, hcause⟩ := mapError_eq_error_iff.mp h
      split at hcause <;> simp at hcause
    · rcases bind_eq_error_iff.mp h with h | ⟨targets, -, h⟩
      · exact htargets _ h
      · simp at h

/-- No check finds fault with the table. -/
theorem checkImport_ne_table {table : ModuleTable} {importer : ModuleRecord} {imported : Import}
    {fault : TableFault} : root.checkImport t table importer imported ≠ .error (.table fault) := by
  rw [checkImport]
  intro h
  rcases bind_eq_error_iff.mp h with h | ⟨target?, -, h⟩
  · exact lookup_ne_table h
  · split at h
    · split at h
      · split at h <;> simp at h
      · simp at h
    · simp at h

/-- All checks pass if each one does. -/
theorem checkImports_eq_ok_iff {table : ModuleTable} :
    root.checkImports t table = .ok () ↔ ∀ importer ∈ table.records,
      ∀ imported ∈ importer.imports, root.checkImport t table importer imported = .ok () := by
  rw [checkImports, forM_eq_ok_iff]
  exact forall_congr' fun importer => imp_congr_right fun _ => forM_eq_ok_iff

/-- A specifier leads nowhere exactly if it is external. -/
theorem lookup_eq_none_iff {specifier : String} {importer : Path} :
    root.lookup t specifier importer = .ok none ↔
      SpecifierKind.of specifier.toList = .external := by
  have hexternal : root.candidate? specifier.toList importer = none ↔
      SpecifierKind.of specifier.toList = .external := candidate?_eq_none
  rw [lookup, ← hexternal]
  split
  · next hcandidate => simp [hcandidate]
  · next candidate hcandidate =>
    rw [hcandidate]
    split <;> simp

/-- In a well-formed tree specifiers lead to direct paths. -/
theorem isDirect_of_lookup (ht : t.root.WellFormed) {specifier : String} {importer target : Path}
    (h : root.lookup t specifier importer = .ok (some target)) : target.IsDirect := by
  rw [lookup] at h
  split at h
  · simp at h
  · split at h
    · next found _ hcanonical =>
      obtain rfl : found = target := by simpa using h
      exact FileTree.isDirect_of_canonical ht hcanonical
    · simp at h

end SourceRoot

end ScriptBundle
