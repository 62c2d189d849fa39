import ScriptBundle.Proofs.Source.Listing
import ScriptBundle.Proofs.Source.Resolution

/-!
# Resolving Again

Where a file is written that is not discovered, a source tree is resolved into the same modules as
before, provided that the directories can still be listed. What resolution reads of a tree are the
discovered files and what specifiers lead to, and all of this is kept.

## Main statements

* `FileTree.locate_ofNames`: the path that is made from the names on the way to a file leads there;
* `FileTree.Kept.load`: a discovered module is loaded as before;
* `FileTree.Kept.resolve`: a source tree is resolved as before.
-/

namespace ScriptBundle.FileTree

variable {t t' : FileTree} {written source : Location}

/-! ### Direct paths -/

/-- The path made from the names on the way to a file leads nowhere else. -/
theorem locate_ofNames {names location : Location} {content : ByteArray}
    (hnames : ∀ name ∈ names, Path.IsName name)
    (hfile : t.root.at? names = some (.file content))
    (h : t.locate (.ofNames names) = .ok location) : location = names := by
  obtain ⟨-, -, -, hwalks⟩ := place_eq_ok_iff.mp (locateBy_eq_ok_iff.mp h)
  have hstart : (Path.ofNames names).isAbsolute = true := rfl
  rw [if_pos hstart] at hwalks
  cases names with
  | nil =>
    -- the walk needs a directory at the root, where the file stands
    have hsegments : splitSlashes (Path.ofNames []).text = [[], []] := rfl
    rw [hsegments] at hwalks
    cases hwalks with
    | idle hhere => simp [hfile] at hhere
    | enter hhere => simp [hfile] at hhere
    | stop hhere => simp [hfile] at hhere
    | link hhere => simp [hfile] at hhere
  | cons name rest =>
    have hsegments : splitSlashes (Path.ofNames (name :: rest)).text = [] :: name :: rest := by
      rw [Path.ofNames, splitSlashes, if_pos rfl,
        Path.splitSlashes_joinSlashes (List.cons_ne_nil _ _)
        fun segment hsegment => (hnames segment hsegment).1]
    rw [hsegments] at hwalks
    cases hwalks with
    | idle _ _ hrest => exact hrest.eq_of_names hnames hfile
    | stop _ htakes => exact absurd (.inl rfl) htakes.idle
    | link _ htakes => exact absurd (.inl rfl) htakes.idle
    | enter _ htakes => exact absurd (.inl rfl) htakes.idle

namespace Kept

variable {root : SourceRoot} {rule : SourceRule} (h : Kept written t t')
include h

/-! ### What resolution reads -/

/-- The source root stays where it is. -/
theorem sourceRoot {src : Path} (hsource : t.sourceRoot src = .ok source) :
    t'.sourceRoot src = .ok source := by
  obtain ⟨hlocation, entries, hentries⟩ := sourceRoot_eq_ok_iff.mp hsource
  obtain ⟨found, hfound, hlasts⟩ := h.root.lasts _ _ hentries
  refine sourceRoot_eq_ok_iff.mpr ⟨h.locateBy hlocation, ?_⟩
  cases hlasts with
  | directory entries entries' => exact ⟨entries', hfound⟩

/-- A specifier that is found leads to the same file. -/
theorem lookup {specifier : String} {importer : Path} {target? : Option Path}
    (hlookup : root.lookup t specifier importer = .ok target?) :
    root.lookup t' specifier importer = .ok target? := by
  rw [SourceRoot.lookup] at hlookup ⊢
  cases hcandidate : root.candidate? specifier.toList importer with
  | none =>
    rw [hcandidate] at hlookup
    exact hlookup
  | some candidate =>
    rw [hcandidate] at hlookup
    simp only at hlookup ⊢
    split at hlookup
    · next target hfile hcanonical =>
      simp only [h.isFile hfile, h.canonical hcanonical]
      exact hlookup
    · simp at hlookup

/-- Imports that are found mean the same files. -/
theorem localTargets {importer : Path} {imports : List Import}
    (hlookups : ∀ imported ∈ imports, ∃ target?,
      root.lookup t imported.source importer = .ok target?) :
    root.localTargets t' importer imports = root.localTargets t importer imports := by
  refine List.filterMap_congr fun imported himported => ?_
  obtain ⟨target?, hlookup⟩ := hlookups imported himported
  rw [hlookup, h.lookup hlookup]

section Discovered

variable (ht : t.root.WellFormed)
  (hwritten : ¬∃ below, written = source ++ below ∧ rule.Admits below)
include ht hwritten

/-- A discovered file keeps its text. -/
theorem readText_of_mem_discovered {path : Path} (hpath : path ∈ t.discovered rule source)
    {text : Text} (htext : t.readText path = .ok text) : t'.readText path = .ok text := by
  obtain ⟨below, hbelow, rfl⟩ := List.mem_map.mp hpath
  obtain ⟨⟨content, hcontent⟩, hadmits⟩ :=
    (mem_found_entriesAt ht).mp (SourceRule.mem_inOrder.mp hbelow)
  have hnames := ht.isName_of_at? (Option.isSome_of_eq_some hcontent)
  exact h.readText htext fun hlocate =>
    hwritten ⟨below, locate_ofNames hnames hcontent hlocate, hadmits⟩

/-- A discovered module is loaded as before. -/
theorem load {path : Path} (hpath : path ∈ t.discovered rule source) {record : ModuleRecord}
    (hload : root.load t path = .ok record) : root.load t' path = .ok record := by
  obtain ⟨rfl, hdescribes, hlookups⟩ := SourceRoot.load_eq_ok_iff.mp hload
  refine SourceRoot.load_eq_ok_iff.mpr ⟨rfl, ⟨hdescribes.relativePath,
    h.readText_of_mem_discovered ht hwritten hpath hdescribes.content, hdescribes.interface, ?_⟩,
    fun imported himported => ?_⟩
  · rw [hdescribes.dependencies, h.localTargets hlookups]
  · obtain ⟨target?, hlookup⟩ := hlookups imported himported
    exact ⟨target?, h.lookup hlookup⟩

end Discovered

/-- Checks of loaded modules pass as before. -/
theorem checkImports {table : ModuleTable} (hloaded : table.IsLoaded root t)
    (hchecks : root.checkImports t table = .ok ()) : root.checkImports t' table = .ok () := by
  rw [SourceRoot.checkImports_eq_ok_iff] at hchecks ⊢
  intro importer himporter imported himported
  obtain ⟨-, -, hlookups⟩ := SourceRoot.load_eq_ok_iff.mp (hloaded.loads importer himporter)
  obtain ⟨target?, hlookup⟩ := hlookups imported himported
  have hcheck := hchecks importer himporter imported himported
  rw [SourceRoot.checkImport, hlookup] at hcheck
  rw [SourceRoot.checkImport, h.lookup hlookup]
  exact hcheck

/-- A source tree is **resolved as before** where a file is written that no rule takes for a
module, provided that discovery can list the directories. -/
theorem resolve {src : Path} {records : List ModuleRecord} (ht : t.root.WellFormed)
    (ht' : t'.root.WellFormed) (hsource : t.sourceRoot src = .ok source)
    (hwritten : ¬∃ below, written = source ++ below ∧ rule.Admits below)
    (hlistable : t'.Listable rule source)
    (hresolve : ScriptBundle.resolve t rule src = .ok records) :
    ScriptBundle.resolve t' rule src = .ok records := by
  obtain ⟨location, hlocation, files, hfiles, loaded, hloaded, hchecks, hlinked⟩ :=
    resolve_eq_ok_iff.mp hresolve
  obtain rfl : source = location := Except.ok.inj (hsource.symm.trans hlocation)
  have hlocation' := h.sourceRoot hlocation
  obtain ⟨-, entries, hentries⟩ := sourceRoot_eq_ok_iff.mp hlocation'
  refine resolve_eq_ok_iff.mpr ⟨source, hlocation', files,
    h.filesBelow ht ht' hwritten hentries hlistable hfiles, loaded, ?_,
    h.checkImports (ModuleTable.isLoaded_addAll hloaded) hchecks, hlinked⟩
  obtain rfl := eq_discovered_of_filesBelow hfiles
  rw [← hloaded]
  refine List.map_congr_left fun path hpath => ?_
  obtain ⟨record, -, hrecord⟩ : ∃ record ∈ loaded, Except.ok record =
      (rule.rootAt source).load t path := by
    rw [← List.mem_map, ← hloaded]
    exact List.mem_map_of_mem hpath
  rw [← hrecord]
  exact h.load ht hwritten hpath hrecord.symm

end Kept

end ScriptBundle.FileTree
