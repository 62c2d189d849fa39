import ScriptBundle.Build.Bundle
import ScriptBundle.Config.Reader
import ScriptBundle.Proofs.Path.Detours
import ScriptBundle.Proofs.Source.Exactness

/-!
# Extensions of Imports

A specifier without an extension is completed by a point and the extension of modules as they are
configured, while files are discovered by what stands behind the last point of their names. The two
agree wherever there is a module to import from: such an extension holds neither a point nor a
slash, and so the file that is imported has it, too.

## Main statements

* `extension_of_discovered`: the extension of discovered files;
* `SourceRoot.exists_base`: a specifier goes on from a path of names;
* `FileTree.eq_of_locateBy`: without links, a path of names leads to where it says;
* `mem_sourceFiles_of_lookup`: an import that is completed means a discovered file.
-/

namespace ScriptBundle

/-! ### Extensions -/

/-- An accepted configuration has an extension. -/
theorem Config.extension_ne_nil {document : Text} {c : Config}
    (h : Config.ofToml document = .ok c) :
    c.extension ≠ [] := by
  rw [Config.ofToml] at h
  split at h
  · simp at h
  · next found _ =>
    obtain ⟨_, hcheck, rfl⟩ := map_eq_ok_iff.mp h
    intro hnil
    simp [Config.check, hnil] at hcheck

section

variable {t : FileTree} (ht : t.root.WellFormed) {rule : SourceRule} {root : Location} {path : Path}
include ht

/-- The path of a discovered file is made from names, of which the last one is the name of a
module. -/
theorem exists_names_of_discovered (h : path ∈ t.discovered rule root) :
    ∃ directory last, path = .ofNames (directory ++ [last]) ∧
      (∀ name ∈ directory ++ [last], Path.IsName name) ∧ rule.isModuleName last = true := by
  obtain ⟨below, hbelow, rfl⟩ := List.mem_map.mp h
  obtain ⟨⟨content, hfile⟩, hadmits⟩ :=
    (FileTree.mem_found_entriesAt ht).mp (SourceRule.mem_inOrder.mp hbelow)
  obtain ⟨last, hlast, hmodule⟩ := hadmits.isModule
  have hnames := ht.isName_of_at? (Option.isSome_of_eq_some hfile)
  have hsplit : root ++ below = (root ++ below.dropLast) ++ [last] := by
    rw [List.append_assoc, List.dropLast_append_getLast? last hlast]
  rw [hsplit] at hnames ⊢
  exact ⟨_, last, rfl, hnames, hmodule⟩

/-- Where a file is discovered, the **extension of modules** holds neither a point nor a slash. -/
theorem extension_of_discovered (h : path ∈ t.discovered rule root) :
    '.' ∉ rule.extension ∧ '/' ∉ rule.extension := by
  obtain ⟨directory, last, -, hnames, hmodule⟩ := exists_names_of_discovered ht h
  have hextension : (Path.splitExtension last).2 = some rule.extension := by
    simpa [SourceRule.isModuleName] using hmodule
  obtain ⟨hpoint, hsubset⟩ := Path.mem_of_splitExtension hextension
  exact ⟨hpoint, fun hslash => (hnames last (by simp)).1 (hsubset hslash)⟩

end

/-! ### Bases -/

/-- No idle segment stands at the end of names. -/
theorem Path.trimIdle_of_names {names : List Text} (h : ∀ name ∈ names, IsName name) :
    trimIdle names = names := by
  rcases List.eq_nil_or_concat names with rfl | ⟨front, last, rfl⟩
  · rfl
  · have hlast := h last (by simp)
    have hidle : isIdle last = false := by simp [isIdle, hlast.2.1, hlast.2.2.1]
    simp [trimIdle, hidle]

/-- The directory of a path of names. -/
theorem Path.parent?_ofNames {names : List Text} {last : Text}
    (h : ∀ name ∈ names ++ [last], IsName name) :
    (ofNames (names ++ [last])).parent? = some (ofNames names) := by
  have hsegments : splitSlashes (ofNames (names ++ [last])).text = [] :: (names ++ [last]) := by
    rw [ofNames, splitSlashes, if_pos rfl,
      splitSlashes_joinSlashes (by simp) fun name hname => (h name hname).1]
  have hfront : trimIdle names = names :=
    trimIdle_of_names fun name hname => h name (List.mem_append_left _ hname)
  have hdrop : dropStep (names ++ [last]) = some names := by
    rw [dropStep, trimIdle_of_names h]
    cases hnames : names ++ [last] with
    | nil => simp at hnames
    | cons first others => simp [← hnames, hfront]
  rw [parent?, hsegments]
  simp [isAbsolute, ofNames, hdrop]

/-- The last step of a path is that of its segments, if it is a name. -/
theorem Path.getLast?_segments {p : Path} {name : Text}
    (h : p.components.getLast? = some (.normal name)) :
    ((splitSlashes p.text).filterMap componentOf?).getLast? = some (.normal name) := by
  have hfront : p.frontComponent?.toList.getLast? ≠ some (.normal name) := by
    rw [frontComponent?]
    split
    · simp
    · split <;> simp
  rw [components, List.getLast?_append, Option.or_eq_some_iff] at h
  exact h.resolve_right fun hnone => hfront hnone.2

/-- Slashes at the front of a path add no step behind its front. -/
theorem Path.filterMap_dropWhile (s : Text) :
    (splitSlashes (s.dropWhile (· == '/'))).filterMap componentOf? =
      (splitSlashes s).filterMap componentOf? := by
  induction s with
  | nil => rfl
  | cons c s ih =>
    by_cases hslash : c = '/'
    · simpa [hslash, splitSlashes, componentOf?] using ih
    · simp [hslash]

namespace SourceRoot

variable {rule : SourceRule} {root : Location} {importer candidate : Path} {specifier name : Text}

/-- A specifier that names a file **goes on from a path of names**, the source root or the directory
of the importing module. -/
theorem exists_base (hroot : ∀ name ∈ root, Path.IsName name) {directory : Location} {last : Text}
    (himporter : importer = .ofNames (directory ++ [last]))
    (hnames : ∀ name ∈ directory ++ [last], Path.IsName name)
    (h : (rule.rootAt root).candidate? specifier importer = some candidate)
    (hlast : (Path.mk specifier).components.getLast? = some (.normal name)) :
    ∃ base q, (∀ name ∈ base, Path.IsName name) ∧ q.isAbsolute = false ∧
      ((splitSlashes q.text).filterMap Path.componentOf?).getLast? = some (.normal name) ∧
      candidate = (((Path.ofNames base).join q).withExtension rule.extension
        scriptExtensions).normalize := by
  have hsegments := Path.getLast?_segments hlast
  rw [candidate?] at h
  cases hkind : SpecifierKind.of specifier with
  | external => simp [hkind] at h
  | relative =>
    obtain rfl : _ = candidate := by simpa [hkind] using h
    refine ⟨directory, ⟨specifier⟩, fun name hname => hnames name (List.mem_append_left _ hname),
      Path.isAbsolute_of_relative hkind, hsegments, ?_⟩
    rw [himporter, Path.parent?_ofNames hnames]
    rfl
  | rooted =>
    obtain rfl : _ = candidate := by simpa [hkind] using h
    refine ⟨root, ⟨specifier.dropWhile (· == '/')⟩, hroot, ?_, ?_, rfl⟩
    · have hhead := List.head?_dropWhile_not (· == '/') specifier
      cases hbehind : specifier.dropWhile (· == '/') with
      | nil => rfl
      | cons c rest => simpa [hbehind, Path.isAbsolute] using hhead
    · rw [Path.filterMap_dropWhile]
      exact hsegments

end SourceRoot

/-! ### Files -/

/-- Without links a path of names leads to where it says. -/
theorem FileTree.eq_of_locateBy {t : FileTree}
    (hlinks : ∀ location target, t.root.at? location ≠ some (.link target)) {names : List Text}
    (hnames : ∀ name ∈ names, Path.IsName name) {ending : PathEnd}
    (hstops : ∀ behind, ending.stopsAt behind = false) {location : Location}
    (h : t.locateBy ending (.ofNames names) = .ok location) : location = names := by
  have hspelled : t.spelled (.ofNames names) = names := by
    rw [spelled, Path.names, Path.components_ofNames hnames, List.filterMap_cons,
      List.filterMap_map]
    exact List.filterMap_some
  have hstraight : t.Straight (.ofNames names) := by
    refine ⟨?_, fun front _ => hlinks front⟩
    rw [Path.components_ofNames hnames]
    simp
  rw [hstraight.place hstops (locateBy_eq_ok_iff.mp h), hspelled]

/-- Without links there is a file at the location that a path of names tells, if the path leads to
one. -/
theorem FileTree.exists_file_of_isFile {t : FileTree}
    (hlinks : ∀ location target, t.root.at? location ≠ some (.link target)) {names : List Text}
    (hnames : ∀ name ∈ names, Path.IsName name) (h : t.isFile (.ofNames names) = true) :
    ∃ content, t.root.at? names = some (.file content) := by
  rw [isFile, node?] at h
  split at h
  · next location hlocation =>
    rw [eq_of_locateBy hlinks hnames (fun _ => rfl) hlocation] at h
    obtain ⟨node, hnode, hfile⟩ := (Option.any_eq_true _ _).mp h
    cases node with
    | file content => exact ⟨content, hnode⟩
    | link => simp [FileNode.isFile] at hfile
    | directory => simp [FileNode.isFile] at hfile
  · simp at h

/-- What lies below a path of names is told by the names behind it. -/
theorem Path.exists_of_below? {root names : List Text} (hroot : ∀ name ∈ root, IsName name)
    (hnames : ∀ name ∈ names, IsName name) {steps : List Component}
    (h : (ofNames names).below? (ofNames root) = some steps) :
    ∃ below, names = root ++ below ∧ steps = below.map .normal := by
  have hprefix : (ofNames root).components.isPrefixOf (ofNames names).components = true := by
    rw [below?] at h
    split at h
    · next hprefix => exact hprefix
    · simp at h
  rw [components_ofNames hroot, components_ofNames hnames, List.isPrefixOf_iff_prefix,
    List.cons_prefix_cons] at hprefix
  have hinjective : Function.Injective Component.normal := fun _ _ heq => Component.normal.inj heq
  obtain ⟨rest, hrest⟩ := hprefix.2
  obtain ⟨front, below, rfl, hfront, -⟩ := List.map_eq_append_iff.mp hrest.symm
  obtain rfl : front = root := List.map_injective_iff.mpr hinjective hfront
  refine ⟨below, rfl, ?_⟩
  rw [below?_ofNames hnames] at h
  exact (Option.some.inj h).symm

/-! ### Imports -/

section

variable {t : FileTree} (hlinks : ∀ location target, t.root.at? location ≠ some (.link target))
  {rule : SourceRule} {root : Location} {importer target : Path} {specifier : String} {name : Text}
include hlinks

/-- A specifier without an extension means a file whose name is the last segment with the
**extension of modules** behind it. That segment is the last name of the specifier, unless it is
idle. -/
theorem SourceRoot.exists_names_of_lookup (hroot : ∀ name ∈ root, Path.IsName name)
    {directory : Location} {last : Text} (himporter : importer = .ofNames (directory ++ [last]))
    (hnames : ∀ name ∈ directory ++ [last], Path.IsName name) (hne : rule.extension ≠ [])
    (hextension : '.' ∉ rule.extension ∧ '/' ∉ rule.extension)
    (hlast : (Path.ofString specifier).components.getLast? = some (.normal name))
    (hpoint : '.' ∉ name)
    (h : (rule.rootAt root).lookup t specifier importer = .ok (some target)) :
    ∃ others segment, target = .ofNames (others ++ [segment ++ '.' :: rule.extension]) ∧
      (∀ name ∈ others ++ [segment ++ '.' :: rule.extension], Path.IsName name) ∧
      (∃ content, t.root.at? (others ++ [segment ++ '.' :: rule.extension]) =
        some (.file content)) ∧
      (Path.isIdle segment = false → segment = name) := by
  rw [lookup] at h
  split at h
  · simp at h
  · next candidate hcandidate =>
    split at h
    · next found hfile hcanonical =>
      obtain rfl : found = target := by simpa using h
      obtain ⟨base, q, hbase, hq, hsegments, hcomplete⟩ :=
        exists_base hroot himporter hnames hcandidate hlast
      have hname : ((Path.ofNames base).join q).components.getLast? = some (.normal name) := by
        rw [(Path.components_join rfl hq).2, List.getLast?_append, hsegments]
        rfl
      obtain ⟨front, segment, others, hslashes, hnormal, hall⟩ :=
        Path.exists_completed hbase hq hne hextension
      obtain rfl : candidate = .ofNames (others ++ [segment ++ '.' :: rule.extension]) := by
        rw [hcomplete, Path.withExtension_of_not_mem hname hpoint, hnormal]
      refine ⟨others, segment, ?_, hall, FileTree.exists_file_of_isFile hlinks hall hfile,
        fun hidle => ?_⟩
      · obtain ⟨location, hlocation, rfl⟩ := map_eq_ok_iff.mp hcanonical
        rw [FileTree.eq_of_locateBy hlinks hall (fun _ => rfl) hlocation]
      · have hnot : ¬(segment = [] ∨ segment = ['.']) := by simpa [Path.isIdle] using hidle
        rw [hslashes, List.filterMap_append, List.getLast?_append] at hsegments
        by_cases hparent : segment = ['.', '.']
        · simp [Path.componentOf?, hparent] at hsegments
        · simpa [Path.componentOf?, hnot, hparent] using hsegments
    · simp at h

/-- Such a file is **discovered** if nothing on the way to it from the source root is hidden or
excluded. -/
theorem SourceRoot.mem_discovered_of_lookup (ht : t.root.WellFormed)
    {entries : List (Text × FileNode)} (hroot : t.root.at? root = some (.directory entries))
    (himporter : importer ∈ t.discovered rule root) (hne : rule.extension ≠ [])
    (hlast : (Path.ofString specifier).components.getLast? = some (.normal name))
    (hpoint : '.' ∉ name)
    (hlookup : (rule.rootAt root).lookup t specifier importer = .ok (some target))
    {steps : List Component} (hbelow : target.below? (.ofNames root) = some steps)
    (hvisible : ∀ step ∈ steps, isHidden step.text = false)
    (hincluded : ∀ step ∈ steps.dropLast, step.text ∉ rule.exclude) :
    target ∈ t.discovered rule root := by
  have hrootNames := ht.isName_of_at? (Option.isSome_of_eq_some hroot)
  have hextension := extension_of_discovered ht himporter
  obtain ⟨directory, last, hpath, hnames, -⟩ := exists_names_of_discovered ht himporter
  obtain ⟨others, segment, rfl, htarget, ⟨content, hfile⟩, hsegment⟩ :=
    exists_names_of_lookup hlinks hrootNames hpath hnames hne hextension hlast hpoint hlookup
  obtain ⟨below, hbehind, rfl⟩ := Path.exists_of_below? hrootNames htarget hbelow
  have hseen : ∀ name ∈ below, isHidden name = false := fun name hname =>
    hvisible (.normal name) (List.mem_map_of_mem hname)
  have hend : below.getLast? = some (segment ++ '.' :: rule.extension) := by
    have hfurther : below ≠ [] := by
      rintro rfl
      rw [hbehind, List.append_nil, hroot] at hfile
      simp at hfile
    have hwhole := congrArg List.getLast? hbehind
    rw [List.getLast?_concat, List.getLast?_append_of_ne_nil _ hfurther] at hwhole
    exact hwhole.symm
  -- an idle segment would leave the extension alone, behind a point at the front of the name
  have hidle : Path.isIdle segment = false := by
    have hhidden := hseen _ (List.mem_of_getLast? hend)
    refine Bool.eq_false_iff.mpr fun hidle => ?_
    have hcases : segment = [] ∨ segment = ['.'] := by simpa [Path.isIdle] using hidle
    rcases hcases with rfl | rfl
    · simp [isHidden] at hhidden
    · simp [isHidden] at hhidden
  obtain rfl := hsegment hidle
  have hnonempty : segment ≠ [] := fun hnil => by simp [hnil, Path.isIdle] at hidle
  refine (FileTree.mem_discovered_iff ht (Option.isSome_of_eq_some hfile)).mpr
    ⟨⟨content, hfile⟩, below, hbehind, hseen, fun name hname => ?_, _, hend, ?_⟩
  · rw [← List.map_dropLast] at hincluded
    exact hincluded (.normal name) (List.mem_map_of_mem hname)
  · exact beq_iff_eq.mpr (congrArg Prod.snd (Path.splitExtension_append hnonempty hextension.1))

end

/-- An import is not rejected for want of a module if the file that it means is **one of those that
are loaded**. -/
theorem SourceRoot.checkImport_ne_resolution {root : SourceRoot} {t : FileTree} {files : List Path}
    {loaded : List ModuleRecord} (hloaded : files.map (root.load t) = loaded.map .ok)
    (hnodup : files.Nodup) (hdirect : ∀ path ∈ files, path.IsDirect) {importer : ModuleRecord}
    (himporter : importer ∈ loaded) {imported : Import} (hmem : imported ∈ importer.imports)
    {target : Path} (hlookup : root.lookup t imported.source importer.path = .ok (some target))
    (htarget : target ∈ files) (text path : String) :
    root.checkImport t (loaded.foldl .add .empty) importer imported ≠
      .error (.resolution text path) := by
  obtain ⟨-, -, hpaths⟩ := ModuleTable.isLoaded_of_loaded hloaded hnodup hdirect
  have hrecords := htarget
  rw [← hpaths] at hrecords
  obtain ⟨known, hknown, rfl⟩ := List.mem_map.mp hrecords
  obtain ⟨found, hfound⟩ := ModuleTable.exists_find?_of_mem hknown
  have hload : .ok importer ∈ files.map (root.load t) := by
    rw [hloaded]
    exact List.mem_map_of_mem himporter
  obtain ⟨file, -, hfile⟩ := List.mem_map.mp hload
  have hdependency : known.path ∈ importer.dependencies := by
    rw [(load_eq_ok_iff.mp hfile).2.1.dependencies, List.mem_eraseDups, mem_localTargets]
    exact ⟨imported, hmem, hlookup⟩
  rw [checkImport, hlookup]
  cases hmissing : missing? found imported.clause <;>
    simp [bind, Except.bind, hfound, hdependency, hmissing]

/-- **An import without an extension means a discovered file.** In a tree without links, let a
specifier end in a name without a point, and let it lead from a discovered file to a file below the
source root. If nothing on the way there is hidden or excluded, then this file is discovered, too,
whatever extension is configured. So the import is not rejected for want of a module. -/
theorem mem_sourceFiles_of_lookup {document : Text} {c : Config}
    (hconfig : Config.ofToml document = .ok c) {t : FileTree} (ht : t.root.WellFormed)
    (hlinks : ∀ location target, t.root.at? location ≠ some (.link target)) {root : Location}
    (hroot : t.sourceRoot c.src = .ok root) {files : List Path}
    (hfiles : t.sourceFiles c.sourceRule c.src = .ok files) {importer target : Path}
    (himporter : importer ∈ files) {specifier : String} {name : Text}
    (hlast : (Path.ofString specifier).components.getLast? = some (.normal name))
    (hpoint : '.' ∉ name)
    (hlookup : (c.sourceRule.rootAt root).lookup t specifier importer = .ok (some target))
    {steps : List Component} (hbelow : target.below? (.ofNames root) = some steps)
    (hvisible : ∀ step ∈ steps, isHidden step.text = false)
    (hincluded : ∀ step ∈ steps.dropLast, step.text ∉ c.exclude) :
    target ∈ files ∧ ∀ loaded : List ModuleRecord,
      files.map ((c.sourceRule.rootAt root).load t) = loaded.map .ok → ∀ record ∈ loaded,
        record.path = importer → ∀ imported ∈ record.imports, imported.source = specifier →
          ∀ text path, (c.sourceRule.rootAt root).checkImport t (loaded.foldl .add .empty) record
            imported ≠ .error (.resolution text path) := by
  have hbelowRoot : t.filesBelow c.sourceRule root = .ok files := by
    rw [FileTree.sourceFiles, hroot] at hfiles
    exact hfiles
  obtain rfl := FileTree.eq_discovered_of_filesBelow hbelowRoot
  obtain ⟨hcanonical, entries, hentries⟩ := sourceRoot_eq_ok_iff.mp hroot
  have htarget := SourceRoot.mem_discovered_of_lookup hlinks ht hentries himporter
    (Config.extension_ne_nil hconfig) hlast hpoint hlookup hbelow hvisible hincluded
  refine ⟨htarget, ?_⟩
  rintro loaded hloaded record hrecord rfl imported himported rfl text path
  obtain ⟨hnodup, hdirect⟩ := nodup_of_filesBelow ht hcanonical hbelowRoot
  exact SourceRoot.checkImport_ne_resolution hloaded hnodup hdirect hrecord himported hlookup
    htarget
    text path

/-- A source tree of two modules with another extension, of which the first one imports the second
one by its bare name. -/
def bareTree : FileTree :=
  treeOfEntries [("a.ts".toList, .file "import './b'".toUTF8), ("b.ts".toList, .file "".toUTF8)]

theorem wellFormed_bareTree : bareTree.root.WellFormed := by
  refine wellFormed_treeOfEntries (.directory (by simp [Path.IsName]) (by simp) ?_)
  simp only [List.forall_mem_cons, List.not_mem_nil, false_implies, implies_true, and_true]
  exact ⟨.file _, .file _⟩

theorem noLink_bareTree (location : Location) (target : Text) :
    bareTree.root.at? location ≠ some (.link target) := by
  rcases location with _ | ⟨first, _ | ⟨second, rest⟩⟩
  · simp [bareTree, treeOfEntries]
  · simp only [bareTree, treeOfEntries, FileNode.at?, FileNode.child?, List.lookup_cons]
    split <;> simp
  · simp only [bareTree, treeOfEntries, FileNode.at?, FileNode.child?, List.lookup_cons]
    split
    · simp only [Option.bind_some, List.lookup_cons]
      split
      · cases rest <;> simp [FileNode.at?, FileNode.child?]
      · split
        · cases rest <;> simp [FileNode.at?, FileNode.child?]
        · simp
    · simp

/-- The second module is discovered. -/
theorem mem_sourceFiles_of_lookup_of_bare :
    ∃ c, Config.ofToml "extension = \"ts\"".toList = .ok c ∧
      bareTree.sourceFiles c.sourceRule c.src = .ok [⟨"/src/a.ts".toList⟩, ⟨"/src/b.ts".toList⟩] ∧
      (c.sourceRule.rootAt ["src".toList]).lookup bareTree "./b" ⟨"/src/a.ts".toList⟩ =
        .ok (some ⟨"/src/b.ts".toList⟩) ∧
      (⟨"/src/b.ts".toList⟩ : Path) ∈ [(⟨"/src/a.ts".toList⟩ : Path), ⟨"/src/b.ts".toList⟩] := by
  have hconfig : Config.ofToml "extension = \"ts\"".toList = .ok { extension := "ts".toList } := by
    cbv
  have hfiles : bareTree.sourceFiles ⟨"ts".toList, ["node_modules".toList]⟩ ⟨"src".toList⟩ =
      .ok [⟨"/src/a.ts".toList⟩, ⟨"/src/b.ts".toList⟩] := by cbv
  have hlookup : (SourceRoot.mk (.ofNames ["src".toList]) "ts".toList).lookup bareTree "./b"
      ⟨"/src/a.ts".toList⟩ = .ok (some ⟨"/src/b.ts".toList⟩) := by cbv
  have hlast : (Path.ofString "./b").components.getLast? = some (.normal "b".toList) := by cbv
  have hbelow : (⟨"/src/b.ts".toList⟩ : Path).below? (.ofNames ["src".toList]) =
      some [.normal "b.ts".toList] := by cbv
  exact ⟨_, hconfig, hfiles, hlookup, (mem_sourceFiles_of_lookup hconfig wellFormed_bareTree
    noLink_bareTree (by cbv) hfiles (by simp) hlast (by decide) hlookup hbelow (by decide)
    (by decide)).1⟩

end ScriptBundle
