import ScriptBundle.BuildError
import ScriptBundle.FileTree.Walk
import ScriptBundle.Source.Watch
import ScriptBundle.Text.Order

/-!
# Discovery

Which files below the source root are modules: those with the configured extension, unless a
name on the way to them is hidden or a directory on the way is excluded. Links are neither files
nor directories here. Discovery ends at the first directory that cannot be listed; hidden and
excluded directories are passed without listing them.

## Main definitions

* `SourceRule`: the extension of modules and the excluded names;
* `SourceRule.listed`: the modules among the entries of a directory and below them;
* `SourceRule.inOrder`: locations in order of their names;
* `FileTree.sourceRoot`: the location of the source root;
* `FileTree.filesBelow`: the modules below a source root;
* `FileTree.sourceFiles`: the modules of a file tree.

## Main statements

* `SourceRule.pairwise_inOrder`: the modules come in ascending order.
-/

namespace ScriptBundle

/-- A **source rule** tells modules from other files. -/
structure SourceRule where
  /-- The extension of modules, without its point. -/
  extension : Text
  /-- The names of directories that are left out. -/
  exclude : List Text
  deriving DecidableEq, Repr

namespace SourceRule

/-- Whether a file of this name is a module. -/
def isModuleName (rule : SourceRule) (name : Text) : Bool :=
  (Path.splitExtension name).2 == some rule.extension

mutual

/-- The modules among the entries of the directory `here` of a tree, as locations below the
directory, in the order of the listing. -/
def listed (rule : SourceRule) (t : FileTree) (here : Location) :
    List (Text × FileNode) → Except ListingFault (List Location)
  | [] => .ok []
  | entry :: rest => do
    let found ← listedAt rule t here entry
    let others ← listed rule t here rest
    return found ++ others

/-- The modules at or below one entry of the directory `here`. -/
def listedAt (rule : SourceRule) (t : FileTree) (here : Location) :
    Text × FileNode → Except ListingFault (List Location)
  | (name, node) =>
    if isHidden name then .ok []
    else (listedBelow rule t here name node).map (List.map (name :: ·))

/-- The modules at or below a node with the given name in the directory `here`, as locations below
the node. -/
def listedBelow (rule : SourceRule) (t : FileTree) (here : Location) (name : Text) :
    FileNode → Except ListingFault (List Location)
  | .file _ => .ok (if rule.isModuleName name then [[]] else [])
  | .link _ => .ok []
  | .directory entries =>
    if rule.exclude.contains name then .ok []
    else do
      t.checkListing (here ++ [name])
      listed rule t (here ++ [name]) entries

end

/-- Locations in dictionary order of their names, which are in dictionary order themselves. -/
def ordered : Location → Location → Bool := dictionaryOrder (dictionaryOrder charOrder)

/-- Locations in order. -/
def inOrder (locations : List Location) : List Location := locations.mergeSort ordered

/-- What is put in order comes in ascending order. -/
theorem pairwise_inOrder (locations : List Location) :
    (inOrder locations).Pairwise fun a b => ordered a b = true :=
  List.pairwise_mergeSort
    (dictionaryOrder_trans (dictionaryOrder_trans charOrder_trans charOrder_antisymm)
      fun _ _ => dictionaryOrder_antisymm charOrder_antisymm)
    (dictionaryOrder_total (dictionaryOrder_total charOrder_total)) _

/-- Order changes nothing about which files are modules. -/
@[simp] theorem mem_inOrder {locations : List Location} {l : Location} :
    l ∈ inOrder locations ↔ l ∈ locations := by
  simp [inOrder]

end SourceRule

namespace FileTree

/-- The location of the source root, which must be a directory. -/
def sourceRoot (t : FileTree) (src : Path) : Except BuildError Location :=
  match t.canonicalLocation src with
  | .error cause => .error (.discovery src cause)
  | .ok location =>
    if (t.root.at? location).any FileNode.isDirectory then .ok location
    else .error (.discovery src .notASourceDirectory)

/-- The entries of the directory at a location. -/
def entriesAt (t : FileTree) (location : Location) : List (Text × FileNode) :=
  match t.root.at? location with
  | some (.directory entries) => entries
  | _ => []

/-- The modules below the directory at a location, as locations below it. -/
def modulesBelow (t : FileTree) (rule : SourceRule) (root : Location) :
    Except ListingFault (List Location) := do
  t.checkListing root
  rule.listed t root (t.entriesAt root)

/-- The modules below a source root, as absolute paths in order. -/
def filesBelow (t : FileTree) (rule : SourceRule) (root : Location) :
    Except BuildError (List Path) :=
  match t.modulesBelow rule root with
  | .ok found => .ok ((SourceRule.inOrder found).map fun below => .ofNames (root ++ below))
  | .error fault =>
    .error (.unlistable (.ofNames root) (.ofNames fault.location) fault.cause)

/-- The modules of a file tree, as absolute paths in order. -/
def sourceFiles (t : FileTree) (rule : SourceRule) (src : Path) :
    Except BuildError (List Path) := do
  let root ← t.sourceRoot src
  t.filesBelow rule root

end FileTree

end ScriptBundle
