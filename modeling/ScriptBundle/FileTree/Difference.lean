import ScriptBundle.FileTree.Walk

/-!
# Differences of File Trees

What has to be done to turn one file tree into another one. Links are left alone.

## Main definitions

* `FileChange`: one thing to be done;
* `FileNode.changesFrom`: all that has to be done;
* `FileTree.touched`: the places at which two trees differ in any way.

## Main statements

* `FileNode.changesFrom_file_self`: a file that is there with its content needs no change.
-/

namespace ScriptBundle

/-- A **change** of a file tree: a directory is there, or a file with its content, or neither. -/
inductive FileChange where
  | madeDirectory
  | wroteFile (content : ByteArray)
  | removedFile
  | removedDirectory

namespace FileNode

/-- The entries of a directory. -/
def entriesOf : Option FileNode → List (Text × FileNode)
  | some (directory entries) => entries
  | _ => []

/-- The change that takes away a node. -/
def removal : FileNode → List FileChange
  | file _ => [.removedFile]
  | link _ => []
  | directory _ => [.removedDirectory]

/-- The changes that take away the entries of a directory that a new listing does not have. -/
def removals (old new : List (Text × FileNode)) : List (Location × FileChange) :=
  old.flatMap fun (name, node) =>
    if (new.lookup name).isSome then [] else node.removal.map fun change => ([name], change)

mutual

/-- The changes that lead from what was at a place, if anything was, to a node, each at its
location below the place. -/
def changesFrom (old : Option FileNode) : FileNode → List (Location × FileChange)
  | .file content =>
    match old with
    | some (.file found) => if found.data = content.data then [] else [([], .wroteFile content)]
    | some (.directory _) => [([], .removedDirectory), ([], .wroteFile content)]
    | _ => [([], .wroteFile content)]
  | .link _ => []
  | .directory entries =>
    let made : List (Location × FileChange) := match old with
      | some (.directory found) => removals found entries
      | some (.file _) => [([], .removedFile), ([], .madeDirectory)]
      | _ => [([], .madeDirectory)]
    made ++ changesFromEntries (entriesOf old) entries

/-- The changes that lead from one listing to another one. -/
def changesFromEntries (old : List (Text × FileNode)) :
    List (Text × FileNode) → List (Location × FileChange)
  | [] => []
  | entry :: rest => changesFromEntry old entry ++ changesFromEntries old rest

/-- The changes at or below one entry. -/
def changesFromEntry (old : List (Text × FileNode)) : Text × FileNode → List (Location × FileChange)
  | (name, node) =>
    (changesFrom (old.lookup name) node).map fun (location, change) => (name :: location, change)

end

/-- A file that is there with its content needs no change. -/
theorem changesFrom_file_self (content : ByteArray) :
    changesFrom (some (file content)) (file content) = [] := by
  simp [changesFrom]

end FileNode

/-- The places at which something was written or taken away between two trees. -/
def FileTree.touched (before after : FileTree) : List Location :=
  ((after.root.changesFrom (some before.root)) ++
    (before.root.changesFrom (some after.root))).map Prod.fst

end ScriptBundle
