import ScriptBundle.Path.Basic

/-!
# File Trees

Files, symbolic links and directories, as a value. A place in a tree is given by the names on
the way to it from the root, links not followed.

## Main definitions

* `FileNode`: a file, a link or a directory;
* `FileNode.at?`: what stands at a place;
* `FileNode.put`, `FileNode.erase`: a tree with something else at a place.

## Main statements

* `FileNode.at?_put_self`: what was put at a place in a directory stands there.
-/

namespace ScriptBundle

/-- A **node** of a file tree. -/
inductive FileNode where
  | file (content : ByteArray)
  | link (target : Text)
  | directory (entries : List (Text × FileNode))

/-- A **location** is the names on the way from the root to a node. -/
abbrev Location := List Text

namespace FileNode

/-- The node with a given name in a directory. -/
def child? (name : Text) : FileNode → Option FileNode
  | directory entries => entries.lookup name
  | _ => none

/-- The node at a location. -/
def at? : Location → FileNode → Option FileNode
  | [], node => some node
  | name :: rest, node => (node.child? name).bind (at? rest)

/-- Whether a node is a directory. -/
def isDirectory : FileNode → Bool
  | directory _ => true
  | _ => false

/-- Whether a node is a file. -/
def isFile : FileNode → Bool
  | file _ => true
  | _ => false

/-- Whether a node is a symbolic link. -/
def isLink : FileNode → Bool
  | link _ => true
  | _ => false

/-- Gives a name in a listing a node: where the name stands, or at the end. -/
def setEntry (name : Text) (node : FileNode) : List (Text × FileNode) → List (Text × FileNode)
  | [] => [(name, node)]
  | (other, found) :: rest =>
    if other = name then (other, node) :: rest else (other, found) :: setEntry name node rest

/-- The tree with `new` at a location. The directory around the location must exist; otherwise
nothing changes. -/
def put : Location → FileNode → FileNode → FileNode
  | [], new, _ => new
  | name :: rest, new, directory entries =>
    match entries.lookup name with
    | some found => directory (setEntry name (put rest new found) entries)
    | none => if rest.isEmpty then directory (setEntry name new entries) else directory entries
  | _ :: _, _, node => node

/-- The tree without the node at a location. -/
def erase : Location → FileNode → FileNode
  | [], node => node
  | [name], directory entries => directory (entries.filter (·.1 ≠ name))
  | name :: rest, directory entries =>
    match entries.lookup name with
    | some found => directory (setEntry name (erase rest found) entries)
    | none => directory entries
  | _ :: _, node => node

/-! ### Lemmas -/

@[simp] theorem at?_nil (node : FileNode) : at? [] node = some node := rfl

/-- Going on from a node that was found is going further. -/
theorem at?_append (front rest : Location) (node : FileNode) :
    at? (front ++ rest) node = (at? front node).bind (at? rest) := by
  induction front generalizing node with
  | nil => rfl
  | cons name front ih =>
    simp only [List.cons_append, at?]
    cases node.child? name with
    | none => rfl
    | some found => exact ih found

/-- A listing has the node that a name was given. -/
theorem lookup_setEntry_self (name : Text) (node : FileNode) (entries : List (Text × FileNode)) :
    (setEntry name node entries).lookup name = some node := by
  induction entries with
  | nil => simp [setEntry]
  | cons entry rest ih =>
    obtain ⟨other, found⟩ := entry
    by_cases h : other = name
    · simp [setEntry, h]
    · have hne : (name == other) = false := by simpa using Ne.symm h
      simpa [setEntry, h, List.lookup_cons, hne] using ih

/-- The other names keep their nodes. -/
theorem lookup_setEntry_of_ne {name other : Text} (node : FileNode)
    (entries : List (Text × FileNode)) (h : other ≠ name) :
    (setEntry name node entries).lookup other = entries.lookup other := by
  have hother : (other == name) = false := by simpa using h
  induction entries with
  | nil => simp [setEntry, List.lookup_cons, hother]
  | cons entry rest ih =>
    obtain ⟨k, found⟩ := entry
    by_cases hk : k = name
    · subst hk
      simp [setEntry, List.lookup_cons, hother]
    · simp only [setEntry, hk, if_false, List.lookup_cons, ih]

/-- What was put at a new or old name in a directory stands there. -/
theorem at?_put_self {front : Location} {name : Text} {new node : FileNode}
    {entries : List (Text × FileNode)} (h : at? front node = some (directory entries)) :
    at? (front ++ [name]) (put (front ++ [name]) new node) = some new := by
  induction front generalizing node with
  | nil =>
    obtain rfl : node = directory entries := by simpa using h
    simp only [List.nil_append, put]
    split <;> simp [at?, child?, lookup_setEntry_self]
  | cons first front ih =>
    cases node with
    | file content => simp [at?, child?] at h
    | link target => simp [at?, child?] at h
    | directory found =>
      simp only [at?, child?] at h
      obtain ⟨next, hnext, hrest⟩ := Option.bind_eq_some_iff.mp h
      simp [put, at?, child?, hnext, lookup_setEntry_self, ih hrest]

end FileNode

end ScriptBundle
