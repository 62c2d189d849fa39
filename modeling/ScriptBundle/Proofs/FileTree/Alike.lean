import ScriptBundle.Proofs.FileTree.Walking

/-!
# Trees That Hold the Same

The entries of a directory come in some order, which is no part of what a tree holds. Two trees
hold the same if at each place there is the same file, the same link or a directory in both. A walk
cannot tell such trees apart, whatever it comes to.

## Main definitions

* `FileNode.mark`: what stands at a place, of a directory no more than that it is one;
* `FileNode.HoldsSame`: whether two trees have the same marks everywhere.

## Main statements

* `FileNode.HoldsSame.directory`: directories hold the same if their entries do, name by name;
* `FileNode.lookup_eq_of_perm`: the order of entries does not matter to what stands under a name;
* `walk_of_holdsSame`: a walk comes to the same place, or fails in the same way.
-/

namespace ScriptBundle

namespace FileNode

/-- What stands at a place: the content of a file, the target of a link, or nothing more to say of a
directory. -/
inductive Mark where
  | file (content : ByteArray)
  | link (target : Text)
  | directory

/-- The **mark** of a node. -/
def mark : FileNode → Mark
  | file content => .file content
  | link target => .link target
  | directory _ => .directory

/-- Whether two trees **hold the same**: at each place there is the same in both, and the order in
which directories list their entries makes no difference. -/
def HoldsSame (a b : FileNode) : Prop :=
  ∀ location, (a.at? location).map mark = (b.at? location).map mark

variable {a b : FileNode} {location : Location} {entries entries' : List (Text × FileNode)}

/-- Nodes hold the same if they have the same mark and the same under each name. -/
theorem holdsSame_iff : a.HoldsSame b ↔ a.mark = b.mark ∧
    ∀ name location, ((a.child? name).bind (at? location)).map mark =
      ((b.child? name).bind (at? location)).map mark := by
  constructor
  · intro h
    exact ⟨Option.some.inj (h []), fun name location => h (name :: location)⟩
  · rintro ⟨hmark, hchildren⟩ location
    cases location with
    | nil => exact congrArg some hmark
    | cons name location => exact hchildren name location

/-- A tree holds what it holds. -/
theorem HoldsSame.refl (a : FileNode) : a.HoldsSame a := fun _ => rfl

/-- Directories hold the same if they have the same names, and under each name what holds the
same. -/
theorem HoldsSame.directory
    (h : ∀ name, Option.Rel HoldsSame (entries.lookup name) (entries'.lookup name)) :
    (directory entries).HoldsSame (directory entries') := by
  refine holdsSame_iff.mpr ⟨rfl, fun name location => ?_⟩
  have hname := h name
  simp only [child?]
  generalize entries.lookup name = found, entries'.lookup name = found' at hname
  cases hname with
  | some hsame => exact hsame location
  | none => rfl

theorem mark_eq_file_iff {node : FileNode} {content : ByteArray} :
    node.mark = .file content ↔ node = .file content := by
  cases node <;> simp [mark]

theorem mark_eq_link_iff {node : FileNode} {target : Text} :
    node.mark = .link target ↔ node = .link target := by
  cases node <;> simp [mark]

theorem mark_eq_directory_iff {node : FileNode} :
    node.mark = .directory ↔ ∃ entries, node = .directory entries := by
  cases node <;> simp [mark]

namespace HoldsSame

protected theorem symm (h : a.HoldsSame b) : b.HoldsSame a := fun location => (h location).symm

variable {node : FileNode} (h : a.HoldsSame b)
include h

/-- Where nothing stands in one tree, nothing stands in the other one. -/
theorem at?_eq_none (hnone : a.at? location = none) : b.at? location = none := by
  have hmark := h location
  rw [hnone] at hmark
  exact Option.map_eq_none_iff.mp hmark.symm

/-- Where something stands in one tree, something with the same mark stands in the other one. -/
theorem exists_at? (hnode : a.at? location = some node) :
    ∃ node', b.at? location = some node' ∧ node'.mark = node.mark := by
  have hmark := h location
  rw [hnode] at hmark
  exact Option.map_eq_some_iff.mp hmark.symm

theorem at?_eq_file {content : ByteArray} (hfile : a.at? location = some (.file content)) :
    b.at? location = some (.file content) := by
  obtain ⟨node', hnode', hmark⟩ := h.exists_at? hfile
  rwa [mark_eq_file_iff.mp hmark] at hnode'

theorem exists_directory (hdirectory : a.at? location = some (.directory entries)) :
    ∃ entries', b.at? location = some (.directory entries') := by
  obtain ⟨node', hnode', hmark⟩ := h.exists_at? hdirectory
  obtain ⟨entries', rfl⟩ := mark_eq_directory_iff.mp hmark
  exact ⟨entries', hnode'⟩

variable {name : Text} (hentries : a.at? location = some (.directory entries))
  (hentries' : b.at? location = some (.directory entries'))
include hentries hentries'

/-- What two directories at the same place have under a name has the same mark. -/
theorem map_lookup_eq :
    (entries.lookup name).map mark = (entries'.lookup name).map mark := by
  have hmark := h (location ++ [name])
  simpa [at?_append, hentries, hentries', at?, child?] using hmark

theorem lookup_eq_none (hnone : entries.lookup name = none) : entries'.lookup name = none := by
  have hmark : (entries.lookup name).map mark = (entries'.lookup name).map mark :=
    h.map_lookup_eq hentries hentries'
  rw [hnone] at hmark
  exact Option.map_eq_none_iff.mp hmark.symm

theorem exists_lookup (hnode : entries.lookup name = some node) :
    ∃ node', entries'.lookup name = some node' ∧ node'.mark = node.mark := by
  have hmark : (entries.lookup name).map mark = (entries'.lookup name).map mark :=
    h.map_lookup_eq hentries hentries'
  rw [hnode] at hmark
  exact Option.map_eq_some_iff.mp hmark.symm

theorem lookup_eq_link {target : Text} (hlink : entries.lookup name = some (.link target)) :
    entries'.lookup name = some (.link target) := by
  obtain ⟨node', hnode', hmark⟩ := h.exists_lookup hentries hentries' hlink
  rwa [mark_eq_link_iff.mp hmark] at hnode'

end HoldsSame

end FileNode

/-! ### Walks -/

variable {root root' : FileNode}

/-- A walk comes to the same place in trees that hold the same, or fails in the same way. -/
theorem walk_of_holdsSame (h : root.HoldsSame root') (ending : PathEnd) (links : Nat)
    (here : Location) (segments : List Text) :
    walk root' ending links here segments = walk root ending links here segments := by
  fun_induction walk root ending links here segments with
  | case1 => rw [walk]
  | case2 links here segment rest hnone => rw [walk, h.at?_eq_none hnone]
  | case3 links here segment rest entries hhere hidle ih =>
    obtain ⟨entries', hhere'⟩ := h.exists_directory hhere
    rw [walk, hhere']
    simp only [if_pos hidle, ih]
  | case4 links here rest entries hhere hidle ih =>
    obtain ⟨entries', hhere'⟩ := h.exists_directory hhere
    rw [walk, hhere']
    simp only [if_neg hidle, if_true, ih]
  | case5 links here segment rest entries hhere hidle hparent hrefused =>
    obtain ⟨entries', hhere'⟩ := h.exists_directory hhere
    rw [walk, hhere']
    simp only [if_neg hidle, if_neg hparent, if_pos hrefused]
  | case6 links here segment rest entries hhere hidle hparent hrefused hsize =>
    obtain ⟨entries', hhere'⟩ := h.exists_directory hhere
    rw [walk, hhere']
    simp only [if_neg hidle, if_neg hparent, if_neg hrefused, if_pos hsize]
  | case7 links here segment rest entries hhere hidle hparent hrefused hsize hnone hadmits =>
    obtain ⟨entries', hhere'⟩ := h.exists_directory hhere
    rw [walk_of_takes hhere' (.of_not hidle hparent hrefused hsize),
      h.lookup_eq_none hhere hhere' hnone]
    exact if_pos hadmits
  | case8 links here segment rest entries hhere hidle hparent hrefused hsize hnone hadmits =>
    obtain ⟨entries', hhere'⟩ := h.exists_directory hhere
    rw [walk_of_takes hhere' (.of_not hidle hparent hrefused hsize),
      h.lookup_eq_none hhere hhere' hnone]
    exact if_neg hadmits
  | case9 links here segment rest entries hhere hidle hparent hrefused hsize target hlookup hstop =>
    obtain ⟨entries', hhere'⟩ := h.exists_directory hhere
    rw [walk_of_takes hhere' (.of_not hidle hparent hrefused hsize),
      h.lookup_eq_link hhere hhere' hlookup]
    exact if_pos hstop
  | case10 here segment rest entries hhere hidle hparent hrefused hsize target hlookup hstop =>
    obtain ⟨entries', hhere'⟩ := h.exists_directory hhere
    rw [walk_of_takes hhere' (.of_not hidle hparent hrefused hsize),
      h.lookup_eq_link hhere hhere' hlookup]
    exact if_neg hstop
  | case11 here segment rest entries hhere hidle hparent hrefused hsize target hlookup hstop links
      ih =>
    obtain ⟨entries', hhere'⟩ := h.exists_directory hhere
    rw [walk_of_takes hhere' (.of_not hidle hparent hrefused hsize),
      h.lookup_eq_link hhere hhere' hlookup]
    exact (if_neg hstop).trans ih
  | case12 links here segment rest entries hhere hidle hparent hrefused hsize child hlink hlookup
      hstop =>
    obtain ⟨entries', hhere'⟩ := h.exists_directory hhere
    obtain ⟨child', hlookup', hmark⟩ := h.exists_lookup hhere hhere' hlookup
    rw [walk_of_takes hhere' (.of_not hidle hparent hrefused hsize), hlookup']
    cases child' with
    | link target => exact absurd (FileNode.mark_eq_link_iff.mp hmark.symm) (hlink target)
    | file => exact if_pos hstop
    | directory => exact if_pos hstop
  | case13 links here segment rest entries hhere hidle hparent hrefused hsize child hlink hlookup
      hstop ih =>
    obtain ⟨entries', hhere'⟩ := h.exists_directory hhere
    obtain ⟨child', hlookup', hmark⟩ := h.exists_lookup hhere hhere' hlookup
    rw [walk_of_takes hhere' (.of_not hidle hparent hrefused hsize), hlookup']
    cases child' with
    | link target => exact absurd (FileNode.mark_eq_link_iff.mp hmark.symm) (hlink target)
    | file => exact (if_neg hstop).trans ih
    | directory => exact (if_neg hstop).trans ih
  | case14 links here segment rest node hdirectory hhere =>
    obtain ⟨node', hhere', hmark⟩ := h.exists_at? hhere
    rw [walk, hhere']
    cases node' with
    | directory entries =>
      obtain ⟨entries', rfl⟩ := FileNode.mark_eq_directory_iff.mp hmark.symm
      exact absurd rfl (hdirectory entries')
    | file => rfl
    | link => rfl

end ScriptBundle
