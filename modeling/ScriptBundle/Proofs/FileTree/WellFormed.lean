import ScriptBundle.FileTree.Walk

/-!
# Well-Formed Trees

In a directory each entry has a name of its own, and a name is no step like `..` and holds no slash.
A place of such a tree is told by its absolute path, and walks end at places.

## Main definitions

* `Path.IsDirect`: whether a path is made from the names on the way to a place;
* `FileNode.WellFormed`: whether the directories of a tree name their entries properly.

## Main statements

* `FileNode.WellFormed.isName_of_at?`: the way to a node leads through names;
* `FileTree.isSome_at?_of_canonicalLocation`: a path without links leads to a node;
* `Path.IsDirect.eq_of_same`: direct paths with the same components are the same.
-/

namespace ScriptBundle

/-! ### Names -/

/-- Paths made from names have the same components if they have the same names. -/
theorem Path.same_ofNames_iff {names others : List Text} (h : ∀ name ∈ names, IsName name)
    (h' : ∀ name ∈ others, IsName name) :
    (ofNames names).same (ofNames others) ↔ names = others := by
  rw [same, components_ofNames h, components_ofNames h', beq_iff_eq, List.cons.injEq]
  have hinj : Function.Injective Component.normal := fun _ _ heq => Component.normal.inj heq
  rw [List.map_inj_right fun _ _ heq => hinj heq]
  simp

/-- A path has its own components. -/
@[simp] theorem Path.same_self (p : Path) : p.same p = true := by
  simp [same]

/-- Whether a path is **direct**: made from the names on the way to a place. -/
def Path.IsDirect (p : Path) : Prop := ∃ names, p = ofNames names ∧ ∀ name ∈ names, IsName name

/-- Direct paths with the same components are the same. -/
theorem Path.IsDirect.eq_of_same {p q : Path} (hp : p.IsDirect) (hq : q.IsDirect)
    (hsame : p.same q) : p = q := by
  obtain ⟨names, rfl, hnames⟩ := hp
  obtain ⟨others, rfl, hothers⟩ := hq
  rw [(same_ofNames_iff hnames hothers).mp hsame]

/-! ### Trees -/

/-- A tree is **well-formed** if in its directories each entry has a name of its own. -/
inductive FileNode.WellFormed : FileNode → Prop where
  | file (content : ByteArray) : WellFormed (.file content)
  | link (target : Text) : WellFormed (.link target)
  | directory {entries : List (Text × FileNode)} (names : ∀ entry ∈ entries, Path.IsName entry.1)
      (distinct : (entries.map Prod.fst).Nodup) (below : ∀ entry ∈ entries, WellFormed entry.2) :
      WellFormed (.directory entries)

namespace FileNode

/-- What a directory has under a name is one of its entries. -/
theorem mem_of_lookup {entries : List (Text × FileNode)} {name : Text} {node : FileNode}
    (h : entries.lookup name = some node) : (name, node) ∈ entries := by
  obtain ⟨front, behind, rfl, -⟩ := List.lookup_eq_some_iff.mp h
  simp

/-- In a directory whose entries have names of their own, an entry stands under its name. -/
theorem lookup_eq_some_iff_mem {entries : List (Text × FileNode)} {name : Text} {node : FileNode}
    (h : (entries.map Prod.fst).Nodup) :
    entries.lookup name = some node ↔ (name, node) ∈ entries := by
  refine ⟨mem_of_lookup, fun hmem => ?_⟩
  obtain ⟨front, behind, rfl⟩ := List.append_of_mem hmem
  refine List.lookup_eq_some_iff.mpr ⟨front, behind, rfl, fun entry hentry => ?_⟩
  rw [List.map_append, List.nodup_append] at h
  exact bne_iff_ne.mpr (Ne.symm (h.2.2 entry.1 (List.mem_map_of_mem hentry) name (by simp)))

/-- An entry has a name, and the tree below it is well-formed as well. -/
theorem WellFormed.child {node child : FileNode} {name : Text} (h : node.WellFormed)
    (hchild : node.child? name = some child) : Path.IsName name ∧ child.WellFormed := by
  cases h with
  | file => simp [child?] at hchild
  | link => simp [child?] at hchild
  | directory names distinct below =>
    have hmem := mem_of_lookup hchild
    exact ⟨names _ hmem, below _ hmem⟩

/-- The way to a node leads through names. -/
theorem WellFormed.isName_of_at? {node : FileNode} {location : Location} (h : node.WellFormed)
    (hat : (node.at? location).isSome) : ∀ name ∈ location, Path.IsName name := by
  induction location generalizing node with
  | nil => simp
  | cons first rest ih =>
    simp only [at?] at hat
    cases hchild : node.child? first with
    | none => simp [hchild] at hat
    | some child =>
      obtain ⟨hfirst, hbelow⟩ := h.child hchild
      intro name hname
      rcases List.mem_cons.mp hname with rfl | hname
      · exact hfirst
      · exact ih hbelow (by simpa [hchild] using hat) name hname

/-- The tree at a place is well-formed as well. -/
theorem WellFormed.of_at? {node found : FileNode} {location : Location} (h : node.WellFormed)
    (hat : node.at? location = some found) : found.WellFormed := by
  induction location generalizing node with
  | nil =>
    obtain rfl : node = found := by simpa using hat
    exact h
  | cons first rest ih =>
    obtain ⟨child, hchild, hrest⟩ := Option.bind_eq_some_iff.mp hat
    exact ih (h.child hchild).2 hrest

/-- There is a node on the way to each node. -/
theorem isSome_at?_of_append {node : FileNode} {front rest : Location}
    (h : (node.at? (front ++ rest)).isSome) : (node.at? front).isSome := by
  rw [at?_append] at h
  cases hfront : node.at? front with
  | none => simp [hfront] at h
  | some found => rfl

/-- There is a directory around each node. -/
theorem isSome_at?_dropLast {node : FileNode} {location : Location}
    (h : (node.at? location).isSome) : (node.at? location.dropLast).isSome := by
  rcases List.eq_nil_or_concat location with rfl | ⟨front, last, rfl⟩
  · exact h
  · rw [List.concat_eq_append, List.dropLast_concat] at *
    exact isSome_at?_of_append h

/-- An entry of a directory stands one step below it. -/
theorem at?_concat {node child : FileNode} {front : Location} {name : Text}
    {entries : List (Text × FileNode)} (h : node.at? front = some (.directory entries))
    (hchild : entries.lookup name = some child) : node.at? (front ++ [name]) = some child := by
  simp [at?_append, h, at?, child?, hchild]

end FileNode

/-! ### Walks -/

/-- A walk that comes to its end has come to a node. -/
theorem isSome_at?_of_walk {root : FileNode} {ending : PathEnd} {links : Nat}
    {here location : Location} {segments : List Text}
    (h : walk root ending links here segments = .ok (.present location))
    (hstart : segments = [] → (root.at? here).isSome) : (root.at? location).isSome := by
  fun_induction walk root ending links here segments with
  | case1 links here =>
    obtain rfl : here = location := by simpa using h
    exact hstart rfl
  | case2 => simp at h
  | case3 links here segment rest entries hhere hidle ih =>
    exact ih h fun _ => by simp [hhere]
  | case4 links here rest entries hhere hidle ih =>
    exact ih h fun _ => FileNode.isSome_at?_dropLast (by simp [hhere])
  | case5 => simp at h
  | case6 => simp at h
  | case7 => simp at h
  | case8 => simp at h
  | case9 links here segment rest entries hhere hidle hparent hkept hsize target hlookup hstop =>
    obtain rfl : here ++ [segment] = location := by simpa using h
    simp [FileNode.at?_concat hhere hlookup]
  | case10 => simp at h
  | case11 here segment rest entries hhere hidle hparent hkept hsize target hlookup hstop links
      ih =>
    refine ih h fun hnil => ?_
    split
    · simp
    · simp [hhere]
  | case12 links here segment rest entries hhere hidle hparent hkept hsize child hlink hlookup
      hstop =>
    obtain rfl : here ++ [segment] = location := by simpa using h
    simp [FileNode.at?_concat hhere hlookup]
  | case13 links here segment rest entries hhere hidle hparent hkept hsize child hlink hlookup
      hstop ih =>
    exact ih h fun _ => by simp [FileNode.at?_concat hhere hlookup]
  | case14 => simp at h

/-- A text has at least one segment. -/
theorem splitSlashes_ne_nil (s : Text) : splitSlashes s ≠ [] := by
  cases s with
  | nil => simp [splitSlashes]
  | cons c rest =>
    rw [splitSlashes]
    split
    · simp
    · split <;> simp

namespace FileTree

variable {t : FileTree} {ending : PathEnd} {p : Path} {location : Location}

/-- Where a path leads to there is a node. -/
theorem isSome_at?_of_locateBy (h : t.locateBy ending p = .ok location) :
    (t.root.at? location).isSome := by
  rw [locateBy] at h
  split at h
  · next found hplace =>
    obtain rfl : found = location := by simpa using h
    rw [place] at hplace
    split at hplace
    · simp at hplace
    · split at hplace
      · simp at hplace
      · split at hplace
        · simp at hplace
        · exact isSome_at?_of_walk hplace fun hnil => absurd hnil (splitSlashes_ne_nil _)
  · simp at h
  · simp at h

/-- A path without links leads to a node. -/
theorem isSome_at?_of_canonicalLocation (h : t.canonicalLocation p = .ok location) :
    (t.root.at? location).isSome :=
  isSome_at?_of_locateBy h

/-- A path without links is direct. -/
theorem isDirect_of_canonical (ht : t.root.WellFormed) {found : Path}
    (h : t.canonical p = .ok found) : found.IsDirect := by
  rw [canonical] at h
  cases hlocation : t.canonicalLocation p with
  | error e => simp [hlocation, Except.map] at h
  | ok location =>
    rw [hlocation] at h
    refine ⟨location, (Except.ok.inj h).symm, ?_⟩
    exact ht.isName_of_at? (isSome_at?_of_canonicalLocation hlocation)

end FileTree

end ScriptBundle
