import Mathlib.Data.List.Nodup
import ScriptBundle.Proofs.FileTree.WellFormed
import ScriptBundle.Proofs.Report
import ScriptBundle.Source.Discovery

/-!
# Discovered Files

Discovery lists the directories that it enters, and ends at the first one that cannot be listed. If
all of them can be, then it gives the modules, which are told by the tree alone. In a well-formed
tree no file is discovered twice, and the paths of the files tell them apart, since they are made
from names.

## Main definitions

* `SourceRule.found`: the modules among the entries of a directory and below them, if all
  directories can be listed;
* `SourceRule.entered`: the directories below a directory that discovery lists, in order;
* `SourceRule.Enters`: whether discovery enters a directory, by the names on the way to it;
* `FileTree.discovered`: the modules below a source root, if all directories can be listed;
* `FileTree.Listable`: whether they can be.

## Main statements

* `SourceRule.listed_eq`: discovery checks the directories that it enters, and gives what it has
  found;
* `SourceRule.mem_entered_iff`: which directories it enters;
* `FileTree.filesBelow_eq_ok_iff`, `FileTree.exists_of_filesBelow_eq_error`: how discovery ends;
* `SourceRule.found_of_wellFormed`: no location is found twice, and all lead through names;
* `FileTree.nodup_discovered`: no path is discovered twice;
* `FileTree.isDirect_of_mem_discovered`: the paths are made from names.
-/

namespace ScriptBundle

namespace SourceRule

/-! ### What discovery does -/

mutual

/-- The modules that are **found** among the entries of a directory, as locations below the
directory. -/
def found (rule : SourceRule) : List (Text × FileNode) → List Location
  | [] => []
  | entry :: rest => foundAt rule entry ++ found rule rest

/-- The modules that are found at or below one entry. -/
def foundAt (rule : SourceRule) : Text × FileNode → List Location
  | (name, node) => if isHidden name then [] else (foundBelow rule name node).map (name :: ·)

/-- The modules that are found at or below a node with the given name, as locations below the
node. -/
def foundBelow (rule : SourceRule) (name : Text) : FileNode → List Location
  | .file _ => if rule.isModuleName name then [[]] else []
  | .link _ => []
  | .directory entries => if rule.exclude.contains name then [] else found rule entries

end

mutual

/-- The directories below the directory `here` that are **entered**, in the order of the listing. -/
def entered (rule : SourceRule) (here : Location) : List (Text × FileNode) → List Location
  | [] => []
  | entry :: rest => enteredAt rule here entry ++ entered rule here rest

/-- The directories that are entered at or below one entry of the directory `here`. -/
def enteredAt (rule : SourceRule) (here : Location) : Text × FileNode → List Location
  | (name, node) => if isHidden name then [] else enteredBelow rule here name node

/-- The directories that are entered at or below a node with the given name in the directory
`here`. -/
def enteredBelow (rule : SourceRule) (here : Location) (name : Text) : FileNode → List Location
  | .file _ => []
  | .link _ => []
  | .directory entries =>
    if rule.exclude.contains name then []
    else (here ++ [name]) :: entered rule (here ++ [name]) entries

end

mutual

/-- Discovery checks the directories that it enters in order, and gives what it has found. -/
theorem listed_eq (rule : SourceRule) (t : FileTree) (here : Location) :
    ∀ entries, rule.listed t here entries =
      ((rule.entered here entries).forM t.checkListing).map fun _ => rule.found entries
  | [] => rfl
  | entry :: rest => by
    rw [listed, listedAt_eq rule t here entry, listed_eq rule t here rest, entered, found]
    simp only [List.forM_eq_forM, List.forM_append]
    cases forM (rule.enteredAt here entry) t.checkListing with
    | error fault => rfl
    | ok =>
      cases forM (rule.entered here rest) t.checkListing <;> rfl

/-- The same at one entry. -/
theorem listedAt_eq (rule : SourceRule) (t : FileTree) (here : Location) :
    ∀ entry, rule.listedAt t here entry =
      ((rule.enteredAt here entry).forM t.checkListing).map fun _ => rule.foundAt entry
  | (name, node) => by
    rw [listedAt, listedBelow_eq rule t here name node, enteredAt, foundAt]
    split
    · rfl
    · cases (rule.enteredBelow here name node).forM t.checkListing <;> rfl

/-- The same at a node. -/
theorem listedBelow_eq (rule : SourceRule) (t : FileTree) (here : Location) (name : Text) :
    ∀ node, rule.listedBelow t here name node =
      ((rule.enteredBelow here name node).forM t.checkListing).map fun _ =>
        rule.foundBelow name node
  | .file content => by rw [listedBelow, enteredBelow, foundBelow]; rfl
  | .link target => by rw [listedBelow, enteredBelow, foundBelow]; rfl
  | .directory entries => by
    rw [listedBelow, listed_eq rule t (here ++ [name]) entries, enteredBelow, foundBelow]
    split
    · rfl
    · rw [List.forM_eq_forM, List.forM_cons]
      cases t.checkListing (here ++ [name]) <;> rfl

end

/-! ### What is found -/

variable {rule : SourceRule}

/-- A listing is made of what is found at each entry. -/
theorem found_eq_flatMap (entries : List (Text × FileNode)) :
    rule.found entries = entries.flatMap rule.foundAt := by
  induction entries with
  | nil => simp [found]
  | cons entry rest ih => simp [found, ih]

/-- What is found at an entry starts with its name. -/
theorem mem_foundAt {entry : Text × FileNode} {location : Location}
    (h : location ∈ rule.foundAt entry) :
    ∃ rest ∈ rule.foundBelow entry.1 entry.2, location = entry.1 :: rest := by
  obtain ⟨name, node⟩ := entry
  rw [foundAt] at h
  split at h
  · simp at h
  · obtain ⟨rest, hrest, rfl⟩ := List.mem_map.mp h
    exact ⟨rest, hrest, rfl⟩

/-- At an entry no location is found twice if none is below it. -/
theorem nodup_foundAt {entry : Text × FileNode} (h : (rule.foundBelow entry.1 entry.2).Nodup) :
    (rule.foundAt entry).Nodup := by
  obtain ⟨name, node⟩ := entry
  rw [foundAt]
  split
  · exact List.nodup_nil
  · exact List.Pairwise.map _ (fun _ _ hne heq => hne (List.cons.inj heq).2) h

/-- Entries with different names list different locations. -/
theorem disjoint_foundAt {entry other : Text × FileNode} (h : entry.1 ≠ other.1) :
    List.Disjoint (rule.foundAt entry) (rule.foundAt other) := by
  intro location hentry hother
  obtain ⟨rest, -, rfl⟩ := mem_foundAt hentry
  obtain ⟨rest', -, heq⟩ := mem_foundAt hother
  exact h (List.cons.inj heq).1

/-- No location is found twice at entries that have names of their own. -/
theorem nodup_flatMap_foundAt {entries : List (Text × FileNode)}
    (hdistinct : (entries.map Prod.fst).Nodup)
    (hbelow : ∀ entry ∈ entries, (rule.foundBelow entry.1 entry.2).Nodup) :
    (entries.flatMap rule.foundAt).Nodup := by
  refine List.nodup_flatMap.mpr ⟨fun entry hentry => nodup_foundAt (hbelow entry hentry), ?_⟩
  have hpairs : entries.Pairwise fun a b => a.1 ≠ b.1 := List.pairwise_map.mp hdistinct
  exact hpairs.imp fun hne => disjoint_foundAt hne

/-- What is found at entries leads through names if that is so of what is below them. -/
theorem isName_of_mem_flatMap {entries : List (Text × FileNode)}
    (hnames : ∀ entry ∈ entries, Path.IsName entry.1)
    (hbelow : ∀ entry ∈ entries, ∀ location ∈ rule.foundBelow entry.1 entry.2,
      ∀ step ∈ location, Path.IsName step) :
    ∀ location ∈ entries.flatMap rule.foundAt, ∀ step ∈ location, Path.IsName step := by
  intro location hmem step hstep
  obtain ⟨entry, hentry, hlisted⟩ := List.mem_flatMap.mp hmem
  obtain ⟨rest, hrest, rfl⟩ := mem_foundAt hlisted
  rcases List.mem_cons.mp hstep with rfl | hstep
  · exact hnames entry hentry
  · exact hbelow entry hentry rest hrest step hstep

/-- Below a node of a well-formed tree no location is found twice, and locations lead through
names. -/
theorem foundBelow_of_wellFormed {node : FileNode} (h : node.WellFormed) (name : Text) :
    (rule.foundBelow name node).Nodup ∧
      ∀ location ∈ rule.foundBelow name node, ∀ step ∈ location, Path.IsName step := by
  induction h generalizing name with
  | file content =>
    rw [foundBelow]
    split <;> simp
  | link target => simp [foundBelow]
  | directory names distinct below ih =>
    rw [foundBelow]
    split
    · simp
    · rw [found_eq_flatMap]
      refine ⟨nodup_flatMap_foundAt distinct fun entry hentry => (ih entry hentry entry.1).1, ?_⟩
      exact isName_of_mem_flatMap names fun entry hentry => (ih entry hentry entry.1).2

/-- In a directory of a well-formed tree no location is found twice, and locations lead through
names. -/
theorem found_of_wellFormed {entries : List (Text × FileNode)}
    (h : (FileNode.directory entries).WellFormed) :
    (rule.found entries).Nodup ∧
      ∀ location ∈ rule.found entries, ∀ step ∈ location, Path.IsName step := by
  cases h with
  | directory names distinct below =>
    have hentries : ∀ entry ∈ entries, (rule.foundBelow entry.1 entry.2).Nodup ∧
        ∀ location ∈ rule.foundBelow entry.1 entry.2, ∀ step ∈ location, Path.IsName step :=
      fun entry hentry => foundBelow_of_wellFormed (below entry hentry) entry.1
    rw [found_eq_flatMap]
    refine ⟨nodup_flatMap_foundAt distinct fun entry hentry => (hentries entry hentry).1, ?_⟩
    exact isName_of_mem_flatMap names fun entry hentry => (hentries entry hentry).2

/-! ### What is entered -/

/-- Whether discovery **enters** a directory, by the names on the way to it: none of them is hidden
or excluded. -/
structure Enters (rule : SourceRule) (below : Location) : Prop where
  visible : ∀ name ∈ below, isHidden name = false
  included : ∀ name ∈ below, name ∉ rule.exclude

/-- Discovery enters the directory that it starts from. -/
theorem Enters.nil : rule.Enters [] := ⟨by simp, by simp⟩

/-- Discovery enters a directory further below if it enters the first one on the way. -/
theorem enters_cons {name : Text} {below : Location} : rule.Enters (name :: below) ↔
    isHidden name = false ∧ name ∉ rule.exclude ∧ rule.Enters below := by
  constructor
  · rintro ⟨hvisible, hincluded⟩
    obtain ⟨hname, hvisible⟩ := List.forall_mem_cons.mp hvisible
    obtain ⟨hexclude, hincluded⟩ := List.forall_mem_cons.mp hincluded
    exact ⟨hname, hexclude, hvisible, hincluded⟩
  · rintro ⟨hname, hexclude, hvisible, hincluded⟩
    exact ⟨List.forall_mem_cons.mpr ⟨hname, hvisible⟩,
      List.forall_mem_cons.mpr ⟨hexclude, hincluded⟩⟩

/-- The directories that are entered are those at each entry. -/
theorem mem_entered {here location : Location} {entries : List (Text × FileNode)} :
    location ∈ rule.entered here entries ↔
      ∃ entry ∈ entries, location ∈ rule.enteredAt here entry := by
  induction entries with
  | nil => simp [entered]
  | cons entry rest ih => simp [entered, ih]

/-- Whether the directories at or below an entry that are entered are told by the names on the way
to them. -/
def EntersByNames (rule : SourceRule) (entry : Text × FileNode) : Prop :=
  ∀ here location, location ∈ rule.enteredAt here entry ↔
    ∃ below entries, entry.2.at? below = some (.directory entries) ∧
      rule.Enters (entry.1 :: below) ∧ location = here ++ entry.1 :: below

/-- The directories below a directory that are entered are told by names if that is so at each
entry. -/
theorem mem_entered_iff_of_entries {entries : List (Text × FileNode)}
    (hdistinct : (entries.map Prod.fst).Nodup)
    (hentries : ∀ entry ∈ entries, rule.EntersByNames entry) {here location : Location} :
    location ∈ rule.entered here entries ↔
      ∃ below sub, below ≠ [] ∧ (FileNode.directory entries).at? below = some (.directory sub) ∧
        rule.Enters below ∧ location = here ++ below := by
  rw [mem_entered]
  constructor
  · rintro ⟨⟨name, child⟩, hentry, hmem⟩
    obtain ⟨below, sub, hsub, henters, rfl⟩ := (hentries _ hentry _ _).mp hmem
    refine ⟨name :: below, sub, by simp, ?_, henters, rfl⟩
    have hlookup := (FileNode.lookup_eq_some_iff_mem hdistinct).mpr hentry
    simp only [FileNode.at?, FileNode.child?, hlookup, Option.bind_some, hsub]
  · rintro ⟨below, sub, hne, hsub, henters, rfl⟩
    cases below with
    | nil => exact absurd rfl hne
    | cons name rest =>
      obtain ⟨child, hchild, hrest⟩ := Option.bind_eq_some_iff.mp hsub
      have hentry := FileNode.mem_of_lookup hchild
      exact ⟨_, hentry, (hentries _ hentry _ _).mpr ⟨rest, sub, hrest, henters, rfl⟩⟩

/-- A file or a link is no directory, and none is below it. -/
theorem entersByNames_of_leaf {node : FileNode} (name : Text) (hnode : node.isDirectory = false) :
    rule.EntersByNames (name, node) := by
  have hnone : ∀ below entries, node.at? below ≠ some (.directory entries) := by
    rintro (_ | ⟨next, rest⟩) entries hat
    · obtain rfl := Option.some.inj hat
      simp [FileNode.isDirectory] at hnode
    · cases node <;> simp [FileNode.at?, FileNode.child?, FileNode.isDirectory] at hat hnode
  intro here location
  cases node with
  | file => simp [enteredAt, enteredBelow, hnone]
  | link => simp [enteredAt, enteredBelow, hnone]
  | directory => simp [FileNode.isDirectory] at hnode

/-- The directories at or below an entry that are entered are told by the names on the way to
them. -/
theorem entersByNames {node : FileNode} (h : node.WellFormed) (name : Text) :
    rule.EntersByNames (name, node) := by
  induction h generalizing name with
  | file content => exact entersByNames_of_leaf name rfl
  | link target => exact entersByNames_of_leaf name rfl
  | @directory entries names distinct wellFormed ih =>
    intro here location
    by_cases hpasses : isHidden name = false ∧ name ∉ rule.exclude
    · obtain ⟨hhidden, hexclude⟩ := hpasses
      have hcontains : rule.exclude.contains name = false := by simpa using hexclude
      simp only [enteredAt, hhidden, enteredBelow, hcontains, Bool.false_eq_true, if_false,
        List.mem_cons,
        mem_entered_iff_of_entries distinct fun entry hentry => ih entry hentry entry.1]
      constructor
      · rintro (rfl | ⟨below, sub, -, hsub, henters, rfl⟩)
        · exact ⟨[], entries, rfl, enters_cons.mpr ⟨hhidden, hexclude, .nil⟩, rfl⟩
        · exact ⟨below, sub, hsub, enters_cons.mpr ⟨hhidden, hexclude, henters⟩, by simp⟩
      · rintro ⟨below, sub, hsub, henters, rfl⟩
        cases below with
        | nil => exact .inl rfl
        | cons next rest =>
          exact .inr ⟨next :: rest, sub, by simp, hsub, (enters_cons.mp henters).2.2, by simp⟩
    · have hnone : rule.enteredAt here (name, .directory entries) = [] := by
        rw [enteredAt, enteredBelow]
        split
        · rfl
        · next hhidden => rw [if_pos (by simpa [hhidden] using hpasses)]
      rw [hnone]
      refine iff_of_false List.not_mem_nil ?_
      rintro ⟨below, sub, -, henters, -⟩
      obtain ⟨hhidden, hexclude, -⟩ := enters_cons.mp henters
      exact hpasses ⟨hhidden, hexclude⟩

/-- The directories below a directory that are entered are told by the names on the way to them. -/
theorem mem_entered_iff {entries : List (Text × FileNode)}
    (h : (FileNode.directory entries).WellFormed) {here location : Location} :
    location ∈ rule.entered here entries ↔
      ∃ below sub, below ≠ [] ∧ (FileNode.directory entries).at? below = some (.directory sub) ∧
        rule.Enters below ∧ location = here ++ below := by
  cases h with
  | directory names distinct wellFormed =>
    exact mem_entered_iff_of_entries distinct fun entry hentry =>
      entersByNames (wellFormed entry hentry) entry.1

end SourceRule

namespace FileTree

variable {t : FileTree} {rule : SourceRule} {root : Location}

/-- The entries of a directory in a well-formed tree are those of a well-formed directory. -/
theorem wellFormed_entriesAt (ht : t.root.WellFormed) (root : Location) :
    (FileNode.directory (t.entriesAt root)).WellFormed := by
  rw [entriesAt]
  split
  · next entries hat => exact ht.of_at? hat
  · exact .directory (by simp) (by simp) (by simp)

/-- The modules below a source root, as absolute paths in order, if all directories can be
listed. -/
def discovered (t : FileTree) (rule : SourceRule) (root : Location) : List Path :=
  (SourceRule.inOrder (rule.found (t.entriesAt root))).map fun below => .ofNames (root ++ below)

/-- The paths of the discovered files are made from names. -/
theorem isDirect_of_mem_discovered (ht : t.root.WellFormed) (hroot : (t.root.at? root).isSome)
    {path : Path} (h : path ∈ t.discovered rule root) : path.IsDirect := by
  obtain ⟨location, hlocation, rfl⟩ := List.mem_map.mp h
  refine ⟨root ++ location, rfl, fun name hname => ?_⟩
  rcases List.mem_append.mp hname with hname | hname
  · exact ht.isName_of_at? hroot name hname
  · exact (SourceRule.found_of_wellFormed (wellFormed_entriesAt ht root)).2 location
      (SourceRule.mem_inOrder.mp hlocation) name hname

/-- No path is discovered twice. -/
theorem nodup_discovered (ht : t.root.WellFormed) (hroot : (t.root.at? root).isSome) :
    (t.discovered rule root).Nodup := by
  obtain ⟨hnodup, hnames⟩ : (rule.found (t.entriesAt root)).Nodup ∧
      ∀ location ∈ rule.found (t.entriesAt root), ∀ step ∈ location, Path.IsName step :=
    SourceRule.found_of_wellFormed (wellFormed_entriesAt ht root)
  refine List.Nodup.map_on ?_ ((List.mergeSort_perm _ _).nodup_iff.mpr hnodup)
  intro location hlocation other hother heq
  have hsteps : ∀ location ∈ SourceRule.inOrder (rule.found (t.entriesAt root)),
      ∀ name ∈ root ++ location, Path.IsName name := by
    intro location hlocation name hname
    rcases List.mem_append.mp hname with hname | hname
    · exact ht.isName_of_at? hroot name hname
    · exact hnames location (SourceRule.mem_inOrder.mp hlocation) name hname
  have hsame : (Path.ofNames (root ++ location)).same (.ofNames (root ++ other)) := by
    rw [heq, Path.same_self]
  exact List.append_cancel_left
    ((Path.same_ofNames_iff (hsteps _ hlocation) (hsteps _ hother)).mp hsame)

/-! ### Directories that cannot be listed -/

/-- Whether discovery can list a source root and **all directories that it enters** below it. -/
def Listable (t : FileTree) (rule : SourceRule) (root : Location) : Prop :=
  ∀ below entries, t.root.at? (root ++ below) = some (.directory entries) → rule.Enters below →
    t.checkListing (root ++ below) = .ok ()

/-- Discovery below a directory lists the directory itself, and those that it enters. -/
theorem modulesBelow_eq (t : FileTree) (rule : SourceRule) (root : Location) :
    t.modulesBelow rule root =
      ((root :: rule.entered root (t.entriesAt root)).forM t.checkListing).map fun _ =>
        rule.found (t.entriesAt root) := by
  rw [modulesBelow, SourceRule.listed_eq, List.forM_eq_forM, List.forM_cons]
  cases t.checkListing root <;> rfl

section Directories

variable (ht : t.root.WellFormed) {entries : List (Text × FileNode)}
  (hroot : t.root.at? root = some (.directory entries))
include ht hroot

/-- The directories that discovery lists are those that it enters. -/
theorem mem_root_cons_entered {location : Location} :
    location ∈ root :: rule.entered root (t.entriesAt root) ↔
      ∃ below entries, t.root.at? (root ++ below) = some (.directory entries) ∧
        rule.Enters below ∧ location = root ++ below := by
  have hentries : t.entriesAt root = entries := by rw [entriesAt, hroot]
  rw [List.mem_cons, hentries, SourceRule.mem_entered_iff (ht.of_at? hroot)]
  constructor
  · rintro (rfl | ⟨below, sub, -, hsub, henters, rfl⟩)
    · exact ⟨[], entries, by simpa using hroot, .nil, by simp⟩
    · refine ⟨below, sub, ?_, henters, rfl⟩
      rw [FileNode.at?_append, hroot]
      exact hsub
  · rintro ⟨below, sub, hsub, henters, rfl⟩
    cases below with
    | nil => exact .inl (List.append_nil _)
    | cons name rest =>
      rw [FileNode.at?_append, hroot] at hsub
      exact .inr ⟨name :: rest, sub, by simp, hsub, henters, rfl⟩

/-- **What discovery gives** below a directory: the modules, if all directories that it enters can
be listed. -/
theorem filesBelow_eq_ok_iff {files : List Path} :
    t.filesBelow rule root = .ok files ↔ t.Listable rule root ∧ files = t.discovered rule root := by
  have hlistable : (root :: rule.entered root (t.entriesAt root)).forM t.checkListing = .ok () ↔
      t.Listable rule root := by
    rw [forM_eq_ok_iff]
    constructor
    · intro h below sub hsub henters
      exact h _ ((mem_root_cons_entered ht hroot).mpr ⟨below, sub, hsub, henters, rfl⟩)
    · intro h location hlocation
      obtain ⟨below, sub, hsub, henters, rfl⟩ := (mem_root_cons_entered ht hroot).mp hlocation
      exact h below sub hsub henters
  rw [← hlistable, filesBelow, modulesBelow_eq]
  cases (root :: rule.entered root (t.entriesAt root)).forM t.checkListing with
  | error fault => simp [Except.map]
  | ok => simpa [Except.map, discovered] using eq_comm

end Directories

/-- What discovery gives are the discovered files. -/
theorem eq_discovered_of_filesBelow {files : List Path} (h : t.filesBelow rule root = .ok files) :
    files = t.discovered rule root := by
  rw [filesBelow, modulesBelow_eq] at h
  cases hcheck : (root :: rule.entered root (t.entriesAt root)).forM t.checkListing with
  | error fault => simp [hcheck, Except.map] at h
  | ok => simpa [hcheck, Except.map, discovered] using h.symm

end FileTree

end ScriptBundle
