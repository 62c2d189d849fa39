import ScriptBundle.Proofs.FileTree.Writing
import ScriptBundle.Proofs.Source.Discovery

/-!
# Admitted Files

Which files are discovered is told by the names on the way to them alone. So a file that is written
somewhere else changes nothing about what is discovered.

## Main definitions

* `SourceRule.Admits`: whether a rule lets the names on the way to a file pass;
* `FileTree.ListsNew`: whether directories that have come up can be listed.

## Main statements

* `SourceRule.mem_found_iff`: the files that are found are those that a rule admits;
* `FileTree.mem_discovered_iff`: so are the files that are discovered;
* `FileTree.Kept.listable_iff`: no other directories can stand in the way of a new listing;
* `FileTree.Kept.filesBelow`: where a file is written that is not discovered, the same files are.
-/

namespace ScriptBundle

namespace SourceRule

/-- Whether a rule **admits** a file, by the names on the way to it: none of them is hidden, no
directory is excluded, and the file has the name of a module. -/
structure Admits (rule : SourceRule) (below : Location) : Prop where
  visible : ∀ name ∈ below, isHidden name = false
  included : ∀ name ∈ below.dropLast, name ∉ rule.exclude
  isModule : ∃ name, below.getLast? = some name ∧ rule.isModuleName name = true

variable {rule : SourceRule} {name next : Text} {below : Location}

/-- No rule admits the directory itself. -/
theorem not_admits_nil : ¬rule.Admits [] := by
  rintro ⟨-, -, name, hname, -⟩
  simp at hname

/-- A rule admits a file in the directory by its name. -/
theorem admits_singleton :
    rule.Admits [name] ↔ isHidden name = false ∧ rule.isModuleName name = true := by
  constructor
  · rintro ⟨hvisible, -, last, hlast, hmodule⟩
    obtain rfl : name = last := by simpa using hlast
    exact ⟨hvisible name (by simp), hmodule⟩
  · rintro ⟨hvisible, hmodule⟩
    exact ⟨by simpa using hvisible, by simp, name, rfl, hmodule⟩

/-- A rule admits a file further below if it lets the first directory pass. -/
theorem admits_cons_cons : rule.Admits (name :: next :: below) ↔
    isHidden name = false ∧ name ∉ rule.exclude ∧ rule.Admits (next :: below) := by
  constructor
  · rintro ⟨hvisible, hincluded, last, hlast, hmodule⟩
    exact ⟨hvisible name (by simp), hincluded name (by simp),
      fun other hother => hvisible other (List.mem_cons_of_mem _ hother),
      fun other hother => hincluded other (List.mem_cons_of_mem _ hother),
      last, by simpa using hlast, hmodule⟩
  · rintro ⟨hname, hexclude, hvisible, hincluded, last, hlast, hmodule⟩
    refine ⟨List.forall_mem_cons.mpr ⟨hname, hvisible⟩, ?_, last, by simpa using hlast, hmodule⟩
    rw [List.dropLast_cons_of_ne_nil (List.cons_ne_nil _ _)]
    exact List.forall_mem_cons.mpr ⟨hexclude, hincluded⟩

/-! ### What is found -/

/-- What is found in a directory is found at the entry that the way to it starts with. -/
theorem cons_mem_flatMap_foundAt {entries : List (Text × FileNode)}
    (h : (entries.map Prod.fst).Nodup) : name :: below ∈ entries.flatMap rule.foundAt ↔
      ∃ node, entries.lookup name = some node ∧ name :: below ∈ rule.foundAt (name, node) := by
  rw [List.mem_flatMap]
  constructor
  · rintro ⟨⟨other, node⟩, hentry, hmem⟩
    obtain ⟨rest, -, heq⟩ := mem_foundAt hmem
    obtain ⟨rfl, -⟩ := List.cons.inj heq
    exact ⟨node, (FileNode.lookup_eq_some_iff_mem h).mpr hentry, hmem⟩
  · rintro ⟨node, hlookup, hmem⟩
    exact ⟨(name, node), FileNode.mem_of_lookup hlookup, hmem⟩

/-- The directory itself is not found. -/
theorem nil_not_mem_flatMap_foundAt {entries : List (Text × FileNode)} :
    [] ∉ entries.flatMap rule.foundAt := by
  intro hmem
  obtain ⟨entry, -, hlisted⟩ := List.mem_flatMap.mp hmem
  obtain ⟨rest, -, heq⟩ := mem_foundAt hlisted
  simp at heq

/-- What is found at an entry that is not hidden is what is found below it. -/
theorem cons_mem_foundAt {node : FileNode} : name :: below ∈ rule.foundAt (name, node) ↔
    isHidden name = false ∧ below ∈ rule.foundBelow name node := by
  cases hhidden : isHidden name <;> simp [foundAt, hhidden]

/-- What is found at an entry are the files that the rule admits. -/
theorem mem_foundAt_iff {node : FileNode} (h : node.WellFormed) :
    name :: below ∈ rule.foundAt (name, node) ↔
      (∃ content, node.at? below = some (.file content)) ∧ rule.Admits (name :: below) := by
  induction h generalizing name below with
  | file content =>
    rw [cons_mem_foundAt, foundBelow]
    cases below with
    | nil =>
      rw [admits_singleton]
      simp
    | cons next rest =>
      split <;> simp [FileNode.at?, FileNode.child?]
  | link target =>
    rw [cons_mem_foundAt, foundBelow]
    cases below <;> simp [FileNode.at?, FileNode.child?]
  | @directory entries names distinct wellFormed ih =>
    rw [cons_mem_foundAt, foundBelow, found_eq_flatMap]
    cases below with
    | nil =>
      have hnil : [] ∉ entries.flatMap rule.foundAt := nil_not_mem_flatMap_foundAt
      split <;> simp [hnil]
    | cons next rest =>
      have hat : (FileNode.directory entries).at? (next :: rest) =
          (entries.lookup next).bind (FileNode.at? rest) := rfl
      rw [admits_cons_cons, hat]
      by_cases hexclude : name ∈ rule.exclude
      · simp [hexclude]
      · rw [if_neg (by simpa using hexclude), cons_mem_flatMap_foundAt distinct]
        cases hlookup : entries.lookup next with
        | none => simp
        | some child =>
          have hchild : next :: rest ∈ rule.foundAt (next, child) ↔
              (∃ content, child.at? rest = some (.file content)) ∧ rule.Admits (next :: rest) :=
            ih (next, child) (FileNode.mem_of_lookup hlookup)
          simp only [Option.some.injEq, exists_eq_left', hchild, Option.bind_some, hexclude,
            not_false_iff, true_and]
          exact and_left_comm

/-- What is found in a directory are the files that the rule admits. -/
theorem mem_found_iff {entries : List (Text × FileNode)}
    (h : (FileNode.directory entries).WellFormed) : below ∈ rule.found entries ↔
      (∃ content, (FileNode.directory entries).at? below = some (.file content)) ∧
        rule.Admits below := by
  rw [found_eq_flatMap]
  cases below with
  | nil =>
    simp only [nil_not_mem_flatMap_foundAt, not_admits_nil, and_false]
  | cons name rest =>
    have hat : (FileNode.directory entries).at? (name :: rest) =
        (entries.lookup name).bind (FileNode.at? rest) := rfl
    cases h with
    | directory names distinct wellFormed =>
      rw [cons_mem_flatMap_foundAt distinct, hat]
      cases hlookup : entries.lookup name with
      | none => simp
      | some child =>
        have hchild := wellFormed _ (FileNode.mem_of_lookup hlookup)
        simp [mem_foundAt_iff hchild]

end SourceRule

namespace FileTree

variable {t t' : FileTree} {rule : SourceRule} {source written : Location}

/-- The modules below a directory of a tree are the files that the rule admits. -/
theorem mem_found_entriesAt (ht : t.root.WellFormed) {below : Location} :
    below ∈ rule.found (t.entriesAt source) ↔
      (∃ content, t.root.at? (source ++ below) = some (.file content)) ∧ rule.Admits below := by
  rw [SourceRule.mem_found_iff (wellFormed_entriesAt ht source)]
  refine and_congr_left fun hadmits => exists_congr fun content => ?_
  cases below with
  | nil => exact absurd hadmits SourceRule.not_admits_nil
  | cons name rest =>
    rw [FileNode.at?_append, entriesAt]
    split
    · next entries hat => rw [hat, Option.bind_some]
    · next hat =>
      cases hnode : t.root.at? source with
      | none => simp [FileNode.at?, FileNode.child?]
      | some node =>
        cases node with
        | directory entries => exact absurd hnode (hat entries)
        | file => simp [FileNode.at?, FileNode.child?]
        | link => simp [FileNode.at?, FileNode.child?]

/-- The files that are **discovered** are those below the source root that the rule admits. -/
theorem mem_discovered_iff (ht : t.root.WellFormed)
    (hwritten : (t.root.at? written).isSome) :
    Path.ofNames written ∈ t.discovered rule source ↔
      (∃ content, t.root.at? written = some (.file content)) ∧
        ∃ below, written = source ++ below ∧ rule.Admits below := by
  rw [discovered, List.mem_map]
  constructor
  · rintro ⟨below, hbelow, heq⟩
    obtain ⟨⟨content, hcontent⟩, hadmits⟩ :=
      (mem_found_entriesAt ht).mp (SourceRule.mem_inOrder.mp hbelow)
    have hnames := ht.isName_of_at? (Option.isSome_of_eq_some hcontent)
    have hsame : (Path.ofNames (source ++ below)).same (Path.ofNames written) := by
      rw [heq, Path.same_self]
    obtain rfl := (Path.same_ofNames_iff hnames (ht.isName_of_at? hwritten)).mp hsame
    exact ⟨⟨content, hcontent⟩, below, rfl, hadmits⟩
  · rintro ⟨⟨content, hcontent⟩, below, rfl, hadmits⟩
    have hfound := (mem_found_entriesAt ht).mpr ⟨⟨content, hcontent⟩, hadmits⟩
    exact ⟨below, SourceRule.mem_inOrder.mpr hfound, rfl⟩

/-- Trees with the same files that a rule admits have the same modules, in the same order. -/
theorem discovered_congr (ht : t.root.WellFormed) (ht' : t'.root.WellFormed)
    (h : ∀ below, rule.Admits below →
      ((∃ content, t'.root.at? (source ++ below) = some (.file content)) ↔
        ∃ content, t.root.at? (source ++ below) = some (.file content))) :
    t'.discovered rule source = t.discovered rule source := by
  have hnodup : ∀ {t : FileTree}, t.root.WellFormed → (rule.found (t.entriesAt source)).Nodup :=
    fun ht => (SourceRule.found_of_wellFormed (wellFormed_entriesAt ht source)).1
  have hfound : (rule.found (t'.entriesAt source)).Perm (rule.found (t.entriesAt source)) := by
    refine (List.perm_ext_iff_of_nodup (hnodup ht') (hnodup ht)).mpr fun below => ?_
    rw [mem_found_entriesAt ht, mem_found_entriesAt ht']
    exact and_congr_left (h below)
  have hperm : (SourceRule.inOrder (rule.found (t'.entriesAt source))).Perm
      (SourceRule.inOrder (rule.found (t.entriesAt source))) :=
    (List.mergeSort_perm _ _).trans (hfound.trans (List.mergeSort_perm _ _).symm)
  have hsorted : SourceRule.inOrder (rule.found (t'.entriesAt source)) =
      SourceRule.inOrder (rule.found (t.entriesAt source)) :=
    hperm.eq_of_pairwise
      (fun a b _ _ => dictionaryOrder_antisymm fun _ _ =>
        dictionaryOrder_antisymm charOrder_antisymm)
      (SourceRule.pairwise_inOrder _) (SourceRule.pairwise_inOrder _)
  rw [discovered, discovered, hsorted]

/-- Where a file is written that is not discovered, the same files are discovered. -/
theorem Kept.discovered_eq (h : Kept written t t') (ht : t.root.WellFormed)
    (ht' : t'.root.WellFormed)
    (hwritten : ¬∃ below, written = source ++ below ∧ rule.Admits below) :
    t'.discovered rule source = t.discovered rule source := by
  refine discovered_congr ht ht' fun below hadmits => ⟨?_, ?_⟩
  · rintro ⟨content, hcontent⟩
    exact ⟨content, h.root.files _ _ hcontent fun heq => hwritten ⟨below, heq.symm, hadmits⟩⟩
  · rintro ⟨content, hcontent⟩
    obtain ⟨found, hfound, hlasts⟩ := h.root.lasts _ _ hcontent
    cases hlasts with
    | file => exact ⟨_, hfound⟩

/-! ### Listing again -/

/-- Whether discovery can list the directories below a source root that are **new** in a tree. -/
def ListsNew (t t' : FileTree) (rule : SourceRule) (source : Location) : Prop :=
  ∀ below entries, t'.root.at? (source ++ below) = some (.directory entries) →
    t.root.at? (source ++ below) = none → rule.Enters below →
      t'.checkListing (source ++ below) = .ok ()

/-- Whether a directory can be listed does not change. -/
theorem Kept.checkListing_eq (h : Kept written t t') (location : Location) :
    t'.checkListing location = t.checkListing location := by
  rw [checkListing, checkListing, h.unlistable]

/-- All directories that discovery enters can be listed again if that is so of the new ones. -/
theorem Kept.listable_iff (h : Kept written t t') (hlistable : t.Listable rule source) :
    t'.Listable rule source ↔ t.ListsNew t' rule source := by
  refine ⟨fun hlistable' below entries hat _ => hlistable' below entries hat, ?_⟩
  intro hnew below entries hat henters
  cases hold : t.root.at? (source ++ below) with
  | none => exact hnew below entries hat hold henters
  | some node =>
    obtain ⟨node', hat', hlasts⟩ := h.root.lasts _ _ hold
    obtain rfl : node' = .directory entries := by simpa [hat] using hat'.symm
    cases hlasts with
    | directory old => rw [h.checkListing_eq, hlistable below old hold henters]

/-- Where a file is written that is not discovered, discovery gives the same files, provided that it
can list all directories. -/
theorem Kept.filesBelow (h : Kept written t t') (ht : t.root.WellFormed) (ht' : t'.root.WellFormed)
    (hwritten : ¬∃ below, written = source ++ below ∧ rule.Admits below)
    {entries : List (Text × FileNode)} (hsource : t'.root.at? source = some (.directory entries))
    (hlistable : t'.Listable rule source) {files : List Path}
    (hfiles : t.filesBelow rule source = .ok files) : t'.filesBelow rule source = .ok files := by
  rw [filesBelow_eq_ok_iff ht' hsource, h.discovered_eq ht ht' hwritten]
  exact ⟨hlistable, eq_discovered_of_filesBelow hfiles⟩

end FileTree

end ScriptBundle
