import ScriptBundle.FileTree.Change
import ScriptBundle.Proofs.FileTree.WellFormed

/-!
# What Changes Keep

Putting a file or an empty directory to a vacant place, or a file in the place of a file, keeps
everything else in the tree: directories stay directories, links keep their targets, and files their
content.

## Main definitions

* `FileNode.Lasts`: whether a node stays what it is;
* `FileNode.Kept`: whether a tree holds what another one holds, apart from one file.

## Main statements

* `FileNode.kept_put_vacant`, `FileNode.kept_put_file`: what is kept if something is put;
* `FileNode.WellFormed.put`: well-formed trees stay well-formed;
* `FileNode.put_same`: putting what is there changes nothing.
-/

namespace ScriptBundle.FileNode

/-! ### Listings -/

/-- The entries of a listing in which a name was given a node. -/
theorem mem_setEntry {name : Text} {node : FileNode} {entries : List (Text × FileNode)}
    {entry : Text × FileNode} (h : entry ∈ setEntry name node entries) :
    entry = (name, node) ∨ entry ∈ entries := by
  induction entries with
  | nil => exact .inl (by simpa [setEntry] using h)
  | cons first rest ih =>
    obtain ⟨other, found⟩ := first
    rw [setEntry] at h
    split at h
    · next heq =>
      rcases List.mem_cons.mp h with rfl | h
      · exact .inl (by rw [heq])
      · exact .inr (List.mem_cons_of_mem _ h)
    · rcases List.mem_cons.mp h with rfl | h
      · exact .inr List.mem_cons_self
      · exact (ih h).imp_right (List.mem_cons_of_mem _)

/-- A name that is given a node stays where it stands, or comes last. -/
theorem map_fst_setEntry (name : Text) (node : FileNode) (entries : List (Text × FileNode)) :
    (setEntry name node entries).map Prod.fst =
      if name ∈ entries.map Prod.fst then entries.map Prod.fst
      else entries.map Prod.fst ++ [name] := by
  induction entries with
  | nil => rfl
  | cons first rest ih =>
    obtain ⟨other, found⟩ := first
    by_cases heq : other = name
    · simp [setEntry, heq]
    · simp only [setEntry, heq, if_false, List.map_cons, ih, List.mem_cons, Ne.symm heq, false_or]
      split <;> rfl

/-- A listing stays as it is if a name is given the node that it has. -/
theorem setEntry_same {name : Text} {node : FileNode} {entries : List (Text × FileNode)}
    (h : entries.lookup name = some node) : setEntry name node entries = entries := by
  induction entries with
  | nil => simp at h
  | cons first rest ih =>
    obtain ⟨other, found⟩ := first
    by_cases heq : other = name
    · obtain rfl : found = node := by simpa [List.lookup_cons, heq] using h
      rw [setEntry, if_pos heq]
    · have hne : (name == other) = false := by simpa using Ne.symm heq
      rw [setEntry, if_neg heq, ih (by simpa [List.lookup_cons, hne] using h)]

/-! ### Putting -/

/-- Putting what is there changes nothing. -/
theorem put_same {location : Location} {node found : FileNode}
    (h : node.at? location = some found) : put location found node = node := by
  induction location generalizing node with
  | nil =>
    obtain rfl : node = found := by simpa using h
    rfl
  | cons name rest ih =>
    cases node with
    | file => rfl
    | link => rfl
    | directory entries =>
      obtain ⟨child, hchild, hrest⟩ := Option.bind_eq_some_iff.mp h
      have hlookup : entries.lookup name = some child := hchild
      simp only [put, hlookup, ih hrest, setEntry_same hlookup]

/-- What is put in the place of something else stands there. -/
theorem at?_put_of_isSome {location : Location} {new node : FileNode}
    (h : (node.at? location).isSome) : at? location (put location new node) = some new := by
  induction location generalizing node with
  | nil => rfl
  | cons name rest ih =>
    obtain ⟨found, hfound⟩ := Option.isSome_iff_exists.mp h
    obtain ⟨child, hchild, hrest⟩ := Option.bind_eq_some_iff.mp hfound
    cases node with
    | file => simp [child?] at hchild
    | link => simp [child?] at hchild
    | directory entries =>
      have hlookup : entries.lookup name = some child := hchild
      simp [put, hlookup, at?, child?, lookup_setEntry_self, ih (Option.isSome_of_eq_some hrest)]

/-- A well-formed directory is so with a well-formed node under a name. -/
theorem WellFormed.setEntry {name : Text} {node : FileNode} {entries : List (Text × FileNode)}
    (h : (FileNode.directory entries).WellFormed) (hname : Path.IsName name)
    (hnode : node.WellFormed) :
    (FileNode.directory (FileNode.setEntry name node entries)).WellFormed := by
  cases h with
  | directory names distinct below =>
    refine .directory ?_ ?_ ?_
    · intro entry hentry
      rcases mem_setEntry hentry with rfl | hentry
      · exact hname
      · exact names entry hentry
    · rw [map_fst_setEntry]
      split
      · exact distinct
      · next hnew =>
        refine List.nodup_append.mpr ⟨distinct, by simp, ?_⟩
        intro other hother added hadded heq
        rw [List.mem_singleton.mp hadded] at heq
        exact hnew (heq ▸ hother)
    · intro entry hentry
      rcases mem_setEntry hentry with rfl | hentry
      · exact hnode
      · exact below entry hentry

/-- A well-formed tree stays so if something well-formed is put at names. -/
theorem WellFormed.put {location : Location} {new node : FileNode} (h : node.WellFormed)
    (hnames : ∀ name ∈ location, Path.IsName name) (hnew : new.WellFormed) :
    (put location new node).WellFormed := by
  induction location generalizing node with
  | nil => exact hnew
  | cons name rest ih =>
    obtain ⟨hname, hrest⟩ := List.forall_mem_cons.mp hnames
    cases node with
    | file => exact h
    | link => exact h
    | directory entries =>
      rw [FileNode.put]
      split
      · next found hfound => exact h.setEntry hname (ih (h.child hfound).2 hrest)
      · split
        · exact h.setEntry hname hnew
        · exact h

/-! ### What is kept -/

/-- Whether a node **lasts** as another one: it stays of its kind, with the same target if it is a
link, and with the same content if it is a file, unless that may be rewritten. -/
inductive Lasts (rewritten : Prop) : FileNode → FileNode → Prop where
  | directory (entries entries' : List (Text × FileNode)) :
      Lasts rewritten (.directory entries) (.directory entries')
  | link (target : Text) : Lasts rewritten (.link target) (.link target)
  | file {content content' : ByteArray} (h : content' = content ∨ rewritten) :
      Lasts rewritten (.file content) (.file content')

namespace Lasts

variable {rewritten other : Prop} {node between found : FileNode}

theorem refl (node : FileNode) : Lasts rewritten node node := by
  cases node with
  | file content => exact .file (.inl rfl)
  | link target => exact .link target
  | directory entries => exact .directory entries entries

theorem trans (h : Lasts rewritten node between) (h' : Lasts rewritten between found) :
    Lasts rewritten node found := by
  cases h with
  | directory => cases h' with | directory => exact .directory _ _
  | link => exact h'
  | file hcontent =>
    cases h' with
    | file hcontent' =>
      refine .file ?_
      rcases hcontent' with rfl | hrewritten
      · exact hcontent
      · exact .inr hrewritten

theorem imp (hrewritten : rewritten → other) (h : Lasts rewritten node found) :
    Lasts other node found := by
  cases h with
  | directory => exact .directory _ _
  | link => exact .link _
  | file hcontent => exact .file (hcontent.imp_right hrewritten)

end Lasts

/-- A node in which something is put below lasts. -/
theorem lasts_put_cons (name : Text) (rest : Location) (new node : FileNode) :
    Lasts False node (put (name :: rest) new node) := by
  cases node with
  | file content => exact .refl _
  | link target => exact .refl _
  | directory entries =>
    rw [put]
    split
    · exact .directory _ _
    · split
      · exact .directory _ _
      · exact .directory _ _

/-- The other names keep their nodes. -/
theorem child?_put_of_ne {name other : Text} (h : other ≠ name) (rest : Location)
    (new node : FileNode) : (put (name :: rest) new node).child? other = node.child? other := by
  cases node with
  | file content => rfl
  | link target => rfl
  | directory entries =>
    rw [put]
    split
    · exact lookup_setEntry_of_ne _ _ h
    · split
      · exact lookup_setEntry_of_ne _ _ h
      · rfl

/-- What is put further down is put below the name on the way. -/
theorem child?_put_self {rest : Location} (h : rest ≠ []) (name : Text) (new node : FileNode) :
    (put (name :: rest) new node).child? name = (node.child? name).map (put rest new) := by
  cases node with
  | file content => rfl
  | link target => rfl
  | directory entries =>
    rw [put, child?]
    split
    · next found hfound => rw [child?, lookup_setEntry_self, hfound, Option.map_some]
    · next hnone => rw [if_neg (by simpa using h), child?, hnone, Option.map_none]

/-- What stands elsewhere lasts if something is put at a location, and no file comes up
elsewhere. -/
theorem lasts_put {location place : Location} {new node : FileNode} (h : ¬location <+: place) :
    (∀ found, node.at? place = some found →
      ∃ found', at? place (put location new node) = some found' ∧ Lasts False found found') ∧
    ∀ content, at? place (put location new node) = some (.file content) →
      node.at? place = some (.file content) := by
  induction location generalizing node place with
  | nil => exact absurd List.nil_prefix h
  | cons name rest ih =>
    cases place with
    | nil =>
      have hlasts := lasts_put_cons name rest new node
      refine ⟨fun found hfound => ?_, fun content hcontent => ?_⟩
      · obtain rfl : node = found := by simpa using hfound
        exact ⟨_, rfl, hlasts⟩
      · rw [at?_nil, Option.some.injEq] at hcontent
        rw [hcontent] at hlasts
        cases hlasts with
        | file hsame => rw [at?_nil, hsame.resolve_right id]
    | cons other place =>
      rw [at?, at?]
      by_cases hother : other = name
      · subst hother
        have hbelow : ¬rest <+: place := fun hprefix => h (List.cons_prefix_cons.mpr ⟨rfl, hprefix⟩)
        have hrest : rest ≠ [] := fun hnil => hbelow (hnil ▸ List.nil_prefix)
        rw [child?_put_self hrest]
        cases node.child? other with
        | none => simp
        | some child => exact ih hbelow
      · rw [child?_put_of_ne hother]
        cases node.child? other with
        | none => simp
        | some child => exact ⟨fun found hfound => ⟨found, hfound, .refl found⟩, fun _ => id⟩

/-- Whether a tree holds what another one holds, apart from the file at one location. -/
structure Kept (written : Location) (node node' : FileNode) : Prop where
  /-- What was there is there. -/
  lasts : ∀ location found, node.at? location = some found →
    ∃ found', node'.at? location = some found' ∧ Lasts (location = written) found found'
  /-- No other file has come up. -/
  files : ∀ location content, node'.at? location = some (.file content) → location ≠ written →
    node.at? location = some (.file content)

namespace Kept

variable {written : Location} {node between node' : FileNode}

theorem refl (node : FileNode) : Kept written node node :=
  ⟨fun _ found hfound => ⟨found, hfound, .refl found⟩, fun _ _ h _ => h⟩

theorem trans (h : Kept written node between) (h' : Kept written between node') :
    Kept written node node' := by
  refine ⟨fun location found hfound => ?_, fun location content hcontent hne => ?_⟩
  · obtain ⟨middle, hmiddle, hlasts⟩ := h.lasts location found hfound
    obtain ⟨found', hfound', hlasts'⟩ := h'.lasts location middle hmiddle
    exact ⟨found', hfound', hlasts.trans hlasts'⟩
  · exact h.files location content (h'.files location content hcontent hne) hne

/-- What has an entry of a name in a directory still has it. -/
theorem lookup (h : Kept written node node') {location : Location} {name : Text}
    {entries : List (Text × FileNode)} {child : FileNode}
    (hat : node.at? location = some (.directory entries))
    (hchild : entries.lookup name = some child) :
    ∃ entries' child', node'.at? location = some (.directory entries') ∧
      entries'.lookup name = some child' ∧ Lasts (location ++ [name] = written) child child' := by
  obtain ⟨_, hat', hlasts⟩ := h.lasts _ _ hat
  cases hlasts with
  | directory _ entries' =>
    obtain ⟨child', hchild', hlasts⟩ := h.lasts _ _ (at?_concat hat hchild)
    rw [at?_append, hat'] at hchild'
    exact ⟨entries', child', hat', by simpa [at?, child?] using hchild', hlasts⟩

end Kept

/-- Putting a directory without entries or a file to a vacant place keeps what is there. -/
theorem kept_put_vacant {written front : Location} {name : Text} {new node : FileNode}
    {entries : List (Text × FileNode)} (hfront : node.at? front = some (.directory entries))
    (hvacant : entries.lookup name = none)
    (hnew : new = .directory [] ∨ (∃ content, new = .file content) ∧ written = front ++ [name]) :
    Kept written node (put (front ++ [name]) new node) := by
  refine ⟨fun location found hfound => ?_, fun location content hcontent hne => ?_⟩
  · have hnone : ¬front ++ [name] <+: location := by
      rintro ⟨more, rfl⟩
      rw [List.append_assoc, at?_append, hfront] at hfound
      simp [at?, child?, hvacant] at hfound
    obtain ⟨found', hfound', hlasts⟩ := (lasts_put hnone).1 found hfound
    exact ⟨found', hfound', hlasts.imp False.elim⟩
  · refine (lasts_put ?_).2 content hcontent
    rintro ⟨more, rfl⟩
    rw [at?_append, at?_put_self hfront, Option.bind_some] at hcontent
    rcases hnew with rfl | ⟨⟨own, rfl⟩, rfl⟩
    · cases more <;> simp [at?, child?] at hcontent
    · cases more with
      | nil => simp at hne
      | cons next more => simp [at?, child?] at hcontent

/-- Putting a file in the place of a file keeps everything else. -/
theorem kept_put_file {written : Location} {old new : ByteArray} {node : FileNode}
    (h : node.at? written = some (.file old)) :
    Kept written node (put written (.file new) node) := by
  have hself : at? written (put written (.file new) node) = some (.file new) :=
    at?_put_of_isSome (Option.isSome_of_eq_some h)
  refine ⟨fun location found hfound => ?_, fun location content hcontent hne => ?_⟩
  · by_cases hprefix : written <+: location
    · obtain ⟨more, rfl⟩ := hprefix
      rw [at?_append, h, Option.bind_some] at hfound
      cases more with
      | nil =>
        obtain rfl : FileNode.file old = found := by simpa using hfound
        exact ⟨_, by rw [List.append_nil]; exact hself, .file (.inr (List.append_nil _))⟩
      | cons next more => simp [at?, child?] at hfound
    · obtain ⟨found', hfound', hlasts⟩ := (lasts_put hprefix).1 found hfound
      exact ⟨found', hfound', hlasts.imp False.elim⟩
  · refine (lasts_put ?_).2 content hcontent
    rintro ⟨more, rfl⟩
    rw [at?_append, hself, Option.bind_some] at hcontent
    cases more with
    | nil => simp at hne
    | cons next more => simp [at?, child?] at hcontent

end ScriptBundle.FileNode
