import ScriptBundle.Path.Normal
import ScriptBundle.Proofs.FileTree.Writing

/-!
# Straight Paths

A path without `..` that meets no link leads to where it says. For such paths the place that is
found by walking and the absolute path that is found without looking at any directory are the same.

## Main definitions

* `FileTree.spelled`: the location that the names in a path tell;
* `FileTree.Straight`: whether a path has no `..` and meets no link.

## Main statements

* `FileTree.Straight.place`: a straight path leads to the location that it tells;
* `FileTree.Straight.absolute?`: its absolute path is made from the names of this location;
* `FileTree.Straight.absolute?_of_locateBy`: a path that leads to a location has its absolute path.
-/

namespace ScriptBundle

/-- The name that a step leads through. -/
def Component.name? : Component → Option Text
  | normal name => some name
  | _ => none

/-- The names that a path leads through. -/
def Path.names (p : Path) : List Text := p.components.filterMap Component.name?

namespace FileTree

/-- The location that a path **spells**: where it would lead to without any link or `..`. -/
def spelled (t : FileTree) (p : Path) : Location :=
  (if p.isAbsolute then [] else t.workingDirectory) ++ p.names

/-- Whether a path is **straight**: it has no `..` and meets no link. -/
structure Straight (t : FileTree) (p : Path) : Prop where
  noParent : Component.parent ∉ p.components
  noLink : ∀ front, front <+: t.spelled p → ∀ target, t.root.at? front ≠ some (.link target)

end FileTree

/-! ### Segments and steps -/

namespace Path

variable {p : Path} {segments : List Text}

/-- A segment is a step to the parent only if it looks like one. -/
theorem parent_mem_filterMap_iff :
    Component.parent ∈ segments.filterMap componentOf? ↔ ['.', '.'] ∈ segments := by
  have hparent : ∀ segment, componentOf? segment = some .parent ↔ segment = ['.', '.'] := by
    intro segment
    rw [componentOf?]
    split
    · next hidle => rcases hidle with rfl | rfl <;> simp
    · split <;> simp [*]
  simp [List.mem_filterMap, hparent]

/-- Without steps to the parent, the segments that are not idle are the names. -/
theorem filterMap_name? (h : ['.', '.'] ∉ segments) :
    (segments.filterMap componentOf?).filterMap Component.name? = segments.filter (!isIdle ·) := by
  induction segments with
  | nil => rfl
  | cons segment rest ih =>
    obtain ⟨hsegment, hrest⟩ := not_or.mp (mt List.mem_cons.mpr h)
    by_cases hidle : segment = [] ∨ segment = ['.']
    · have hisIdle : isIdle segment = true := by simpa [isIdle] using hidle
      simp [componentOf?, hidle, hisIdle, ih hrest]
    · have hisIdle : isIdle segment = false := by simpa [isIdle] using hidle
      simp [componentOf?, hidle, Ne.symm hsegment, hisIdle, Component.name?, ih hrest]

/-- Steps that are neither the root nor the parent are names or idle. -/
theorem filter_ne_current {steps : List Component} (hroot : .root ∉ steps)
    (hparent : .parent ∉ steps) :
    steps.filter (· ≠ .current) = (steps.filterMap Component.name?).map .normal := by
  induction steps with
  | nil => rfl
  | cons step rest ih =>
    simp only [List.mem_cons, not_or] at hroot hparent
    have hrest := ih hroot.2 hparent.2
    cases step with
    | root => exact absurd rfl hroot.1
    | parent => exact absurd rfl hparent.1
    | current => simpa [Component.name?, List.filterMap_cons] using hrest
    | normal name => simpa [Component.name?] using hrest

/-- No segment stands for the root. -/
theorem root_not_mem_filterMap : Component.root ∉ segments.filterMap componentOf? := by
  rw [List.mem_filterMap]
  rintro ⟨segment, -, hsegment⟩
  rw [componentOf?] at hsegment
  split at hsegment
  · simp at hsegment
  · split at hsegment <;> simp at hsegment

/-- The names in a path are its segments that are not idle. -/
theorem names_eq_filter (h : ['.', '.'] ∉ splitSlashes p.text) :
    p.names = (splitSlashes p.text).filter (!isIdle ·) := by
  have hfront : p.frontComponent?.toList.filterMap Component.name? = [] := by
    rw [frontComponent?]
    split
    · rfl
    · split <;> rfl
  rw [names, components, List.filterMap_append, hfront, filterMap_name? h, List.nil_append]

/-- The steps of a path that has none to the parent. -/
theorem filter_components (h : .parent ∉ p.components) : p.components.filter (· ≠ .current) =
    (if p.isAbsolute then [.root] else []) ++ p.names.map .normal := by
  rw [components, List.mem_append, not_or] at h
  have hbehind := filter_ne_current root_not_mem_filterMap h.2
  rw [names, components, List.filter_append, List.filterMap_append, hbehind, List.map_append,
    frontComponent?, ← List.append_assoc]
  congr 1
  split
  · rfl
  · split <;> rfl

end Path

/-! ### Walks -/

/-- A walk that meets neither a link nor a step to the parent goes from name to name. -/
theorem Walks.straight {root : FileNode} {ending : PathEnd} {links : Nat} {here location : Location}
    {segments : List Text} (h : Walks root ending links here segments (.present location))
    (hstops : ∀ behind, ending.stopsAt behind = false) (hparent : ['.', '.'] ∉ segments)
    (hlink : ∀ front, front <+: here ++ segments.filter (!Path.isIdle ·) →
      ∀ target, root.at? front ≠ some (.link target)) :
    location = here ++ segments.filter (!Path.isIdle ·) := by
  generalize hplace : Place.present location = place at h
  have hname : ∀ {here segment rest}, ending.Takes here segment rest →
      (segment :: rest).filter (!Path.isIdle ·) = segment :: rest.filter (!Path.isIdle ·) := by
    intro here segment rest htakes
    have hidle : Path.isIdle segment = false := by simpa [Path.isIdle] using htakes.idle
    simp [hidle]
  induction h with
  | done => simpa using hplace
  | @idle links here segment rest place entries hhere hidle hrest ih =>
    have hskip : (segment :: rest).filter (!Path.isIdle ·) = rest.filter (!Path.isIdle ·) := by
      have hisIdle : Path.isIdle segment = true := by simpa [Path.isIdle] using hidle
      simp [hisIdle]
    rw [hskip] at hlink ⊢
    exact ih (fun hmem => hparent (List.mem_cons_of_mem _ hmem)) hlink hplace
  | parent _ _ _ => exact absurd List.mem_cons_self hparent
  | vacant => simp at hplace
  | stop _ _ _ hstop => simp [hstops] at hstop
  | @link links here segment target rest place entries hhere htakes hsome _ _ _ =>
    rw [hname htakes] at hlink
    refine absurd (FileNode.at?_concat hhere hsome) (hlink (here ++ [segment]) ?_ target)
    exact ⟨rest.filter (!Path.isIdle ·), by simp⟩
  | @enter links here segment rest place node entries hhere htakes hsome _ _ _ ih =>
    have hsplit : here ++ (segment :: rest).filter (!Path.isIdle ·) =
        here ++ [segment] ++ rest.filter (!Path.isIdle ·) := by
      rw [hname htakes]
      simp
    rw [hsplit] at hlink ⊢
    exact ih (fun hmem => hparent (List.mem_cons_of_mem _ hmem)) hlink hplace

namespace FileTree

variable {t : FileTree} {p : Path}

/-- A straight path leads to the location that it spells. -/
theorem Straight.place (h : t.Straight p) {ending : PathEnd} {location : Location}
    (hstops : ∀ behind, ending.stopsAt behind = false)
    (hplace : t.place ending p = .ok (.present location)) : location = t.spelled p := by
  obtain ⟨-, -, -, hwalks⟩ := place_eq_ok_iff.mp hplace
  have hparent : ['.', '.'] ∉ splitSlashes p.text := by
    intro hmem
    refine h.noParent (List.mem_append_right _ ?_)
    exact Path.parent_mem_filterMap_iff.mpr hmem
  have hlink := h.noLink
  rw [spelled, Path.names_eq_filter hparent] at hlink ⊢
  exact hwalks.straight hstops hparent hlink

/-- The absolute path of a straight path is made from the names that it spells. -/
theorem Straight.absolute? (h : t.Straight p) (hnames : ∀ name ∈ t.spelled p, Path.IsName name)
    (hempty : p.isEmpty = false) :
    Path.absolute? (.ofNames t.workingDirectory) p = some (.ofNames (t.spelled p)) := by
  have hsteps : (if p.isAbsolute then p.components.filter (· ≠ .current)
      else (Path.ofNames t.workingDirectory).components ++ p.components.filter (· ≠ .current)) =
      .root :: (t.spelled p).map .normal := by
    rw [Path.filter_components h.noParent]
    rw [spelled] at hnames ⊢
    by_cases habsolute : p.isAbsolute = true
    · simp [habsolute]
    · rw [if_neg habsolute] at hnames
      have hhere := Path.components_ofNames fun name hname =>
        hnames name (List.mem_append_left _ hname)
      simp [habsolute, hhere]
  have htext : ((t.spelled p).map Component.normal).map Component.text = t.spelled p := by
    rw [List.map_map]
    exact List.map_id _
  have hspelled : Path.ofComponents (.root :: (t.spelled p).map .normal) =
      .ofNames (t.spelled p) := by
    rw [Path.ofComponents, htext, Path.ofNames]
  rw [Path.absolute?, if_neg (by simp [hempty]), ← hspelled, ← hsteps]

/-- The absolute path of a straight path is that of the location to which it leads. -/
theorem Straight.absolute?_of_locateBy (h : t.Straight p) (ht : t.root.WellFormed)
    {ending : PathEnd} {location : Location} (hstops : ∀ behind, ending.stopsAt behind = false)
    (hlocate : t.locateBy ending p = .ok location) :
    Path.absolute? (.ofNames t.workingDirectory) p = some (.ofNames location) := by
  have hplace := locateBy_eq_ok_iff.mp hlocate
  obtain ⟨hempty, -⟩ := place_eq_ok_iff.mp hplace
  obtain rfl := h.place hstops hplace
  exact h.absolute? (ht.isName_of_at? (isSome_at?_of_locateBy hlocate)) hempty

end FileTree

end ScriptBundle
