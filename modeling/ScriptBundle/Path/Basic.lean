import ScriptBundle.Text.Search

/-!
# Paths

A path is kept as it was written, since messages quote it, and is compared by its components.
Repeated slashes and `.` steps do not count, except for a `.` at the front of a relative path;
`..` steps do count and are never resolved here.

## Main definitions

* `Path`: the characters of a path;
* `Path.components`: its steps;
* `Path.parent?`, `Path.fileName?`, `Path.extension?`: its parts;
* `Path.join`: one path continued by another.

## Main statements

* `Path.components_ofNames`: a path made from names has these names for steps.
-/

namespace ScriptBundle

/-- A **path**, as it was written. -/
structure Path where
  text : Text
  deriving DecidableEq, Repr

/-- One step of a path. -/
inductive Component where
  /-- The slash at the front of an absolute path. -/
  | root
  /-- A `.` at the front of a relative path. -/
  | current
  | parent
  | normal (name : Text)
  deriving DecidableEq, Repr

/-- A component as it is written. -/
def Component.text : Component → Text
  | root => ['/']
  | current => ['.']
  | parent => ['.', '.']
  | normal name => name

/-- The parts of a text between slashes, of which there is at least one. -/
def splitSlashes : Text → List Text
  | [] => [[]]
  | c :: rest =>
    if c = '/' then [] :: splitSlashes rest
    else
      match splitSlashes rest with
      | [] => [[c]]
      | segment :: others => (c :: segment) :: others

/-- Segments joined by slashes. -/
def joinSlashes (segments : List Text) : Text := List.intercalate ['/'] segments

namespace Path

/-- The path that a string holds. -/
def ofString (s : String) : Path := ⟨s.toList⟩

/-- The string that a path is shown as. -/
def toString (p : Path) : String := String.ofList p.text

/-- Whether a path has no characters. -/
def isEmpty (p : Path) : Bool := p.text.isEmpty

/-- Whether a path starts at the root. -/
def isAbsolute (p : Path) : Bool := p.text.head? == some '/'

/-- The component that a segment stands for behind the front of a path. -/
def componentOf? (segment : Text) : Option Component :=
  if segment = [] ∨ segment = ['.'] then none
  else if segment = ['.', '.'] then some .parent
  else some (.normal segment)

/-- The component in front of the others, if there is one. -/
def frontComponent? (p : Path) : Option Component :=
  if p.isAbsolute then some .root
  else if (splitSlashes p.text).head? = some ['.'] then some .current
  else none

/-- The **components** of a path. -/
def components (p : Path) : List Component :=
  p.frontComponent?.toList ++ (splitSlashes p.text).filterMap componentOf?

/-- Whether two paths have the same components. -/
def same (p q : Path) : Bool := p.components == q.components

/-- The components of a path behind those of another one, if it starts with them. -/
def below? (p base : Path) : Option (List Component) :=
  if base.components.isPrefixOf p.components then
    some (p.components.drop base.components.length)
  else none

/-- Whether a path starts with the components of another one. -/
def startsWith (p base : Path) : Bool := base.components.isPrefixOf p.components

/-- Whether a segment is a **name**, one that a directory may give to an entry. -/
def IsName (segment : Text) : Prop :=
  '/' ∉ segment ∧ segment ≠ [] ∧ segment ≠ ['.'] ∧ segment ≠ ['.', '.']

/-- The absolute path with the given names for steps. -/
def ofNames (names : List Text) : Path := ⟨'/' :: joinSlashes names⟩

/-! ### Parts -/

/-- The last name of a path, unless the path ends in `..` or has no steps. -/
def fileName? (p : Path) : Option Text :=
  match p.components.getLast? with
  | some (.normal name) => some name
  | _ => none

/-- A name in front of and behind its last point. A point at the front of a name does not
count. -/
def splitExtension (name : Text) : Text × Option Text :=
  let reversed := name.reverse
  let tail := reversed.takeWhile (· ≠ '.')
  match reversed.dropWhile (· ≠ '.') with
  | '.' :: front => if front.isEmpty then (name, none) else (front.reverse, some tail.reverse)
  | _ => (name, none)

/-- What stands behind the last point of the last name. -/
def extension? (p : Path) : Option Text :=
  p.fileName?.bind fun name => (splitExtension name).2

/-- Whether a segment adds no step. -/
def isIdle (segment : Text) : Bool := segment == [] || segment == ['.']

/-- Segments without the idle ones at their end. -/
def trimIdle (segments : List Text) : List Text :=
  (segments.reverse.dropWhile isIdle).reverse

/-- Segments without the last step, if there is one. -/
def dropStep (segments : List Text) : Option (List Text) :=
  match trimIdle segments with
  | [] => none
  | kept => some (trimIdle kept.dropLast)

/-- The path in front of the last step, as it was written. The root and the empty path have no
parent. -/
def parent? (p : Path) : Option Path :=
  match splitSlashes p.text with
  | [] => none
  | first :: others =>
    if p.isAbsolute then (dropStep others).map ofNames
    else
      match dropStep others with
      | some kept => some ⟨joinSlashes (first :: kept)⟩
      | none => if first = [] then none else some ⟨[]⟩

/-- One path continued by another. An absolute path replaces the first one. -/
def join (p q : Path) : Path :=
  if q.isAbsolute then q
  else if p.text = [] ∨ p.text.getLast? = some '/' then ⟨p.text ++ q.text⟩
  else ⟨p.text ++ '/' :: q.text⟩

/-- A path as text with its steps separated by single slashes. The root and `.` are left out. -/
def plainText (components : List Component) : Text :=
  joinSlashes <| components.filterMap fun
    | .normal name => some name
    | .parent => some ['.', '.']
    | _ => none

/-- A path in plain form, which looks the same whatever way it was written. -/
def display (p : Path) : String := String.ofList (plainText p.components)

/-! ### Paths made from names -/

/-- A text without slashes is one segment. -/
theorem splitSlashes_of_not_mem {name : Text} (h : '/' ∉ name) : splitSlashes name = [name] := by
  induction name with
  | nil => rfl
  | cons c rest ih =>
    simp only [List.mem_cons, not_or] at h
    simp [splitSlashes, Ne.symm h.1, ih h.2]

/-- A slash separates the segments in front of it from those behind it. -/
theorem splitSlashes_append {name : Text} (h : '/' ∉ name) (s : Text) :
    splitSlashes (name ++ '/' :: s) = name :: splitSlashes s := by
  induction name with
  | nil => simp [splitSlashes]
  | cons c rest ih =>
    simp only [List.mem_cons, not_or] at h
    simp [splitSlashes, Ne.symm h.1, ih h.2]

/-- Segments that hold no slash are found again. -/
theorem splitSlashes_joinSlashes {segments : List Text} (hne : segments ≠ [])
    (h : ∀ segment ∈ segments, '/' ∉ segment) :
    splitSlashes (joinSlashes segments) = segments := by
  induction segments with
  | nil => exact absurd rfl hne
  | cons first others ih =>
    cases others with
    | nil => simpa [joinSlashes] using splitSlashes_of_not_mem (h first (by simp))
    | cons second others =>
      have hrest := ih (by simp) fun segment hmem => h segment (by simp [hmem])
      simp only [joinSlashes, List.intercalate, List.intersperse, List.flatten_cons] at hrest ⊢
      have := splitSlashes_append (h first (by simp)) (joinSlashes (second :: others))
      simp only [joinSlashes, List.intercalate] at this
      simpa [hrest] using this

/-- Among the segments, names alone stand for steps into a directory. -/
theorem componentOf?_of_isName {name : Text} (h : IsName name) :
    componentOf? name = some (.normal name) := by
  simp [componentOf?, h.2.1, h.2.2.1, h.2.2.2]

/-- Names stand for the steps that lead through them. -/
theorem filterMap_componentOf? {names : List Text} (h : ∀ name ∈ names, IsName name) :
    names.filterMap componentOf? = names.map .normal := by
  induction names with
  | nil => rfl
  | cons name names ih =>
    rw [List.filterMap_cons, componentOf?_of_isName (h name (by simp)), List.map_cons,
      ← ih fun other hmem => h other (by simp [hmem])]

/-- A path made from names has these names for steps. -/
theorem components_ofNames {names : List Text} (h : ∀ name ∈ names, IsName name) :
    (ofNames names).components = .root :: names.map .normal := by
  have hsteps : (splitSlashes (ofNames names).text).filterMap componentOf? =
      names.map .normal := by
    cases names with
    | nil => rfl
    | cons first others =>
      have hsplit := splitSlashes_joinSlashes (List.cons_ne_nil first others)
        fun name hmem => (h name hmem).1
      rw [ofNames, splitSlashes, if_pos rfl, hsplit, ← filterMap_componentOf? h]
      rfl
  rw [components, hsteps]
  rfl

end Path

end ScriptBundle
