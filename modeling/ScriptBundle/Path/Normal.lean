import ScriptBundle.Path.Basic

/-!
# Normal Paths

## Main definitions

* `Path.normalize`: a path without `.` and `..` steps, found without looking at any directory;
* `Path.absolute?`: a path continued from the working directory, with its `..` steps kept;
* `Path.withExtension`: a path with a given extension, unless it has an accepted one.

## Main statements

* `Path.foldl_normalStep_names`: steps that are names are kept as they are.
-/

namespace ScriptBundle.Path

/-- The path with the given components. -/
def ofComponents : List Component → Path
  | .root :: rest => ⟨'/' :: joinSlashes (rest.map Component.text)⟩
  | components => ⟨joinSlashes (components.map Component.text)⟩

/-- The components without the last name. Nothing lies above the root or in front of the first
name. -/
def popName (steps : List Component) : List Component :=
  match steps.getLast? with
  | some (.normal _) => steps.dropLast
  | _ => steps

/-- Goes one step on from a list of steps that is normal already. -/
def normalStep (steps : List Component) : Component → List Component
  | .current => steps
  | .parent => popName steps
  | .root => [.root]
  | .normal name => steps ++ [.normal name]

/-- Steps without `.` and `..`, each `..` taking the name in front of it along. -/
def normalSteps (steps : List Component) : List Component := steps.foldl normalStep []

/-- A path without `.` and `..` steps. -/
def normalize (p : Path) : Path := ofComponents (normalSteps p.components)

/-- A path continued from the directory `here`. The empty path has no such form. -/
def absolute? (here p : Path) : Option Path :=
  if p.isEmpty then none
  else
    let steps := p.components.filter (· ≠ .current)
    some (ofComponents (if p.isAbsolute then steps else here.components ++ steps))

/-- Adds an extension to a path, unless the path has one that is accepted. -/
def withExtension (extension : Text) (accepted : List Text) (p : Path) : Path :=
  if p.extension?.any fun found => found == extension || accepted.contains found then p
  else ⟨p.text ++ '.' :: extension⟩

/-- Steps that are names are kept as they are, behind others that are normal. -/
theorem foldl_normalStep_names (steps : List Component) (names : List Text) :
    (names.map .normal).foldl normalStep steps = steps ++ names.map .normal := by
  induction names generalizing steps with
  | nil => simp
  | cons name names ih =>
    rw [List.map_cons, List.foldl_cons, ih]
    simp [normalStep]

end ScriptBundle.Path
