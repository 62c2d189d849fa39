import ScriptBundle.Config.Basic
import ScriptBundle.Gate.Command
import ScriptBundle.Gate.SizePolicy

/-!
# Configured Gates

## Main definitions

* `Gate`: the kinds of gates;
* `Config.gates`: the gates of a configuration, in the order in which they are asked;
* `firstFailure?`: the first of several gates that does not hold.

## Main statements

* `firstFailure?_tree`: where commands leave the files alone, gates do;
* `firstFailure?_eq_none`: no gate fails then exactly when all of them hold.
-/

namespace ScriptBundle

/-- A **gate** of a project. -/
inductive Gate where
  | command (words : List Text) (directory : Option Path)
  | sizePolicy (limit : Nat)
  deriving DecidableEq, Repr

/-- What a gate says of the modules of a file tree, and the file tree behind it. -/
def Gate.check (run : CommandRunner) (t : FileTree) (files : List Path) :
    Gate → FileTree × GateOutcome
  | command words directory => commandGate run t words directory
  | sizePolicy limit => (t, ScriptBundle.sizePolicy t limit files)

/-- The gates of a configuration. -/
def Config.gates (c : Config) : List Gate :=
  (c.lintCommand.map (.command · c.projectDirectory)).toList ++
    (c.maxModuleLines.map .sizePolicy).toList

/-- The first of several gates that does not hold, and the file tree behind it. Those behind it
are not asked. -/
def firstFailure? (run : CommandRunner) (t : FileTree) (files : List Path) :
    List Gate → FileTree × Option GateOutcome
  | [] => (t, none)
  | gate :: rest =>
    let (t, outcome) := gate.check run t files
    if outcome.holds then firstFailure? run t files rest else (t, some outcome)

/-- Where commands leave the files alone, gates do. -/
theorem Gate.check_tree {run : CommandRunner} (h : LeavesFiles run) (t : FileTree)
    (files : List Path) (gate : Gate) : (gate.check run t files).1 = t := by
  cases gate with
  | command words directory => exact commandGate_tree h t words directory
  | sizePolicy limit => rfl

/-- Where commands leave the files alone, gates do. -/
theorem firstFailure?_tree {run : CommandRunner} (h : LeavesFiles run) (t : FileTree)
    (files : List Path) (gates : List Gate) : (firstFailure? run t files gates).1 = t := by
  induction gates with
  | nil => rfl
  | cons gate rest ih =>
    have ht := gate.check_tree h t files
    simp only [firstFailure?]
    split
    · rw [ht, ih]
    · exact ht

/-- Where commands leave the files alone, no gate fails exactly when all of them hold. -/
theorem firstFailure?_eq_none {run : CommandRunner} (h : LeavesFiles run) {t : FileTree}
    {files : List Path} {gates : List Gate} :
    (firstFailure? run t files gates).2 = none ↔
      ∀ gate ∈ gates, (gate.check run t files).2.holds = true := by
  induction gates with
  | nil => simp [firstFailure?]
  | cons gate rest ih =>
    have ht := gate.check_tree h t files
    by_cases hg : (gate.check run t files).2.holds = true <;> simp [firstFailure?, hg, ht, ih]

end ScriptBundle
