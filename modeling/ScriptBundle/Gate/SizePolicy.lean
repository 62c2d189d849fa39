import ScriptBundle.FileTree.Walk
import ScriptBundle.Gate.Outcome
import ScriptBundle.Text.Search

/-!
# Size Policy

A gate that holds if no module has too many lines.

## Main definitions

* `sizeDiagnostic?`: what is said of a file, if anything;
* `sizePolicy`: the gate.

## Main statements

* `sizePolicy_holds_iff`: the gate holds exactly when nothing is said of any file.
-/

namespace ScriptBundle

/-- The name of the gate. -/
def sizePolicyName : String := "size-policy"

/-- What is said of a file that has more than `limit` lines or cannot be read. -/
def sizeDiagnostic? (t : FileTree) (limit : Nat) (file : Path) : Option String :=
  match t.readText file with
  | .error cause => some (file.toString ++ ": " ++ cause.message)
  | .ok content =>
    let lines := Text.lineCount content
    if limit < lines then
      some (file.toString ++ ": " ++ toString lines ++ " lines (limit " ++ toString limit ++ ")")
    else none

/-- The **size policy**: no file has more than `limit` lines. -/
def sizePolicy (t : FileTree) (limit : Nat) (files : List Path) : GateOutcome :=
  match files.filterMap (sizeDiagnostic? t limit) with
  | [] => .passed sizePolicyName
  | diagnostics => .failed sizePolicyName diagnostics

/-- The gate holds exactly when nothing is said of any file. -/
theorem sizePolicy_holds_iff {t : FileTree} {limit : Nat} {files : List Path} :
    (sizePolicy t limit files).holds = true ↔
      ∀ file ∈ files, sizeDiagnostic? t limit file = none := by
  rw [← List.filterMap_eq_nil_iff, sizePolicy]
  split
  · next h => simp [h, GateOutcome.passed]
  · next h => simpa [GateOutcome.failed] using h

end ScriptBundle
