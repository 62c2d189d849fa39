import ScriptBundle.Build.Output
import ScriptBundle.FileTree.Difference

/-!
# Watching

When a project that is watched has to be built again.

## Main definitions

* `needsBuild`: whether the changes between two trees call for a build.

## Main statements

* `needsBuild_of_untouched`: where nothing was touched no build is called for.
-/

namespace ScriptBundle

/-- Whether a change between two trees calls for another build of a project whose source root
lies at `root`. -/
def needsBuild (c : Config) (root : Location) (before after : FileTree) : Bool :=
  match Path.absolute? (.ofNames after.workingDirectory) c.output with
  | none => false
  | some output =>
    (before.touched after).any fun location =>
      isWatched (.ofNames location) (.ofNames root) output c.exclude

/-- Where nothing was touched no build is called for. -/
theorem needsBuild_of_untouched {c : Config} {root : Location} {before after : FileTree}
    (h : before.touched after = []) : needsBuild c root before after = false := by
  simp only [needsBuild, h]
  split <;> simp

end ScriptBundle
