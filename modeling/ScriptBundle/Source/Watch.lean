import ScriptBundle.Path.Basic

/-!
# Watched Paths

Which changes below the source root call for another build.

## Main definitions

* `isHidden`: names that start with a point;
* `isWatched`: whether a change of a path counts.
-/

namespace ScriptBundle

/-- Whether a name is hidden. -/
def isHidden (name : Text) : Bool := name.head? == some '.'

/-- Whether a change of `path` calls for another build: it lies below the root, is not the
output, and leads through no hidden and no excluded name. -/
def isWatched (path root output : Path) (exclude : List Text) : Bool :=
  !path.same output &&
    match path.below? root with
    | none => false
    | some steps => !steps.any fun step => isHidden step.text || exclude.contains step.text

end ScriptBundle
