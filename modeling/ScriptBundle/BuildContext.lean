import ScriptBundle.Calendar
import ScriptBundle.Path.Basic
import ScriptBundle.Text.Blank

/-!
# Build Contexts

The values of one build that the header may refer to.

## Main definitions

* `BuildContext`: version, branch, addresses and time of a build;
* `releaseUrl`: the address at which a script is published;
* `BuildContext.templateValues`: the placeholders and what stands for each.
-/

namespace ScriptBundle

/-- A **build context** is what a build knows about itself. -/
structure BuildContext where
  version : String
  branch : String
  outputPath : Path
  timestamp : Moment
  /-- The modules in the bundle, in order. -/
  sourceFiles : List String := []
  updateUrl : Option String := none
  downloadUrl : Option String := none
  deriving DecidableEq, Repr

/-- The address of the output file in the directory of its branch below a base address. -/
def releaseUrl (base branch : String) (output : Path) : String :=
  String.ofList (Text.trimEndOf '/' base.toList) ++ "/" ++ branch ++ "/" ++
    String.ofList (output.fileName?.getD [])

/-- Publishes a build below a base address. Updates and downloads come from the same place. -/
def BuildContext.releasedAt (context : BuildContext) (base : String) : BuildContext :=
  let url := releaseUrl base context.branch context.outputPath
  { context with updateUrl := some url, downloadUrl := some url }

/-- The placeholders of a header with the values of a build. An address that is not known is
empty. -/
def BuildContext.templateValues (context : BuildContext) : List (String × String) :=
  [("\x7b\x7bVERSION\x7d\x7d", context.version),
   ("\x7b\x7bBRANCH\x7d\x7d", context.branch),
   ("\x7b\x7bUPDATE_URL\x7d\x7d", context.updateUrl.getD ""),
   ("\x7b\x7bDOWNLOAD_URL\x7d\x7d", context.downloadUrl.getD ""),
   ("\x7b\x7bBUILD_DATE\x7d\x7d", context.timestamp.text)]

end ScriptBundle
