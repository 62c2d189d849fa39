import ScriptBundle.BuildError
import ScriptBundle.Gate.Outcome

/-!
# Build Failures

Why a build as a whole does not come to its end.

## Main definitions

* `BuildFailure`: the causes;
* `BuildFailure.chain`: what is said of a cause, from the outside to the inside.
-/

namespace ScriptBundle

/-- Why a build fails. -/
inductive BuildFailure where
  /-- One of its stages fails. -/
  | stage (error : BuildError)
  | gate (outcome : GateOutcome)
  /-- The output would be found as a module by the next build. -/
  | outputInSource (output src : Path)
  | directoryNotCreated (directory : Path) (cause : FileError)
  | outputNotWritten (output : Path) (cause : FileError)
  deriving DecidableEq, Repr

namespace BuildFailure

/-- What is said first of the failure of a stage. -/
def stageContext (error : BuildError) : String := error.stage.text ++ " failed"

/-- What is said of a failure, from the outside to the inside. -/
def causes : BuildFailure → List String
  | stage error =>
    [stageContext error, error.message] ++ error.sources
  | gate outcome =>
    ["quality gate '" ++ outcome.gate ++ "' failed:\n" ++
      String.intercalate "\n" outcome.diagnostics]
  | outputInSource output src =>
    ["output " ++ output.toString ++ " is inside the source root " ++ src.toString]
  | directoryNotCreated directory cause =>
    ["failed to create " ++ directory.toString, cause.message]
  | outputNotWritten output cause => ["failed to write " ++ output.toString, cause.message]

/-- The **chain** of causes as one text. -/
def chain (failure : BuildFailure) : String := String.intercalate ": " failure.causes

end BuildFailure

end ScriptBundle
