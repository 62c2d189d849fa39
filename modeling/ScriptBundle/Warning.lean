/-!
# Warnings

What a build reports without failing.

## Main definitions

* `Warning`: the occasions, each with its `message`.
-/

namespace ScriptBundle

/-- A **warning** tells of something that is probably a mistake. -/
inductive Warning where
  /-- A header field is declared more than once. -/
  | repeatedField (key : String)
  /-- A header field holds a placeholder that no value was given for. -/
  | unresolvedField (key : String)
  /-- A module is entered into a table that has its path already. -/
  | repeatedModule (relativePath : String)
  deriving DecidableEq, Repr

/-- The words of a warning. -/
def Warning.message : Warning → String
  | repeatedField key => "Metadata field '" ++ key ++ "' is declared twice; the last value wins"
  | unresolvedField key =>
    "Metadata field '" ++ key ++ "' still contains a placeholder after substitution"
  | repeatedModule relativePath =>
    "Module " ++ relativePath ++ " registered twice, keeping the first record"

end ScriptBundle
