import ScriptBundle.FileTree.Error
import ScriptBundle.Path.Basic
import ScriptBundle.SyntaxError

/-!
# Build Errors

Everything that can stop the making of a bundle.

## Main definitions

* `Stage`: the part of a build that an error belongs to;
* `BuildError`: the causes, each with its `message`, its `stage` and its `sources`.
-/

namespace ScriptBundle

/-- The **stages** of a build. -/
inductive Stage where
  | moduleResolution
  | concatenation
  | validation
  deriving DecidableEq, Repr

/-- The name of a stage. -/
def Stage.text : Stage → String
  | moduleResolution => "module-resolution"
  | concatenation => "concatenation"
  | validation => "syntax-validation"

/-- How the table of modules can disagree with what is asked of it. -/
inductive TableFault where
  /-- A module depends on a path that has no record. -/
  | unknownDependency (relativePath : String) (dependency : Path)
  /-- An order names a module that has no record. -/
  | unknownModule (id : Nat)
  deriving DecidableEq, Repr

/-- The words of a disagreement. -/
def TableFault.message : TableFault → String
  | unknownDependency relativePath dependency =>
    relativePath ++ " depends on " ++ dependency.toString ++
      " which is not part of the module table"
  | unknownModule id =>
    "ModuleId(" ++ toString id ++ ") is in the order but not in the module table"

/-- Why no document can be put together from modules. -/
inductive DocumentFault where
  | metadataMissing (metadataModule : String)
  | metadataMalformed (relativePath : String) (line : Nat) (fault : SyntaxFault)
  | metadataEmpty (relativePath : String)
  /-- A field would not keep to its line of the header. -/
  | metadataUnsafe (key relativePath : String)
  | bodyMalformed (relativePath : String) (line : Nat) (fault : SyntaxFault)
  deriving DecidableEq, Repr

/-- The words of a fault. -/
def DocumentFault.message : DocumentFault → String
  | metadataMissing metadataModule =>
    "metadata module '" ++ metadataModule ++ "' is not part of the bundle"
  | metadataMalformed relativePath line fault =>
    "malformed metadata in " ++ relativePath ++ ":" ++ toString line ++ ": " ++ fault.message
  | metadataEmpty relativePath => "metadata in " ++ relativePath ++ " declares no fields"
  | metadataUnsafe key relativePath =>
    "metadata field '" ++ key ++ "' in " ++ relativePath ++ " must fit on one header line"
  | bodyMalformed relativePath line fault =>
    relativePath ++ ":" ++ toString line ++ ": " ++ fault.message

/-- Why a build fails. -/
inductive BuildError where
  /-- The source root cannot be read. -/
  | discovery (root : Path) (cause : FileError)
  /-- A directory at or below the source root cannot be listed. -/
  | unlistable (root directory : Path) (cause : FileError)
  | unreadableModule (relativePath : String) (cause : FileError)
  | parse (relativePath : String) (line : Nat) (fault : SyntaxFault)
  /-- A specifier names no module of the bundle. -/
  | resolution (specifier importer : String)
  /-- A name is imported that the other module does not export. -/
  | missingExport (name specifier importer : String)
  | cycle (relativePaths : List String)
  | table (fault : TableFault)
  | document (fault : DocumentFault)
  /-- The finished document is no script. -/
  | invalidScript
  /-- A syntax error was found at an offset that is inside a character of the file, so that its
  line cannot be told. -/
  | unplaced (relativePath : String) (error : SyntaxError)
  deriving DecidableEq, Repr

namespace BuildError

/-- The stage that an error belongs to. -/
def stage : BuildError → Stage
  | document _ => .concatenation
  | unplaced _ _ => .concatenation
  | invalidScript => .validation
  | _ => .moduleResolution

/-- The words of a walk that could not go on at a directory. -/
def walkMessage (directory : Path) (cause : FileError) : String :=
  "IO error for operation on " ++ directory.toString ++ ": " ++ cause.message

/-- The words of an error. -/
def message : BuildError → String
  | discovery root cause =>
    "source root " ++ root.toString ++ " cannot be read: " ++ cause.message
  | unlistable root directory cause =>
    "source root " ++ root.toString ++ " cannot be read: " ++ walkMessage directory cause
  | unreadableModule relativePath cause =>
    "failed to read module " ++ relativePath ++ ": " ++ cause.message
  | parse relativePath line fault =>
    relativePath ++ ":" ++ toString line ++ ": " ++ fault.message
  | resolution specifier importer =>
    "cannot resolve '" ++ specifier ++ "' imported from " ++ importer
  | missingExport name specifier importer =>
    "'" ++ name ++ "' is not exported by '" ++ specifier ++ "' (imported from " ++ importer ++ ")"
  | cycle relativePaths =>
    "circular dependency detected: " ++ String.intercalate " -> " relativePaths
  | table fault => "internal invariant violated: " ++ fault.message
  | document fault => fault.message
  | invalidScript => "generated bundle is not valid JavaScript"
  | unplaced relativePath error => relativePath ++ ": " ++ error.message

/-- What is said of the errors that an error comes from, from the outside to the inside. -/
def sources : BuildError → List String
  | discovery _ cause => [cause.message]
  | unlistable _ directory cause => [walkMessage directory cause, cause.message]
  | unreadableModule _ cause => [cause.message]
  | _ => []

end BuildError

end ScriptBundle
