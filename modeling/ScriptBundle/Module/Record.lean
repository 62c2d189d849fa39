import ScriptBundle.Module.Interface
import ScriptBundle.Path.Basic

/-!
# Module Records

What is known of one source file.

## Main definitions

* `ModuleRecord`: path, content and declarations of a module;
* `ModuleRecord.exportsName`, `ModuleRecord.hasDefaultExport`: what it offers.
-/

namespace ScriptBundle

/-- A **module record** is a source file that has been read. -/
structure ModuleRecord where
  /-- The absolute path of the file, without links. -/
  path : Path
  /-- The path below the source root, with single slashes. -/
  relativePath : String
  content : Text := []
  imports : List Import := []
  exports : List Export := []
  /-- The modules that this one imports, each once, in the order of their first import. -/
  dependencies : List Path := []
  deriving DecidableEq, Repr

/-- Whether a module has a default export. -/
def ModuleRecord.hasDefaultExport (m : ModuleRecord) : Bool := m.exports.any Export.isDefault

/-- Whether a module exports a name. The default export answers to `default`. -/
def ModuleRecord.exportsName (m : ModuleRecord) (name : String) : Bool :=
  m.exports.any (·.name == name)

end ScriptBundle
