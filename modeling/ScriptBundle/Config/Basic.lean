import ScriptBundle.Path.Basic
import ScriptBundle.Text.Quoted

/-!
# Configurations

What a project can set about its builds.

## Main definitions

* `Config`: the settings, each with its default;
* `ConfigFault`: what can be wrong with them, each with its `message`;
* `Config.check`: looks for the faults that single settings can have.
-/

namespace ScriptBundle

/-- A **configuration** of a project. -/
structure Config where
  /-- The source root, below which modules are looked for. -/
  src : Path := .ofString "src"
  /-- The extension of source files, without its point. -/
  extension : Text := "js".toList
  /-- The relative path of the module that declares the metadata. -/
  metadataModule : String := "meta.js"
  output : Path := .ofString "dist/script.user.js"
  version : String := "0.0.0"
  branch : String := "main"
  /-- The address below which scripts are published. -/
  releaseUrl : Option String := none
  /-- The names of directories in which no module is looked for. -/
  exclude : List Text := ["node_modules".toList]
  indentWidth : Nat := 4
  /-- The greatest number of lines that a source file may have. -/
  maxModuleLines : Option Nat := none
  /-- A command that must succeed before a build, as a program and its arguments. -/
  lintCommand : Option (List Text) := none
  /-- The directory in which commands run, unless it is the working directory. -/
  projectDirectory : Option Path := none
  deriving DecidableEq, Repr

/-- What is wrong with a configuration. -/
inductive ConfigFault where
  /-- The document is not well formed, or a key is unknown, repeated or of the wrong type. -/
  | malformed
  | extensionNotBare (found : Text)
  | metadataModuleEmpty
  | lintCommandEmpty
  deriving DecidableEq, Repr

/-- The words of a fault. -/
def ConfigFault.message : ConfigFault → String
  | malformed => "invalid configuration"
  | extensionNotBare found =>
    "extension must be a bare extension such as \"js\", got " ++ String.ofList (Text.quoted found)
  | metadataModuleEmpty => "metadata-module must not be empty"
  | lintCommandEmpty => "lint-command must name a program"

/-- Refuses settings that can mean nothing. -/
def Config.check (c : Config) : Except ConfigFault Unit :=
  if c.extension.head?.all (· == '.') then .error (.extensionNotBare c.extension)
  else if c.metadataModule.isEmpty then .error .metadataModuleEmpty
  else if c.lintCommand == some [] then .error .lintCommandEmpty
  else .ok ()

end ScriptBundle
