import ScriptBundle.Build.Bundle
import ScriptBundle.FileTree.Change
import ScriptBundle.Path.Normal

/-!
# Builds

A build writes the bundle of a project to its output file. Apart from what gates do, the file tree
changes only after the bundle is complete.

## Main definitions

* `Config.outputInSource`: whether the output would become a module;
* `FileTree.writeOutput`: writes a text to a file, and makes the directories around it;
* `build`: a whole build, with the file tree behind it.

## Main statements

* `build_of_outputInSource`: a build that would feed on its own output changes nothing.
-/

namespace ScriptBundle

/-- What is said of a build that has come to its end. -/
structure BuildReport where
  /-- The relative paths of the modules, in order. -/
  modules : List String
  outputPath : Path
  /-- The size of the output in bytes. -/
  bytes : Nat
  deriving DecidableEq, Repr

/-- Whether the output would be found as a module. Paths are compared without looking at
links. -/
def Config.outputInSource (c : Config) (workingDirectory : Location) : Bool :=
  let here := Path.ofNames workingDirectory
  match Path.absolute? here c.src, Path.absolute? here c.output with
  | some src, some output => output.startsWith src && output.extension? == some c.extension
  | _, _ => false

/-- Writes a text to a file, and makes the directories around it. -/
def FileTree.writeOutput (t : FileTree) (output : Path) (text : Text) :
    FileTree × Except BuildFailure Unit :=
  let (t, made) : FileTree × Except BuildFailure Unit :=
    match output.parent?.filter (!·.isEmpty) with
    | none => (t, .ok ())
    | some directory =>
      let (t, made) := t.createDirectories directory
      (t, made.mapError (.directoryNotCreated directory))
  match made with
  | .error failure => (t, .error failure)
  | .ok () =>
    match t.writeFile output (String.ofList text).toUTF8 with
    | .error cause => (t, .error (.outputNotWritten output cause))
    | .ok t => (t, .ok ())

/-- A **build** of a project, with the file tree behind it. -/
def build (options : BuildOptions) (t : FileTree) (c : Config) :
    FileTree × Report BuildFailure BuildReport :=
  if c.outputInSource t.workingDirectory then (t, .fail (.outputInSource c.output c.src))
  else
    let (t, bundled) := bundle options t c
    match bundled.outcome with
    | .error failure => (t, ⟨bundled.warnings, .error failure⟩)
    | .ok finished =>
      let (t, written) := t.writeOutput c.output finished.text
      (t, ⟨bundled.warnings, written.map fun _ =>
        ⟨finished.order, c.output, Text.size finished.text⟩⟩)

/-- A build that would feed on its own output changes nothing, and asks no gate. -/
theorem build_of_outputInSource {options : BuildOptions} {t : FileTree} {c : Config}
    (h : c.outputInSource t.workingDirectory = true) :
    build options t c = (t, .fail (.outputInSource c.output c.src)) := by
  simp [build, h]

end ScriptBundle
