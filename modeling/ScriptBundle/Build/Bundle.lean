import ScriptBundle.Build.Failure
import ScriptBundle.Document.Concatenation
import ScriptBundle.Gate.Configured
import ScriptBundle.Source.Resolution

/-!
# Bundles

The text that a build produces, before it is written anywhere.

## Main definitions

* `BuildOptions`: how a build is asked for, beside its configuration;
* `checkGates`: asks the gates of a configuration;
* `bundle`: the text of a project, and the modules in it.

## Main statements

* `checkGates_of_no_gates`: without gates nothing is looked at;
* `bundle_tree`: where commands leave the files alone, there is the same file tree behind a bundle.
-/

namespace ScriptBundle

/-- What a build needs beside files and configuration. -/
structure BuildOptions where
  run : CommandRunner
  /-- The time of the build. -/
  now : Moment
  /-- Whether no gate is asked. -/
  skipChecks : Bool := false
  /-- Which texts are accepted as scripts. -/
  accepts : Text → Bool := isScript

/-- A **bundle** is the text of a project and the relative paths of the modules in it, in
order. -/
structure Bundle where
  text : Text
  order : List String
  deriving DecidableEq, Repr

namespace Config

/-- Which files are modules. -/
def sourceRule (c : Config) : SourceRule := ⟨c.extension, c.exclude⟩

/-- How documents look. -/
def documentStyle (c : Config) : DocumentStyle := ⟨c.metadataModule, c.indentWidth⟩

/-- What a build at a given time knows about itself. -/
def buildContext (c : Config) (now : Moment) (order : List String) : BuildContext :=
  let context : BuildContext :=
    { version := c.version, branch := c.branch, outputPath := c.output, timestamp := now,
      sourceFiles := order }
  match c.releaseUrl with
  | some base => context.releasedAt base
  | none => context

end Config

/-- Asks the gates of a configuration. Only if there are any, modules are looked for, and that
before any of them is asked. -/
def checkGates (run : CommandRunner) (t : FileTree) (c : Config) :
    FileTree × Except BuildFailure Unit :=
  if c.gates.isEmpty then (t, .ok ())
  else
    match t.sourceFiles c.sourceRule c.src with
    | .error error => (t, .error (.stage error))
    | .ok files =>
      match firstFailure? run t files c.gates with
      | (t, some outcome) => (t, .error (.gate outcome))
      | (t, none) => (t, .ok ())

/-- The gates of a build, unless they are skipped. -/
def BuildOptions.check (options : BuildOptions) (t : FileTree) (c : Config) :
    FileTree × Except BuildFailure Unit :=
  if options.skipChecks then (t, .ok ()) else checkGates options.run t c

/-- The **bundle** of a project that needs no further check. -/
def uncheckedBundle (accepts : Text → Bool) (now : Moment) (t : FileTree) (c : Config) :
    Report BuildFailure Bundle := do
  let modules ← Report.ofExcept ((resolve t c.sourceRule c.src).mapError .stage)
  let order := modules.map ModuleRecord.relativePath
  let context := c.buildContext now order
  let text ← (concatenate accepts c.documentStyle modules context).mapError .stage
  return ⟨text, order⟩

/-- The **bundle** of a project, with the file tree behind its gates. -/
def bundle (options : BuildOptions) (t : FileTree) (c : Config) :
    FileTree × Report BuildFailure Bundle :=
  match options.check t c with
  | (t, .error failure) => (t, .fail failure)
  | (t, .ok ()) => (t, uncheckedBundle options.accepts options.now t c)

/-- Without gates nothing is looked at. -/
theorem checkGates_of_no_gates {run : CommandRunner} {t : FileTree} {c : Config}
    (h : c.gates = []) : checkGates run t c = (t, .ok ()) := by
  simp [checkGates, h]

/-- Where commands leave the files alone, gates do. -/
theorem checkGates_tree {run : CommandRunner} (h : LeavesFiles run) (t : FileTree) (c : Config) :
    (checkGates run t c).1 = t := by
  unfold checkGates
  split
  · rfl
  · split
    · rfl
    · next files _ =>
      have := firstFailure?_tree h t files c.gates
      split <;> simp_all

/-- Where commands leave the files alone, there is the same file tree behind a bundle. -/
theorem bundle_tree {options : BuildOptions} (h : LeavesFiles options.run) (t : FileTree)
    (c : Config) : (bundle options t c).1 = t := by
  have hcheck : (options.check t c).1 = t := by
    unfold BuildOptions.check
    split
    · rfl
    · exact checkGates_tree h t c
  unfold bundle
  split <;> simp_all

end ScriptBundle
