import ScriptBundle.Build.Output
import ScriptBundle.CommandLine.Request
import ScriptBundle.Config.Location

/-!
# Answers

What the program does about its arguments.

## Main definitions

* `Answer`: the exit status of the program, and what it prints;
* `Answer.ofBuild`: the answer to a build;
* `runArguments`: the effect of the program on a file tree, and its answer.

## Main statements

* `runArguments_of_usage`: arguments that ask for nothing change nothing.
-/

namespace ScriptBundle

/-- An **answer** of the program. -/
structure Answer where
  exitStatus : Nat
  output : String
  errors : String
  deriving DecidableEq, Repr

/-- The name and the version of the program. -/
def programVersion : String := "scriptweld 0.1.0"

/-- How the program is called. -/
def usage : String :=
  String.intercalate "\n"
    ["Bundle ES modules into a single userscript", "",
     "Usage: scriptweld [OPTIONS]", "",
     "Options:",
     "  -c, --config <CONFIG>        Configuration file",
     "      --src <SRC>              Source root to bundle",
     "  -o, --output <OUTPUT>        Output file",
     "      --set-version <VERSION>  Version substituted into the header",
     "      --branch <BRANCH>        Release branch used for update and download URLs",
     "  -w, --watch                  Rebuild whenever a source file changes",
     "      --skip-checks            Skip lint and size-policy gates",
     "  -v, --verbose...             Increase verbosity",
     "  -h, --help                   Print help",
     "  -V, --version                Print version"]

/-- The settings of a configuration, where the arguments do not give others. -/
def Overrides.apply (o : Overrides) (c : Config) : Config :=
  { c with
    src := o.src.getD c.src
    output := o.output.getD c.output
    version := o.version.getD c.version
    branch := o.branch.getD c.branch }

/-- The part of the program that a warning comes from. -/
def Warning.origin : Warning → String
  | .repeatedField _ => "metadata"
  | .unresolvedField _ => "metadata"
  | .repeatedModule _ => "module_graph"

/-- A text whose lines behind the first one are indented. -/
def hanging (s : String) : String :=
  String.intercalate "\n    " ((Text.lines s.toList).map String.ofList)

/-- The line by which the program reports a warning. -/
def Warning.logLine (w : Warning) : String :=
  "[WARN  scriptweld::" ++ w.origin ++ "] " ++ hanging w.message ++ "\n"

/-- The line by which the program reports that it failed. -/
def errorLine (message : String) : String := "error: " ++ message ++ "\n"

/-- The line by which the program reports a build. -/
def BuildReport.line (r : BuildReport) : String :=
  "Wrote " ++ r.outputPath.toString ++ " (" ++ toString r.modules.length ++ " modules, " ++
    toString r.bytes ++ " bytes)\n"

namespace Answer

/-- The answer to a build. -/
def ofBuild (report : Report BuildFailure BuildReport) : Answer :=
  let warnings := String.join (report.warnings.map Warning.logLine)
  match report.outcome with
  | .ok r => ⟨0, r.line, warnings⟩
  | .error failure => ⟨1, "", warnings ++ errorLine failure.chain⟩

/-- The answer to arguments that ask for nothing. -/
def ofUsage : Answer :=
  ⟨2, "", errorLine "the arguments cannot be used" ++ "\n" ++ usage ++ "\n"⟩

end Answer

/-- The configuration of a build, as the arguments ask for it. -/
def Overrides.load (o : Overrides) (user : UserDirectories) (t : FileTree) :
    Except ConfigError Config :=
  (Config.load t user o.config).map o.apply

/-- The answer to a configuration that cannot be used. -/
def Answer.ofConfigError (e : ConfigError) : Answer := ⟨1, "", errorLine e.message⟩

/-- Builds once, as the arguments ask for it. -/
def buildOnce (run : CommandRunner) (now : Moment) (user : UserDirectories) (t : FileTree)
    (o : Overrides) : FileTree × Answer :=
  match o.load user t with
  | .error e => (t, .ofConfigError e)
  | .ok c =>
    let (t, report) := build { run, now, skipChecks := o.skipChecks } t c
    (t, .ofBuild report)

/-- The effect of the program on a file tree, and its **answer**. -/
def runArguments (run : CommandRunner) (now : Moment) (user : UserDirectories) (t : FileTree)
    (arguments : List Text) : FileTree × Answer :=
  match Request.ofArguments? arguments with
  | none => (t, .ofUsage)
  | some .help => (t, ⟨0, usage ++ "\n", ""⟩)
  | some .version => (t, ⟨0, programVersion ++ "\n", ""⟩)
  | some (.build o) => buildOnce run now user t o

/-- Arguments that ask for nothing change nothing. -/
theorem runArguments_of_usage {run : CommandRunner} {now : Moment} {user : UserDirectories}
    {t : FileTree} {arguments : List Text} (h : Request.ofArguments? arguments = none) :
    runArguments run now user t arguments = (t, .ofUsage) := by
  simp [runArguments, h]

end ScriptBundle
