import ScriptBundle.Shell.Calculation
import ScriptBundle.Shell.Column
import ScriptBundle.Shell.Comparison
import ScriptBundle.Shell.Dump
import ScriptBundle.Shell.Editor.Run
import ScriptBundle.Shell.FileCommand
import ScriptBundle.Shell.Launching
import ScriptBundle.Shell.Naming
import ScriptBundle.Shell.Search
import ScriptBundle.Shell.Sorting

/-!
# The Catalog of Programs

The programs that are in the directories of the system, by their names.

## Main definitions

* `program?`: the program of a name, among those that work by themselves;
* `isProgram`: whether there is a program of a name;
* `programName`: the name of a program, without its directory;
* `reportLoss`: what a program says of output that it has lost.

## Main statements

* `programName_append`: a program may be called by its path.
-/

namespace ScriptBundle.Shell

/-- The **program** of a name. -/
def program? (name : String) : Option Program :=
  if name = "grep" then some grep
  else if name = "sed" then some sed
  else
    let families := [Filter.ofName?, FileCommand.ofName?, Naming.ofName?, Sorting.ofName?,
      Column.ofName?, Calculation.ofName?, Dump.ofName?, Comparison.ofName?, Surroundings.ofName?]
    families.findSome? (· name)

/-- The name of a program, without the directory of the system that it is in. -/
def programName (name : Text) : Text :=
  let found? := ["/bin/", "/usr/bin/"].findSome? fun directory =>
    if directory.toList.isPrefixOf name then some (name.drop directory.length) else none
  found?.getD name

/-- A program may be called by its path. -/
theorem programName_append (name : Text) : programName ("/bin/".toList ++ name) = name := rfl

/-- The names of the builtin commands that there are programs for, too. -/
def builtinPrograms : List String :=
  ["true", "false", "printf", "pwd", "test", "[", "kill"]

/-- Whether there is a program of a name. -/
def isProgram (name : String) : Bool :=
  (program? name).isSome || (Launching.ofName? (fun _ => return none) name).isSome ||
    name == "sh" || name == "which" || builtinPrograms.contains name

/-- What a program says of output that it has lost, and its status. -/
def lossWords (name : String) (loss : OutputLoss) : List String × Nat :=
  let usual := "write error: " ++ loss.words
  match name with
  | "cat" =>
    (if loss = .isClosed then ["standard output: " ++ loss.words] else [usual], 1)
  | "diff" => (["standard output: " ++ loss.words], 2)
  | "env" => ([usual], 125)
  | "expr" => ([usual], 3)
  | "find" =>
    (["'standard output': " ++ loss.words, if loss = .isClosed then usual else "write error"], 1)
  | "grep" => ([usual], 2)
  | "ls" => ([usual], 2)
  | "printenv" => ([usual], 2)
  | "sed" =>
    (["couldn't " ++ (if loss = .isClosed then "close" else "flush") ++ " stdout: " ++ loss.words],
      4)
  | "sort" => (["fflush failed: 'standard output': " ++ loss.words, "write error"], 2)
  | "yes" => (["standard output: " ++ loss.words], 1)
  | _ => ([usual], 1)

/-- Reports that a program has lost output, and fails. -/
def reportLoss (name : String) (loss : OutputLoss) : Action Unit := do
  (lossWords name loss).1.forM fun words => Program.report name words.toList
  Action.setStatus (lossWords name loss).2

end ScriptBundle.Shell
