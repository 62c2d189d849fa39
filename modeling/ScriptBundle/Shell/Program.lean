import ScriptBundle.Gate.Command
import ScriptBundle.Shell.Run

/-!
# Running Programs

The runner for the programs that are known: the shell, and those that its scripts use. No file of
the tree is a program.

## Main definitions

* `startDirectory`: the directory in which a program is started;
* `runProgram`: the runner.
-/

namespace ScriptBundle.Shell

/-- The depth to which the commands of a script may lie in one another. -/
def maxDepth : Nat := 2000

/-- The directories in which programs are usually looked for. -/
def usualSearchPath : Text :=
  "/usr/local/sbin:/usr/local/bin:/usr/sbin:/usr/bin:/sbin:/bin".toList

/-- The state in which a program is started, with the variables that it knows. -/
def startState (t : FileTree) (environment : List (Text × Text)) (program : Text) : ShellState :=
  let directory := (Path.ofNames t.workingDirectory).text
  let known : List (Text × Text) :=
    ("PWD".toList, directory) ::
      ("PATH".toList, (environment.lookup "PATH".toList).getD usualSearchPath) ::
      environment.filter (·.1 != "PATH".toList)
  { tree := t, name := encoded program, directory := encoded directory
    bindings := withUsualVariables 99 (known.map fun (name, value) =>
      (encoded name, { value := some (encoded value), isExported := true })) }

/-- The output that a state amounts to. -/
def ShellState.toOutput (s : ShellState) : CommandOutput :=
  ⟨s.status == 0, s.buffers.headD [], s.buffers.tail.headD []⟩

/-- The directory in which a program is started. -/
def startDirectory (t : FileTree) : Option Path → Except FileError FileTree
  | none => .ok t
  | some directory =>
    match t.locate directory with
    | .error cause => .error cause
    | .ok location =>
      if t.isDirectory directory then .ok { t with workingDirectory := location }
      else .error .notADirectory

/-- Why a word that is no known program cannot be run. -/
def missingProgram (t : FileTree) (program : Text) : FileError :=
  if program.any (· == '/') then
    match t.locate ⟨program⟩ with
    | .ok _ => .permissionDenied
    | .error cause => cause
  else if maxNameSize < Text.size program then .nameTooLong
  else .notFound

/-- Why a program cannot be started, or else the file tree in which it is started. -/
def startTree (t : FileTree) (directory : Option Path) (program : Text) (arguments : List Text) :
    Except FileError FileTree := do
  let words := program :: arguments ++ (directory.map Path.text).toList
  if words.any (·.any (· == '\x00')) then .error .nulInCommand
  else
    let started ← startDirectory t directory
    if isProgram (String.ofList (programName program)) then return started
    else .error (missingProgram started program)

/-- Runs one of the **programs**, which knows the variables of an environment. A word with a slash
in it is the path of a file. -/
def runProgram (environment : List (Text × Text)) : CommandRunner :=
  fun t directory program arguments =>
    match startTree t directory program arguments with
    | .error cause => (t, .error cause)
    | .ok started =>
      let run := Evaluator.ofBudget maxDepth
      let (_, s) := Evaluator.runProgram run ((program :: arguments).map encoded)
        (startState started environment program)
      ({ s.tree with workingDirectory := t.workingDirectory }, .ok s.toOutput)

end ScriptBundle.Shell
