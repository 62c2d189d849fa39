import ScriptBundle.FileTree.Walk
import ScriptBundle.Gate.Outcome
import ScriptBundle.Text.Blank
import ScriptBundle.Text.Lossy

/-!
# Commands as Gates

A gate that holds if a command succeeds. What a command does, with the files too, is left to a
runner.

## Main definitions

* `CommandOutput`, `CommandRunner`: what running a command amounts to;
* `LeavesFiles`: the runners that change no file;
* `commandGate`: the gate of a command, with the file tree behind it.

## Main statements

* `commandGate_nil`: without a command the gate never holds;
* `commandGate_tree`: a runner that leaves the files alone makes a gate that does.
-/

namespace ScriptBundle

/-- What is known of a command that has ended. -/
structure CommandOutput where
  succeeded : Bool
  output : List UInt8
  errors : List UInt8
  deriving DecidableEq, Repr

/-- A **runner** runs a program with arguments in a directory, or else in the working directory,
and gives the file tree behind it. An error means that the program was not started. -/
abbrev CommandRunner :=
  FileTree → Option Path → (program : Text) → (arguments : List Text) →
    FileTree × Except FileError CommandOutput

/-- A runner **leaves the files alone** if there is the same file tree behind every command. -/
def LeavesFiles (run : CommandRunner) : Prop :=
  ∀ t directory program arguments, (run t directory program arguments).1 = t

/-- What a failed command says for itself: what it wrote, trimmed, as far as there is
anything. -/
def CommandOutput.diagnostics (o : CommandOutput) : List Text :=
  ([o.output, o.errors].map fun bytes => (Text.ofBytes bytes).trim).filter (!·.isEmpty)

/-- What a command that was run means for its gate. -/
def commandOutcome (name : String) : Except FileError CommandOutput → GateOutcome
  | .ok o => if o.succeeded then .passed name else .failed name (o.diagnostics.map String.ofList)
  | .error cause => .failed name ["failed to run " ++ name ++ ": " ++ cause.message]

/-- The **gate** of a command, with the file tree behind it. -/
def commandGate (run : CommandRunner) (t : FileTree) (command : List Text)
    (directory : Option Path) : FileTree × GateOutcome :=
  match command with
  | [] => (t, .failed "command" ["no command configured"])
  | program :: arguments =>
    let (t, result) := run t directory program arguments
    (t, commandOutcome (String.ofList program) result)

/-- Without a command the gate never holds. -/
theorem commandGate_nil (run : CommandRunner) (t : FileTree) (directory : Option Path) :
    (commandGate run t [] directory).2.holds = false := rfl

/-- A runner that leaves the files alone makes a gate that does. -/
theorem commandGate_tree {run : CommandRunner} (h : LeavesFiles run) (t : FileTree)
    (command : List Text) (directory : Option Path) :
    (commandGate run t command directory).1 = t := by
  cases command with
  | nil => rfl
  | cons program arguments => exact h t directory program arguments

end ScriptBundle
