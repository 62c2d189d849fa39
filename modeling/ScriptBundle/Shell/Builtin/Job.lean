import ScriptBundle.Shell.Builtin.Option
import ScriptBundle.Shell.Scope

/-!
# Jobs and Signals

The builtin commands that send and catch signals and wait for jobs. A job has come to its end before
the script goes on.

## Main definitions

* `Builtin.kill`: sends signals;
* `Builtin.trap`: catches signals;
* `Builtin.wait`: waits for jobs;
* `Builtin.refuseJob`: the commands that need control over jobs.

## Main statements

* `Builtin.isReachable_number`: a script reaches itself.
-/

namespace ScriptBundle.Shell.Builtin

/-! ### Sending signals -/

/-- Whether a number is the one of the script, of a program around it, or of a job. -/
def isReachable (s : ShellState) (number : Nat) : Bool :=
  number == s.number || s.parents.contains number ||
    s.jobs.any fun job => job.number == number && !job.isAwaited

/-- A script reaches itself. -/
theorem isReachable_number (s : ShellState) : isReachable s s.number = true := by
  simp [isReachable]

/-- Gives up a command that names a job which is not there. -/
def missingJob (target : Text) : Action α := Action.abort ("No such job: ".toList ++ target)

/-- A job that a signal has ended. -/
def Job.endedBy (job : Job) (signal : Nat) : Job :=
  if signal = 0 ∨ job.isAwaited then job
  else { job with status := 128 + signal, signal := some signal }

/-- Sends a signal to a number or to a job. -/
def sendSignal (signal : Nat) (target : Text) : Action Unit := do
  if target.head? = some '%' then missingJob target
  let number ← number (if target.head? = some '-' then target.tail else target)
  let s ← get
  if target.head? = some '-' || !isReachable s number then
    Action.complain "No such process\n".toList 1
  else
    modify fun s => { s with
      jobs := s.jobs.map fun job => if job.number == number then Job.endedBy job signal else job
      sent := if signal = 0 ∨ s.jobs.any (·.number == number) then s.sent
        else s.sent ++ [(number, signal)] }

/-- What is said where `kill` is given the wrong arguments. -/
def killUsage : String :=
  "Usage: kill [-s sigspec | -signum | -sigspec] [pid | job]... or\nkill -l [exitstatus]"

/-- Lists the signals, or names the one that a number or a status stands for. -/
def listSignals : List Text → Action Unit
  | [] => (['0'] :: ((List.range Signal.count).drop 1).map fun n => (Signal.name n).toList).forM
      Action.writeLine
  | operand :: _ => do
    let n ← number operand
    let n := if 128 < n then n - 128 else n
    if 0 < n ∧ n < Signal.count then Action.writeLine (Signal.name n).toList
    else Action.abort ("invalid signal number or exit status: ".toList ++ operand)

/-- The command `kill`. -/
def kill (arguments : List Text) : Action Unit := do
  if arguments.isEmpty then Action.abort killUsage.toList
  let named? : Option Nat := match arguments with
    | ('-' :: name) :: _ => Signal.number? 1 name
    | _ => none
  let (options, operands) ← match named? with
    | some n => pure ([('s', Nat.toDigits 10 n)], arguments.tail)
    | none => takeOptions "l" "s" arguments
  let isList := options.any (·.1 == 'l')
  let signals ← options.filterMapM fun (letter, value) => do
    if letter = 'l' then return none
    match Signal.number? 1 value with
    | some n => return some n
    | none => Action.abort ("invalid signal number or name: ".toList ++ value)
  if isList then
    if !signals.isEmpty then Action.abort killUsage.toList
    listSignals operands
    Action.setStatus 0
  else
    if operands.isEmpty then Action.abort killUsage.toList
    Action.setStatus 0
    operands.forM (sendSignal (signals.getLast?.getD 15))
    Action.receive

/-! ### Catching signals -/

/-- Lists the scripts to be run at signals. -/
def listTraps : Action Unit := do
  let s ← get
  (List.range Signal.count).forM fun n => do
    match s.traps.lookup n with
    | some script =>
      Action.writeLine ("trap -- ".toList ++ inSingleQuotes script ++ ' ' :: (Signal.name n).toList)
    | none => pure ()

/-- Has a script run at each of some signals, or nothing more than usual. -/
def setTraps (script? : Option Text) : List Text → Action Unit
  | [] => Action.setStatus 0
  | operand :: rest => do
    match Signal.number? 0 operand with
    | some n =>
      modify fun s =>
        let others := s.traps.filter (·.1 != n)
        { s with traps := (script?.map ((n, ·))).toList ++ others }
      setTraps script? rest
    | none =>
      Action.writeError ("trap: ".toList ++ operand ++ ": bad trap".toList)
      Action.setStatus 1

/-- The command `trap`. -/
def trap (arguments : List Text) : Action Unit := do
  let (_, operands) ← takeOptions "" "" arguments
  let isNumber (s : Text) : Bool := (Text.number? 10 s).any (· < Signal.count)
  match operands with
  | [] =>
    listTraps
    Action.setStatus 0
  | [operand] => setTraps none [operand]
  | first :: rest =>
    if isNumber first then setTraps none operands
    else setTraps (if first = ['-'] then none else some first) rest

/-! ### Waiting -/

/-- Waits for the job with a number, and tells its status. -/
def waitFor (status : Nat) (target : Text) : Action Nat := do
  if target.head? = some '%' then missingJob target
  let number ← number target
  match (← get).jobs.find? (·.number == number) with
  | none => return status
  | some job =>
    match if job.isAwaited then none else job.signal.bind Signal.words? with
    | some words => Action.writeError words.toList
    | none => pure ()
    modify fun s => { s with
      jobs := s.jobs.map fun job =>
        if job.number == number then { job with isAwaited := true } else job }
    return job.status

/-- The command `wait`. -/
def wait (arguments : List Text) : Action Unit := do
  let (_, operands) ← takeOptions "" "" arguments
  if operands.isEmpty then
    modify fun s => { s with jobs := s.jobs.map fun job => { job with isAwaited := true } }
    Action.setStatus 0
  else Action.setStatus (← operands.foldlM waitFor 127)

/-- The command `jobs`. No job is running. -/
def jobs (arguments : List Text) : Action Unit := do
  let (_, operands) ← takeOptions "lp" "" arguments
  match operands with
  | target :: _ => missingJob target
  | [] => Action.setStatus 0

/-- A command that needs control over jobs, which no script has. -/
def refuseJob (arguments : List Text) : Action Unit := do
  let (_, operands) ← takeOptions "" "" arguments
  match operands with
  | target :: _ => missingJob target
  | [] => Action.abort "No current job".toList

end ScriptBundle.Shell.Builtin
