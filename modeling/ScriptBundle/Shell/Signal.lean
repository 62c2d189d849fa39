import ScriptBundle.Shell.Byte
import ScriptBundle.Text.Numeral

/-!
# Signals

The signals that scripts send and catch: their numbers, their names, what becomes of a script that
does not catch them, and what is said of it.

## Main definitions

* `Signal.name`, `Signal.number?`: the name of a number and the number of a name;
* `Signal.ends`: whether a signal ends a script;
* `Signal.words?`: what is said of a script that a signal has ended.

## Main statements

* `Signal.number?_name`: a signal is found by its name.
-/

namespace ScriptBundle.Shell.Signal

/-- The names of the signals from one on, and what they mean. -/
def table : List (String × String) :=
  [("HUP", "Hangup"), ("INT", "Interrupt"), ("QUIT", "Quit"), ("ILL", "Illegal instruction"),
    ("TRAP", "Trace/breakpoint trap"), ("ABRT", "Aborted"), ("BUS", "Bus error"),
    ("FPE", "Floating point exception"), ("KILL", "Killed"), ("USR1", "User defined signal 1"),
    ("SEGV", "Segmentation fault"), ("USR2", "User defined signal 2"), ("PIPE", "Broken pipe"),
    ("ALRM", "Alarm clock"), ("TERM", "Terminated"), ("16", "Stack fault"),
    ("CHLD", "Child exited"), ("CONT", "Continued"), ("STOP", "Stopped (signal)"),
    ("TSTP", "Stopped"), ("TTIN", "Stopped (tty input)"), ("TTOU", "Stopped (tty output)"),
    ("URG", "Urgent I/O condition"), ("XCPU", "CPU time limit exceeded"),
    ("XFSZ", "File size limit exceeded"), ("VTALRM", "Virtual timer expired"),
    ("PROF", "Profiling timer expired"), ("WINCH", "Window changed"), ("IO", "I/O possible"),
    ("PWR", "Power failure"), ("SYS", "Bad system call"), ("32", "Unknown signal 32"),
    ("33", "Unknown signal 33")]

/-- The number of signals, with the one that stands for the end of a script. -/
def count : Nat := 65

/-- The first of the signals that are known by their distance from the first and from the last. -/
def firstOfRange : Nat := 34

/-- The **name** of a signal. -/
def name (number : Nat) : String :=
  if number = 0 then "EXIT"
  else
    match table[number - 1]? with
    | some (name, _) => name
    | none =>
      if number = firstOfRange then "RTMIN"
      else if number < 50 then "RTMIN+" ++ toString (number - firstOfRange)
      else if number = count - 1 then "RTMAX"
      else "RTMAX-" ++ toString (count - 1 - number)

/-- What a signal means. -/
def words (number : Nat) : String :=
  match table[number - 1]? with
  | some (_, words) => words
  | none => "Real-time signal " ++ toString (number - firstOfRange)

/-- The **number** of a signal that is told by its number or by its name, from `least` on. -/
def number? (least : Nat) (s : Text) : Option Nat :=
  match Text.number? 10 s with
  | some n => if n < count then some n else none
  | none =>
    let wanted := String.ofList (s.map Char.toUpper)
    ((List.range count).drop least).find? fun n => name n == wanted

/-- A signal is found by its name. -/
theorem number?_name : ∀ n < count, number? 0 (name n).toList = some n := by decide +kernel

/-- Whether a signal **ends** a script that does not catch it. -/
def ends (number : Nat) : Bool := !([0, 17, 18, 23, 28] : List Nat).contains number

/-- What is said of a script that a signal has ended, if anything. -/
def words? (number : Nat) : Option String :=
  if number = 2 ∨ number = 13 then none else some (words number)

end ScriptBundle.Shell.Signal
