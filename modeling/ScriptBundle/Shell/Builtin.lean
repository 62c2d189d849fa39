import ScriptBundle.Path.Normal
import ScriptBundle.Shell.Builtin.Job
import ScriptBundle.Shell.Builtin.Setting
import ScriptBundle.Shell.Conditional

/-!
# Builtin Commands

The commands that are part of the shell and do not run further commands. Their complaints start with
their names.

## Main definitions

* `Builtin.ofName?`: the builtin command of a name;
* `Builtin.confined`: a command whose errors do not end the script;
* `Builtin.readLine`: a line of input;
* `Builtin.splitInput`: a line in as many fields as are asked for.
-/

namespace ScriptBundle.Shell

namespace Builtin

/-! ### Output and conditions -/

/-- The command `printf`. -/
def printf (arguments : List Text) : Action Unit := do
  let (_, operands) ← takeOptions "" "" arguments
  match operands with
  | [] => Action.abort "usage: printf format [arg ...]".toList
  | format :: rest =>
    let p := Shell.printf format rest
    p.complaints.forM fun words => Action.complain words 1
    Action.write p.bytes
    match p.failure with
    | some words => Action.abort words
    | none => Action.setTruth p.complaints.isEmpty

/-- The command `test`. -/
def test (operands : List Text) : Action Unit := do
  match testOperands (← get) operands with
  | .ok holds => Action.setTruth holds
  | .error words => Action.abort words

/-- The command `[`. -/
def bracket (operands : List Text) : Action Unit :=
  if operands.getLast? = some [']'] then test operands.dropLast
  else Action.abort "missing ]".toList

/-! ### Directories -/

/-- Goes to a directory that is there, whose name is shown if it was not asked for by name. Links on
the way to it are followed where the directory is `physical`. -/
def goTo (isPhysical : Bool) (destination : Path) (workingDirectory : Location) (isShown : Bool) :
    Action Unit := do
  let s ← get
  let path := if isPhysical then Path.ofNames workingDirectory else destination
  modify fun s => { s with
    tree := { s.tree with workingDirectory }, directory := encoded path.text }
  modify fun after =>
    (after.assign "OLDPWD".toList s.directory).assign "PWD".toList (encoded path.text)
  if isShown then Action.writeLine (encoded path.text)
  Action.setStatus 0

/-- The location of a directory and the path that leads there, seen from where the script is. -/
def directory? (s : ShellState) (isPhysical : Bool) (target : Text) : Option (Path × Location) :=
  let joined := (scriptPath s.directory).join (scriptPath target)
  let destination := if isPhysical then joined else joined.normalize
  match s.tree.locate destination, s.tree.isDirectory destination with
  | .ok location, true => some (destination, location)
  | _, _ => none

/-- The directories in which a target is looked for, with whether they are those of a list. -/
def searchedFor (s : ShellState) (target : Text) : List (Text × Bool) :=
  let isFixed := match splitSlashes target with
    | first :: _ => first.isEmpty || first == ['.'] || first == ['.', '.']
    | [] => true
  match if isFixed then none else s.variableValue? "CDPATH".toList with
  | none => [(target, false)]
  | some path =>
    (FileCommand.partsBetween ':' path).map (fun directory =>
      if directory.isEmpty then (target, false) else (directory ++ '/' :: target, true)) ++
      [(target, false)]

/-- The command `cd`. -/
def cd (arguments : List Text) : Action Unit := do
  let (options, operands) ← takeOptions "LP" "" arguments
  let isPhysical := (options.getLast?.map Prod.fst) == some 'P'
  let s ← get
  let (target, isShown) := match operands with
    | [] => ((s.variableValue? "HOME".toList).getD [], false)
    | ['-'] :: _ => ((s.variableValue? "OLDPWD".toList).getD [], true)
    | target :: _ => (target, false)
  let found? := (searchedFor s target).findSome? fun (path, isListed) =>
    (directory? s isPhysical path).map ((·, isListed))
  match found? with
  | some ((destination, location), isListed) =>
    goTo isPhysical destination location (isShown || isListed)
  | none => Action.abort ("can't cd to ".toList ++ target)

/-- The command `pwd`. -/
def pwd (arguments : List Text) : Action Unit := do
  let (options, _) ← takeOptions "LP" "" arguments
  let s ← get
  let isPhysical := (options.getLast?.map Prod.fst) == some 'P'
  let physical := encoded (Path.ofNames s.tree.workingDirectory).text
  Action.writeLine (if isPhysical then physical else s.directory)
  Action.setStatus 0

/-! ### Input -/

/-- A line of input, what is behind it, and whether it had an end. Unless it is raw, a backslash
takes the meaning from a character. -/
def readLine (isRaw : Bool) : List UInt8 → List (UInt8 × Bool) × List UInt8 × Bool
  | [] => ([], [], false)
  | b :: rest =>
    if b = 0x0A then ([], rest, true)
    else if b = 0x5C ∧ !isRaw then
      match rest with
      | [] => ([], [], false)
      | c :: rest =>
        let (line, behind, isEnded) := readLine isRaw rest
        (if c = 0x0A then line else (c, true) :: line, behind, isEnded)
    else
      let (line, behind, isEnded) := readLine isRaw rest
      ((b, false) :: line, behind, isEnded)

/-- Bytes as characters of which some stand for themselves. -/
def glyphsOf (bytes : List (UInt8 × Bool)) : Pattern :=
  bytes.map fun (b, isQuoted) => ⟨Char.ofNat b.toNat, isQuoted⟩

/-- A line in at most as many fields as are asked for. The last one is all that is left. -/
def splitInput (separators : Text) : (count : Nat) → Pattern → List Text
  | 0, _ => []
  | count + 1, line =>
    let isSeparator (g : Glyph) : Bool := !g.isQuoted && decide (g.char ∈ separators)
    let isSpace (g : Glyph) : Bool := isSeparator g && " \t\n".toList.contains g.char
    let line := line.dropWhile isSpace
    if count = 0 then [Pattern.text (line.reverse.dropWhile isSpace).reverse]
    else
      let field := line.takeWhile (!isSeparator ·)
      let behind := (line.drop field.length).dropWhile isSpace
      let behind := match behind with
        | g :: rest => if isSeparator g then rest else behind
        | [] => []
      Pattern.text field :: splitInput separators count behind

/-- The command `read`. No prompt is shown, since nobody is there to read it. -/
def read (arguments : List Text) : Action Unit := do
  let (options, names) ← takeOptions "r" "p" arguments
  if names.isEmpty then Action.abort "arg count".toList
  let isRaw := options.any (·.1 == 'r')
  let s ← get
  let (bytes, behind, isEnded) := readLine isRaw s.input.bytes
  modify (·.leaveInput behind)
  let fields := splitInput s.separators names.length (glyphsOf bytes)
  (names.zip fields).forM fun (name, value) => do
    checkName name
    Action.assign name value
  Action.setTruth isEnded

/-! ### Ways out -/

/-- The command `exit`, which leaves the script. Without a status it leaves with the one of the last
command, which is the one in front of a signal's script. -/
def exit (arguments : List Text) : Action Unit := do
  match arguments with
  | [] =>
    match (← get).interrupted with
    | some status => Action.setStatus status
    | none => pure ()
  | argument :: _ => Action.setStatus ((← number argument) % 256)
  throw .exit

/-- The command `return`, which leaves a function or a file. -/
def leaveFunction (arguments : List Text) : Action Unit := do
  match arguments with
  | [] => pure ()
  | argument :: _ => Action.setStatus (← number argument)
  throw .return

/-- Leaves as many loops as are asked for, as far as there are any. -/
def leaveLoops (jump : Nat → Jump) (arguments : List Text) : Action Unit := do
  let count ← match arguments with
    | [] => pure 1
    | argument :: _ =>
      let n ← number argument
      if n = 0 then Action.abort ("Illegal number: ".toList ++ argument)
      pure n
  Action.setStatus 0
  match min count (← get).loops with
  | 0 => pure ()
  | n + 1 => throw (jump n)

/-- The command `times`, which tells that no time has been taken. -/
def times (_ : List Text) : Action Unit := do
  Action.writeLine "0m0.000000s 0m0.000000s".toList
  Action.writeLine "0m0.000000s 0m0.000000s".toList
  Action.setStatus 0

/-! ### All of them -/

/-- The builtin command of a name. -/
def ofName? (name : String) : Option (List Text → Action Unit) :=
  match name with
  | ":" => some fun _ => Action.setStatus 0
  | "true" => some fun _ => Action.setStatus 0
  | "false" => some fun _ => Action.setStatus 1
  | "echo" => some fun arguments => do
    Action.write (echoOutput arguments)
    Action.setStatus 0
  | "printf" => some printf
  | "test" => some test
  | "[" => some bracket
  | "cd" => some cd
  | "pwd" => some pwd
  | "read" => some read
  | "export" => some exportNames
  | "readonly" => some readonly
  | "local" => some makeLocal
  | "unset" => some unset
  | "alias" => some setAliases
  | "unalias" => some unalias
  | "set" => some set
  | "shift" => some shift
  | "getopts" => some getopts
  | "umask" => some umask
  | "ulimit" => some ulimit
  | "exit" => some exit
  | "return" => some leaveFunction
  | "break" => some (leaveLoops .behind)
  | "continue" => some (leaveLoops .again)
  | "kill" => some kill
  | "trap" => some trap
  | "wait" => some wait
  | "jobs" => some jobs
  | "fg" => some refuseJob
  | "bg" => some refuseJob
  | "times" => some times
  | _ => none

/-- The builtin commands that run further commands or tell of commands. -/
def runningNames : List String := [".", "command", "eval", "exec", "hash", "type"]

/-- Whether a name is the one of a builtin command. -/
def isKnown (name : String) : Bool := (ofName? name).isSome || runningNames.contains name

/-! ### Around a command -/

/-- A step whose **errors** do not go beyond it. -/
def confined (body : Action Unit) : Action Unit :=
  tryCatch body fun
    | .fault => pure ()
    | jump => throw jump

/-- A builtin command, whose complaints start with its name. It fails if its output is lost. -/
def named (name : Text) (body : Action Unit) : Action Unit :=
  Action.labelled (name ++ ": ".toList) do
    modify fun s => { s with lost := none }
    body
    if (← get).lost.isSome then Action.complain (name ++ ": I/O error".toList) 1

end Builtin

end ScriptBundle.Shell
