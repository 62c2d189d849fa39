import ScriptBundle.FileTree.Change
import ScriptBundle.Shell.Printing
import ScriptBundle.Shell.Script
import ScriptBundle.Text.Order

/-!
# Shell States

What a running script knows and has written. A script works on a file tree of its own, which is
handed on when it ends.

## Main definitions

* `ShellState`: the state of a running script;
* `Channel`, `OutputLoss`, `Job`, `settings`: what a state is made of;
* `Jump`: how a script leaves its present command;
* `Action`: a step of a script;
* `Action.write`, `Action.complain`: the output of a step.

## Main statements

* `ShellState.assign_value?`: a variable has the value that it was given.
-/

namespace ScriptBundle.Shell

/-- A **variable** of a script, which may be declared without a value. -/
structure Variable where
  value : Option Text
  isConstant : Bool := false
  /-- Whether further scripts know the variable too. -/
  isExported : Bool := false
  deriving DecidableEq, Repr

/-- Where a descriptor leads. -/
inductive Channel where
  /-- To one of the buffers of the state. -/
  | buffer (index : Nat)
  /-- To the end of a file. -/
  | file (location : Location)
  | nowhere
  /-- To a device without space. -/
  | full
  /-- From one of the sources of the state. -/
  | source (index : Nat)
  deriving DecidableEq, Repr

/-- Why output is **lost**. -/
inductive OutputLoss where
  | isClosed
  | isFull
  deriving DecidableEq, Repr

/-- What is said of lost output. -/
def OutputLoss.words : OutputLoss → String
  | isClosed => "Bad file descriptor"
  | isFull => "No space left on device"

/-- What is left to be read from somewhere. -/
structure Source where
  bytes : List UInt8 := []
  /-- Whether it comes from a file. -/
  isFile : Bool := false
  deriving DecidableEq, Repr

/-- The settings of a script in the order in which they are listed, with their letters. -/
def settings : List (String × Option Char) :=
  [("errexit", some 'e'), ("noglob", some 'f'), ("ignoreeof", some 'I'),
    ("interactive", some 'i'), ("monitor", some 'm'), ("noexec", some 'n'), ("stdin", some 's'),
    ("xtrace", some 'x'), ("verbose", some 'v'), ("vi", some 'V'), ("emacs", some 'E'),
    ("noclobber", some 'C'), ("allexport", some 'a'), ("notify", some 'b'),
    ("nounset", some 'u'), ("privileged", some 'p'), ("nolog", none), ("debug", none)]

/-- A **job**, which was run in the background. -/
structure Job where
  number : Nat
  status : Nat
  /-- The signal that has ended it. -/
  signal : Option Nat := none
  /-- Whether the script has waited for its end. -/
  isAwaited : Bool := false
  deriving DecidableEq, Repr

/-- The **state** of a running script. -/
structure ShellState where
  tree : FileTree
  name : Text
  /-- The line of the present command. -/
  line : Nat := 1
  /-- What stands in front of all complaints. -/
  label : Text := []
  arguments : List Text := []
  bindings : List (Text × Variable) := []
  functions : List (Text × Command) := []
  /-- The directory, as the script went to it. -/
  directory : Text
  status : Nat := 0
  /-- What was written: output, errors and then whatever is being collected. -/
  buffers : List (List UInt8) := [[], []]
  sources : List Source := [{}]
  channels : List (Nat × Channel) := [(0, .source 0), (1, .buffer 0), (2, .buffer 1)]
  /-- The names of the settings that are on. -/
  options : List String := []
  /-- The scripts to be run at a signal, or at the end, which counts as number zero. A signal with
  an empty script is ignored. -/
  traps : List (Nat × Text) := []
  /-- The status in front of the script that is run at a signal. -/
  interrupted : Option Nat := none
  /-- The number that the script goes by. -/
  number : Nat := 100
  /-- The numbers of the programs around the script, the nearest one first. -/
  parents : List Nat := [99]
  /-- The last number that was given to a script or to a job. -/
  lastNumber : Nat := 100
  /-- Whether what is run is apart from the script that goes by the number. -/
  isApart : Bool := false
  /-- The signals that were sent to scripts by their numbers and have not reached them. -/
  sent : List (Nat × Nat) := []
  /-- The signals that have reached the script and whose scripts are to be run. -/
  caught : List Nat := []
  /-- The jobs, the latest one first. -/
  jobs : List Job := []
  /-- The programs that were found, with their paths. -/
  found : List (Text × Text) := []
  /-- The words that stand for others. -/
  aliases : List (Text × Text) := []
  /-- The place of the next argument to be read for options, and how much of the one before it has
  been read, if it holds more options. -/
  optionPlace : Nat × Option Nat := (1, none)
  /-- Why output was lost, if it was. -/
  lost : Option OutputLoss := none
  /-- What the variables were that a function has made its own, inside of functions. -/
  saved : Option (List (Text × Option Variable)) := none
  /-- What the settings were that a function has made its own. -/
  savedOptions : Option (List String) := none
  /-- The number of loops around the present command. -/
  loops : Nat := 0
  /-- The status of the script that was last run for its output. -/
  substituted : Option Nat := none
  /-- The permissions that were given to files. -/
  permissions : List (Location × Nat) := []
  /-- The permissions that new files do not have. -/
  withheld : Nat := 18
  /-- The limits that were set, by their letters. -/
  limits : List (Char × Text) := []
  /-- The name by which the present program was run. -/
  invoked : Text := []
  /-- The signal that ended the last program. -/
  signal : Option Nat := none

/-- How a script leaves its present command. -/
inductive Jump where
  | exit
  /-- Because of an error, which ends the script unless it is confined to a command. -/
  | fault
  | killed
  | return
  /-- Behind the loop that is so many loops further out. -/
  | behind (loops : Nat)
  /-- To the next turn of the loop that is so many loops further out. -/
  | again (loops : Nat)
  deriving DecidableEq, Repr

/-- A **step** of a script. -/
abbrev Action := ExceptT Jump (StateM ShellState)

namespace ShellState

/-! ### Variables -/

/-- The value of a variable. -/
def variableValue? (s : ShellState) (name : Text) : Option Text :=
  (s.bindings.lookup name).bind Variable.value

/-- Gives a variable another content, or takes it away. -/
def setVariable (s : ShellState) (name : Text) (content : Option Variable) : ShellState :=
  let others := s.bindings.filter (·.1 ≠ name)
  { s with bindings := (content.map ((name, ·))).toList ++ others }

/-- Whether a setting is on. -/
def isOn (s : ShellState) (setting : String) : Bool := s.options.contains setting

/-- Turns a setting on or off. -/
def turn (s : ShellState) (setting : String) (isOn : Bool) : ShellState :=
  let others := s.options.filter (· != setting)
  { s with options := if isOn then setting :: others else others }

/-- Gives a variable a value. -/
def assign (s : ShellState) (name value : Text) : ShellState :=
  let before := (s.bindings.lookup name).getD { value := none }
  s.setVariable name (some { before with
    value := some value
    isExported := before.isExported || s.isOn "allexport" })

/-- Makes a variable known to further scripts. -/
def markExported (s : ShellState) (name : Text) : ShellState :=
  s.setVariable name (some { (s.bindings.lookup name).getD { value := none } with
    isExported := true })

/-- A variable has the value that it was given. -/
theorem assign_value? (s : ShellState) (name value : Text) :
    (s.assign name value).variableValue? name = some value := by
  simp [assign, setVariable, variableValue?]

/-- The letters of the settings that are on. -/
def optionLetters (s : ShellState) : Text :=
  (settings.reverse.filter fun (name, _) => s.isOn name).filterMap Prod.snd

/-- The characters that end fields. -/
def separators (s : ShellState) : Text := (s.variableValue? "IFS".toList).getD " \t\n".toList

/-- The arguments as one text. -/
def joinedArguments (s : ShellState) : Text :=
  List.intercalate (s.separators.take 1) s.arguments

/-- The value of a parameter. -/
def parameter? (s : ShellState) (name : Text) : Option Text :=
  match String.ofList name with
  | "?" => some (Nat.toDigits 10 s.status)
  | "#" => some (Nat.toDigits 10 s.arguments.length)
  | "$" => some (Nat.toDigits 10 s.number)
  | "-" => some s.optionLetters
  | "!" => s.jobs.head?.map fun job => Nat.toDigits 10 job.number
  | "@" => if s.arguments.isEmpty then none else some (List.intercalate [' '] s.arguments)
  | "*" => if s.arguments.isEmpty then none else some s.joinedArguments
  | _ =>
    match Text.number? 10 name with
    | some 0 => some s.name
    | some (n + 1) => s.arguments[n]?
    | none => s.variableValue? name

/-! ### Output -/

/-- Writes bytes to where they go. -/
def writeTo (s : ShellState) (bytes : List UInt8) : Channel → ShellState
  | .buffer index => { s with buffers := s.buffers.modify index (· ++ bytes) }
  | .nowhere => s
  | .full => s
  | .source _ => s
  | .file location =>
    match s.tree.root.at? location with
    | some (.file content) =>
      { s with tree := s.tree.put location (.file (content ++ ⟨bytes.toArray⟩)) }
    | _ => s

/-- Writes bytes to a descriptor. What goes to a closed or to a full one is lost. -/
def write (s : ShellState) (descriptor : Nat) (bytes : List UInt8) : ShellState :=
  match s.channels.lookup descriptor with
  | some .full => if bytes.isEmpty then s else { s with lost := some .isFull }
  | some channel => s.writeTo bytes channel
  | none => if bytes.isEmpty then s else { s with lost := some .isClosed }

/-- Sends a descriptor elsewhere, or closes it. -/
def redirect (s : ShellState) (descriptor : Nat) (channel : Option Channel) : ShellState :=
  let others := s.channels.filter (·.1 ≠ descriptor)
  { s with channels := (channel.map ((descriptor, ·))).toList ++ others }

/-! ### Input -/

/-- What is left of the input. -/
def input (s : ShellState) : Source :=
  match s.channels.lookup 0 with
  | some (.source index) => (s.sources[index]?).getD {}
  | _ => {}

/-- Leaves some bytes of the input to be read. -/
def leaveInput (s : ShellState) (bytes : List UInt8) : ShellState :=
  match s.channels.lookup 0 with
  | some (.source index) => { s with sources := s.sources.modify index ({ · with bytes }) }
  | _ => s

/-- Has a descriptor lead from a new source. -/
def openSource (s : ShellState) (descriptor : Nat) (source : Source) : ShellState :=
  { s with sources := s.sources ++ [source] }.redirect descriptor
    (some (.source s.sources.length))

end ShellState

/-! ### The first variables -/

/-- Variables together with those that every shell has, of which some are set anew. -/
def withUsualVariables (parent : Nat) (known : List (Text × Variable)) :
    List (Text × Variable) :=
  let binding (name : String) (value : Text) : Text × Variable :=
    (name.toList, { value := some value })
  let anew := [binding "IFS" " \t\n".toList, binding "OPTIND" ['1'],
    binding "PPID" (Nat.toDigits 10 parent)]
  let usual := [binding "PS1" "# ".toList, binding "PS2" "> ".toList,
    binding "PS4" "+ ".toList]
  let others := known.filter fun (name, _) => !anew.any (·.1 == name)
  anew ++ usual.filter (fun (name, _) => !known.any (·.1 == name)) ++ others

/-! ### Entries -/

/-- The names in a directory, in order. -/
def entryNames (t : FileTree) (directory : Text) : List Text :=
  match t.node? (scriptPath (if directory.isEmpty then ['.'] else directory)) with
  | some (.directory entries) =>
    (entries.map fun (name, _) => encoded name).mergeSort (dictionaryOrder charOrder)
  | _ => []

/-- The node that a path leads to, a link not followed. -/
def ownNode (t : FileTree) (p : Path) : Except FileError FileNode :=
  match t.locateBy .kept p with
  | .error cause => .error cause
  | .ok location => ((t.root.at? location).map .ok).getD (.error .notFound)

/-- The permissions of a node: those that it was given, or else the usual ones. -/
def ShellState.permissionsOf (s : ShellState) (location : Location) (node : FileNode) : Nat :=
  (s.permissions.lookup location).getD <| match node with
    | .file _ => 420
    | .directory _ => 493
    | .link _ => 511

/-- Gives a new file or directory the permissions that are not withheld, where these are not the
usual ones. -/
def ShellState.withNew (s : ShellState) (location : Location) : ShellState :=
  let full? : Option Nat := match s.tree.root.at? location with
    | some (.file _) => some 438
    | some (.directory _) => some 511
    | _ => none
  match if s.withheld = 18 then none else full? with
  | some full => { s with
      permissions := (location, full &&& (511 ^^^ s.withheld)) :: s.permissions }
  | none => s

/-- Whether a file may be run. -/
def ShellState.mayRun (s : ShellState) (file : Text) : Bool :=
  match s.tree.locate (scriptPath file) with
  | .error _ => false
  | .ok location =>
    (s.tree.root.at? location).any fun node => s.permissionsOf location node % 2 == 1 ||
      s.permissionsOf location node / 8 % 2 == 1 || s.permissionsOf location node / 64 % 2 == 1

/-- Whether a path leads to anything, be it a link to nowhere. -/
def hasEntry (t : FileTree) (path : Text) : Bool :=
  (t.node? (scriptPath path)).isSome || t.isLink (scriptPath path)

namespace Action

/-- Ends a step with a status. -/
def setStatus (status : Nat) : Action Unit := modify fun s => { s with status }

/-- Ends a step with the status of a truth value. -/
def setTruth (holds : Bool) : Action Unit := setStatus (if holds then 0 else 1)

/-- Writes bytes as output. -/
def write (bytes : List UInt8) : Action Unit := modify fun s => s.write 1 bytes

/-- Writes a line of output. -/
def writeLine (line : Text) : Action Unit := write (textBytes (line ++ ['\n']))

/-- Writes a line of errors. -/
def writeError (line : Text) : Action Unit :=
  modify fun s => s.write 2 (textBytes (line ++ ['\n']))

/-- Complains in the name of the script, and goes on with a status. -/
def complain (words : Text) (status : Nat) : Action Unit := do
  let s ← get
  writeError (s.name ++ ": ".toList ++ Nat.toDigits 10 s.line ++ ": ".toList ++ s.label ++ words)
  setStatus status

/-- Complains in the name of the script, and gives up. -/
def abort (words : Text) : Action α := do
  complain words 2
  throw .fault

/-- Gives a variable a value, unless it is constant. -/
def assign (name value : Text) : Action Unit := do
  if ((← get).bindings.lookup name).any Variable.isConstant then
    abort (name ++ ": is read only".toList)
  if name = "OPTIND".toList then
    match Text.number? 10 value with
    | some n => modify fun s => { s with optionPlace := (max n 1, none) }
    | none => abort ("Illegal number: ".toList ++ value)
  if name = "PATH".toList then modify fun s => { s with found := [] }
  modify fun s => s.assign name value

/-! ### Files -/

/-- What a script says of a file that cannot be opened. -/
def openWords (isWritten : Bool) : FileError → String
  | .notFound => if isWritten then "Directory nonexistent" else "No such file"
  | .notADirectory => if isWritten then "Directory nonexistent" else "No such file"
  | e => e.words

/-- The bytes of a file. -/
def readBytes (t : FileTree) (p : Path) : Except FileError (List UInt8) :=
  if p.text = "/dev/null".toList then .ok []
  else
    match t.locate p with
    | .error e => .error e
    | .ok location =>
      match t.root.at? location with
      | some (.file content) => .ok content.toList
      | some _ => .error .isADirectory
      | none => .error .notFound

/-- Opens a file for writing, either anew or at its end. -/
def openFile (t : FileTree) (p : Path) (keeps : Bool) : Except FileError (FileTree × Location) :=
  match t.place .written p with
  | .error e => .error e
  | .ok (.vacant directory name) =>
    .ok (t.put (directory ++ [name]) (.file .empty), directory ++ [name])
  | .ok (.present location) =>
    match t.root.at? location with
    | some (.file _) => .ok (if keeps then t else t.put location (.file .empty), location)
    | _ => .error .isADirectory

/-- Sends a descriptor to a file. -/
def redirectToFile (descriptor : Nat) (file : Text) (keeps : Bool) : Action Bool := do
  let s ← get
  match String.ofList file with
  | "/dev/null" =>
    set (s.redirect descriptor (some .nowhere))
    return true
  | "/dev/full" =>
    set (s.redirect descriptor (some .full))
    return true
  | "/dev/stdout" =>
    set (s.redirect descriptor (s.channels.lookup 1))
    return true
  | "/dev/stderr" =>
    set (s.redirect descriptor (s.channels.lookup 2))
    return true
  | _ =>
    match openFile s.tree (scriptPath file) keeps with
    | .ok (tree, location) =>
      let isNew := (s.tree.root.at? location).isNone
      let opened := { s with tree }.redirect descriptor (some (.file location))
      set (if isNew then opened.withNew location else opened)
      return true
    | .error e =>
      complain ("cannot create ".toList ++ file ++ ": ".toList ++ (openWords true e).toList) 2
      return false

/-- Has a descriptor lead from a file. -/
def readFromFile (descriptor : Nat) (file : Text) : Action Bool := do
  match readBytes (← get).tree (scriptPath file) with
  | .ok bytes =>
    modify (·.openSource descriptor ⟨bytes, file != "/dev/null".toList⟩)
    return true
  | .error e =>
    if e = .isADirectory then
      modify (·.openSource descriptor {})
      return true
    complain ("cannot open ".toList ++ file ++ ": ".toList ++ (openWords false e).toList) 2
    return false

end Action

end ScriptBundle.Shell
