import ScriptBundle.Shell.Builtin
import ScriptBundle.Shell.Catalog

/-!
# Looking up Commands

What a name stands for as the name of a command: a word that structures scripts, another word, a
function, a builtin command, or a program.

## Main definitions

* `CommandKind`: what a name stands for;
* `lookUp`: finds out what a name stands for;
* `describe`: tells what a name stands for;
* `hash`: remembers where programs are;
* `which`: the program that tells where programs are.

## Main statements

* `withFound_self`: a program that is remembered is known.
-/

namespace ScriptBundle.Shell

/-- What a name **stands for** as the name of a command. -/
inductive CommandKind where
  | keyword
  /-- Another word. -/
  | abbreviation (value : Text)
  | function
  | builtin
  /-- A program, with its path. -/
  | program (path : Text)
  | missing
  deriving DecidableEq, Repr

/-- Whether a path is the one of a program of the system. -/
def isSystemProgram (path : Text) : Bool :=
  '/' ∈ path && isProgram (String.ofList (programName path))

/-- The directories in which programs are looked for. -/
def searchPath (s : ShellState) : List Text :=
  match s.variableValue? "PATH".toList with
  | none => ["/bin".toList, "/usr/bin".toList]
  | some path => FileCommand.partsBetween ':' path

/-- The **path** of the program that a name leads to. A file that may not be run is passed over. -/
def programPath (s : ShellState) (name : Text) : Except FileError Text :=
  if '/' ∈ name then .ok name
  else
    let paths := (searchPath s).map fun directory =>
      if directory.isEmpty then name else directory ++ '/' :: name
    let isFile (path : Text) : Bool := (s.tree.node? (scriptPath path)).any FileNode.isFile
    match paths.find? fun path => isSystemProgram path || (isFile path && s.mayRun path) with
    | some path => .ok path
    | none => .error (if paths.any isFile then .permissionDenied else .notFound)

/-- The path of the program that a name leads to in a script. Where no directories are told, there
are none. -/
def programPathInScript (s : ShellState) (name : Text) : Except FileError Text :=
  if '/' ∉ name ∧ (s.variableValue? "PATH".toList).isNone then .error .notFound
  else programPath s name

/-- What a name **stands for** in a script. -/
def lookUp (s : ShellState) (name : Text) : CommandKind :=
  let known := String.ofList name
  if ScriptReader.keywords.contains known then .keyword
  else
    match s.aliases.lookup name with
    | some value => .abbreviation value
    | none =>
      if (s.functions.lookup name).isSome then .function
      else if Builtin.isKnown known then .builtin
      else
        match programPathInScript s name with
        | .error _ => .missing
        | .ok path =>
          if isSystemProgram path || hasEntry s.tree path then .program path else .missing

/-- The programs that are remembered, together with another one. -/
def withFound (found : List (Text × Text)) (name path : Text) : List (Text × Text) :=
  if found.any (·.1 == name) then found else found ++ [(name, path)]

/-- A program that is remembered is known. -/
theorem withFound_self (found : List (Text × Text)) (name path : Text) :
    (withFound found name path).any (·.1 == name) = true := by
  unfold withFound
  split
  · next h => exact h
  · simp

/-- Remembers a program. -/
def remember (name path : Text) : Action Unit :=
  modify fun s => { s with found := withFound s.found name path }

/-- Tells what a name stands for, at length or only as it would be written. -/
def describe (isLong : Bool) (name : Text) : Action Unit := do
  let s ← get
  let is (what : String) : Action Unit :=
    Action.writeLine (if isLong then name ++ " is ".toList ++ what.toList else name)
  match lookUp s name with
  | .keyword => is "a shell keyword"
  | .abbreviation value =>
    if isLong then is ("an alias for " ++ String.ofList value)
    else Action.writeLine ("alias ".toList ++ name ++ '=' :: Builtin.inSingleQuotes value)
  | .function => is "a shell function"
  | .builtin =>
    is (if specialNames.contains (String.ofList name) then "a special shell builtin"
      else "a shell builtin")
  | .program path =>
    let front := if s.found.any (·.1 == name) then "a tracked alias for " else ""
    if isLong then is (front ++ String.ofList path) else Action.writeLine path
    if '/' ∉ name then remember name path
  | .missing =>
    if isLong then Action.writeLine (name ++ ": not found".toList)
    Action.setStatus 127

/-- The command `type`. -/
def type (arguments : List Text) : Action Unit := do
  Action.setStatus 0
  arguments.forM (describe true)

/-- The command `command` without a command to run. -/
def commandWords (arguments : List Text) : Action Unit := do
  let (options, operands) ← Builtin.takeOptions "pvV" "" arguments
  Action.setStatus 0
  match operands with
  | name :: _ =>
    if options.any (·.1 == 'V') then describe true name
    else if options.any (·.1 == 'v') then describe false name
  | [] => pure ()

/-- The command `hash`. -/
def hash (arguments : List Text) : Action Unit := do
  let (options, operands) ← Builtin.takeOptions "r" "" arguments
  Action.setStatus 0
  if !options.isEmpty then modify fun s => { s with found := [] }
  else if operands.isEmpty then
    (Builtin.byRemainder 31 Prod.fst (← get).found).forM fun (_, path) => Action.writeLine path
  else
    operands.forM fun name => do
      match lookUp { ← get with aliases := [] } name with
      | .program path => if '/' ∉ name then remember name path
      | .missing =>
        if '/' ∉ name then Action.complain (name ++ ": not found".toList) 1
      | _ => pure ()

/-- The program `which`. -/
def which (arguments : List Text) : Action Unit := do
  let names := arguments.filter fun argument => argument.head? != some '-'
  let s ← get
  let path? (name : Text) : Option Text :=
    (programPath s name).toOption.filter fun path => isSystemProgram path || s.mayRun path
  (names.filterMap path?).forM Action.writeLine
  Action.setTruth (!names.isEmpty && names.all fun name => (path? name).isSome)

end ScriptBundle.Shell
