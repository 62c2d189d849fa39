import ScriptBundle.Shell.Builtin.Declaration
import ScriptBundle.Shell.FileCommand

/-!
# Settings

The builtin commands that change the settings of a script, its arguments, the permissions of its new
files and its limits.

## Main definitions

* `Builtin.takeSettings`: the settings at the front of some arguments;
* `Builtin.set`, `Builtin.shift`: settings and arguments;
* `Builtin.nextOption`: the options of a script, one at a time;
* `Builtin.umask`, `Builtin.ulimit`: what new files may and what programs can.

## Main statements

* `Builtin.settingOf?_of_mem`: a setting that has a letter is found by it.
-/

namespace ScriptBundle.Shell.Builtin

/-! ### Settings -/

/-- The name of the setting with a letter. -/
def settingOf? (letter : Char) : Option String :=
  (settings.find? fun (_, known) => known == some letter).map Prod.fst

/-- A setting that has a letter is found by it. -/
theorem settingOf?_of_mem : ∀ setting ∈ settings,
    setting.2.bind settingOf? = setting.2.map fun _ => setting.1 := by
  decide

/-- Turns a setting on or off. Of the two ways to edit lines one is on at most. -/
def changeSetting (isOn : Bool) (name : String) : Action Unit := modify fun s =>
  let s := if isOn ∧ name = "vi" then s.turn "emacs" false
    else if isOn ∧ name = "emacs" then s.turn "vi" false else s
  s.turn name isOn

/-- The sign in front of a setting that is turned on or off. -/
def signOf (isOn : Bool) : Char := if isOn then '-' else '+'

/-- Changes the setting that has a name. -/
def changeNamed (isOn : Bool) (name : Text) : Action Unit :=
  let known := String.ofList name
  if settings.any fun (setting, _) => setting == known then changeSetting isOn known
  else Action.abort ("Illegal option ".toList ++ signOf isOn :: "o ".toList ++ name)

/-- Lists the settings, either to be read or as commands. -/
def listSettings (asCommands : Bool) : Action Unit := do
  let s ← get
  if !asCommands then Action.writeLine "Current option settings".toList
  settings.forM fun (name, _) =>
    Action.writeLine <|
      if asCommands then "set ".toList ++ signOf (s.isOn name) :: "o ".toList ++ name.toList
      else name.toList ++ List.replicate (16 - name.length) ' ' ++
        (if s.isOn name then "on" else "off").toList

/-- What the arguments of a shell or of `set` begin with. -/
structure SettingFront where
  /-- Whether the first operand is a script. -/
  isScript : Bool := false
  /-- The operands, if there are any or if their beginning is marked. -/
  operands : Option (List Text) := none

/-- Changes the settings of a cluster of letters, and gives the arguments behind it. -/
def changeLetters (isShell isOn : Bool) : Text → List Text → Action (Bool × List Text)
  | [], rest => return (false, rest)
  | letter :: letters, rest => do
    if isShell && letter == 'c' then
      let (_, rest) ← changeLetters isShell isOn letters rest
      return (true, rest)
    else if isShell && letter == 'l' then changeLetters isShell isOn letters rest
    else if letter = 'o' then
      match rest with
      | [] => listSettings (!isOn)
      | name :: _ => changeNamed isOn name
      changeLetters isShell isOn letters rest.tail
    else
      match settingOf? letter with
      | some name => changeSetting isOn name
      | none => Action.abort ("Illegal option ".toList ++ [signOf isOn, letter])
      changeLetters isShell isOn letters rest

/-- Changes settings by the arguments at the front of a list, of which there are less than
`budget`. -/
def takeWithin (isShell : Bool) : (budget : Nat) → List Text → Action SettingFront
  | 0, _ => return {}
  | _, [] => return {}
  | n + 1, argument :: rest => do
    let more (isOn : Bool) (letters : Text) : Action SettingFront := do
      let (isScript, rest) ← changeLetters isShell isOn letters rest
      let front ← takeWithin isShell n rest
      return { front with isScript := isScript || front.isScript }
    match argument with
    | ['-', '-'] => return { operands := some rest }
    | ['-'] =>
      if !isShell then
        changeSetting false "xtrace"
        changeSetting false "verbose"
      return { operands := if rest.isEmpty then none else some rest }
    | '-' :: letters => more true letters
    | '+' :: letters => more false letters
    | _ => return { operands := some (argument :: rest) }

/-- Gives up control over jobs, which needs a terminal. -/
def dropMonitor (isShell : Bool) : Action Unit := do
  let s ← get
  if s.isOn "monitor" || (isShell && s.isOn "interactive") then
    let status := s.status
    Action.complain "can't access tty; job control turned off".toList status
    changeSetting false "monitor"

/-- Changes **settings** by the arguments at the front of a list. -/
def takeSettings (isShell : Bool) (arguments : List Text) : Action SettingFront := do
  let front ← takeWithin isShell (arguments.length + 1) arguments
  dropMonitor isShell
  return front

/-- Gives a script other arguments, whose options have not been read. -/
def setArguments (arguments : List Text) : Action Unit :=
  modify fun s => { s with arguments, optionPlace := (1, none) }

/-- The command `set`. -/
def set (arguments : List Text) : Action Unit := do
  if arguments.isEmpty then
    let listed := (← get).bindings.filter fun (_, v) => v.value.isSome
    (variableLines [] listed).forM Action.writeLine
  match (← takeSettings false arguments).operands with
  | some operands => setArguments operands
  | none => pure ()
  Action.setStatus 0

/-- The command `shift`. -/
def shift (arguments : List Text) : Action Unit := do
  let count ← match arguments with
    | [] => pure 1
    | argument :: _ => number argument
  let s ← get
  if s.arguments.length < count then Action.abort "can't shift that many".toList
  setArguments (s.arguments.drop count)
  Action.setStatus 0

/-! ### The options of a script -/

/-- What stands behind a letter in the description of options, if it is there: whether the option
has a value. -/
def described? (letter : Char) : Text → Option Bool
  | [] => none
  | c :: ':' :: rest => if c = letter then some true else described? letter rest
  | c :: rest => if c = letter then some false else described? letter rest

/-- What is found where the **next option** of a script is looked for. -/
structure OptionFinding where
  /-- The letter, or a mark that there is none or that it is wrong. -/
  letter : Char := '?'
  /-- The value of the option, unless what was the last one is to be forgotten. -/
  value : Option (Option Text) := none
  complaint : Option Text := none
  /-- Whether there are no more options. -/
  isEnd : Bool := false
  place : Nat × Option Nat

/-- What is found of the option that some letters begin with. They are in the argument in front of
the one at `place`. -/
def findOption (description : Text) (arguments : List Text) (place : Nat) (argument : Text) :
    (letters : Text) → OptionFinding
  | [] => { isEnd := true, place := (place, none) }
  | letter :: rest =>
    let isQuiet := description.head? = some ':'
    let left := (place, some (argument.length - rest.length))
    let misuse (mark : Char) (words : Text) (place : Nat × Option Nat) : OptionFinding :=
      if isQuiet then { letter := mark, value := some (some [letter]), place }
      else { value := some none, complaint := some words, place }
    match described? letter description with
    | none => misuse '?' ("Illegal option -".toList ++ [letter]) left
    | some false => { letter, value := some (some []), place := left }
    | some true =>
      match rest, arguments[place - 1]? with
      | [], some value => { letter, value := some (some value), place := (place + 1, none) }
      | [], none => misuse ':' ("No arg for -".toList ++ letter :: " option".toList) left
      | value, _ => { letter, value := some (some value), place := (place, none) }

/-- What is found where an option is looked for in some arguments. -/
def nextOption (description : Text) (arguments : List Text) (place : Nat × Option Nat) :
    OptionFinding :=
  let (index, offset) := place
  let last := (arguments[index - 2]?).getD []
  let letters := match offset with
    | some n => if 1 < index ∧ n ≤ last.length then last.drop n else []
    | none => []
  if !letters.isEmpty then findOption description arguments index last letters
  else
    match arguments[index - 1]? with
    | some ['-', '-'] => { isEnd := true, place := (index + 1, none) }
    | some ('-' :: c :: rest) =>
      findOption description arguments (index + 1) ('-' :: c :: rest) (c :: rest)
    | _ => { isEnd := true, place := (index, none) }

/-- The command `getopts`. -/
def getopts (arguments : List Text) : Action Unit := do
  match arguments with
  | description :: name :: given =>
    let s ← get
    let among := if given.isEmpty then s.arguments else given
    let place := if among.length + 1 < s.optionPlace.1 then (1, none) else s.optionPlace
    let finding := nextOption description among place
    modify fun s => { s with optionPlace := (1, none) }
    match finding.complaint with
    | some words => Action.writeError words
    | none => pure ()
    match finding.value with
    | some (some value) => Action.assign "OPTARG".toList value
    | some none => modify (·.setVariable "OPTARG".toList none)
    | none => pure ()
    modify (·.assign "OPTIND".toList (Nat.toDigits 10 finding.place.1))
    checkName name
    Action.assign name [finding.letter]
    modify fun s => { s with optionPlace := finding.place }
    Action.setTruth (!finding.isEnd)
  | _ => Action.abort "Usage: getopts optstring var [arg...]".toList

/-! ### Permissions and limits -/

/-- Permissions by the letters of those who have them. -/
def permissionLetters (permissions : Nat) : Text :=
  let letters (bits : Nat) : Text :=
    (if bits / 4 % 2 = 1 then ['r'] else []) ++ (if bits / 2 % 2 = 1 then ['w'] else []) ++
      (if bits % 2 = 1 then ['x'] else [])
  "u=".toList ++ letters (permissions / 64) ++ ",g=".toList ++ letters (permissions / 8) ++
    ",o=".toList ++ letters permissions

/-- The command `umask`. -/
def umask (arguments : List Text) : Action Unit := do
  let (options, operands) ← takeOptions "S" "" arguments
  let s ← get
  match operands with
  | [] =>
    let digits := Nat.toDigits 8 s.withheld
    Action.writeLine (if options.isEmpty then List.replicate (4 - digits.length) '0' ++ digits
      else permissionLetters (511 - s.withheld))
  | operand :: _ =>
    if (operand.head?.map Char.isDigit).getD false then
      match Text.number? 8 operand with
      | some n => modify fun s => { s with withheld := n % 512 }
      | none => Action.abort ("Illegal number: ".toList ++ operand)
    else
      let clauses := (FileCommand.partsBetween ',' operand).filter (!·.isEmpty)
      match clauses.foldlM (FileCommand.changedByClause? 0) (511 - s.withheld) with
      | some n => modify fun s => { s with withheld := 511 - n % 512 }
      | none => Action.abort ("Illegal mode: ".toList ++ operand)
  Action.setStatus 0

/-- The limits by their letters, with their names and their usual values. -/
def limitTable : List (Char × String × String) :=
  [('t', "time(seconds)", "unlimited"), ('f', "file(blocks)", "unlimited"),
    ('d', "data(kbytes)", "unlimited"), ('s', "stack(kbytes)", "8192"),
    ('c', "coredump(blocks)", "0"), ('m', "memory(kbytes)", "unlimited"),
    ('l', "locked memory(kbytes)", "8192"), ('p', "process", "unlimited"),
    ('n', "nofiles", "1048576"), ('v', "vmemory(kbytes)", "unlimited"),
    ('w', "locks", "unlimited"), ('r', "rtprio", "0")]

/-- The command `ulimit`. -/
def ulimit (arguments : List Text) : Action Unit := do
  let (options, operands) ← takeOptions "HSatfdscmlpnvwr" "" arguments
  let letters := options.map Prod.fst
  let letter := ((letters.filter fun c => !"HSa".toList.contains c).getLast?).getD 'f'
  let s ← get
  let valueOf (c : Char) (usual : String) : Text := (s.limits.lookup c).getD usual.toList
  match operands with
  | [] =>
    if 'a' ∈ letters then
      limitTable.forM fun (c, name, usual) =>
        Action.writeLine
          (name.toList ++ List.replicate (20 - name.length) ' ' ++ ' ' :: valueOf c usual)
    else Action.writeLine (valueOf letter (((limitTable.lookup letter).map Prod.snd).getD ""))
  | [value] =>
    if 'a' ∈ letters then Action.abort "too many arguments".toList
    if value != "unlimited".toList && !value.all Char.isDigit then
      Action.abort "bad number".toList
    let shown := if value.isEmpty then ['0'] else value
    modify fun s => { s with limits := (letter, shown) :: s.limits }
  | _ => Action.abort "too many arguments".toList
  Action.setStatus 0

end ScriptBundle.Shell.Builtin
