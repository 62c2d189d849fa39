import ScriptBundle.Shell.Editor.Reader
import ScriptBundle.Shell.Filter

/-!
# Editing

The program `sed`: what editing commands do to the lines of files. The commands are run in turn for
each line, which stands in the **pattern space**, and another text can be put aside.

## Main definitions

* `EditState`: how far an editing has come;
* `Edit.isSelected`: whether a command is for the present line;
* `Edit.runCycle`: runs the commands for a line;
* `sed`: the program.

## Main statements

* `Edit.behindBlock_append`: a block without blocks in it is passed up to its closing brace.
-/

namespace ScriptBundle.Shell

/-- How an editing goes about its work. -/
structure EditSettings where
  commands : List EditCommand
  /-- Whether lines are shown only where a command shows them. -/
  isQuiet : Bool := false
  /-- Whether the files are taken one by one. -/
  isSeparate : Bool := false
  /-- The suffix of the former content of the files, where these are changed in place. -/
  inPlace : Option Text := none
  /-- The end of a line. -/
  mark : UInt8 := 0x0A
  /-- The width of listed lines. -/
  width : Nat := 70
  deriving Repr

/-- What is shown behind a line. -/
inductive LateText where
  | text (s : Text)
  | file (name : Text)
  deriving DecidableEq, Repr

/-- The **state** of an editing. -/
structure EditState where
  /-- The present line, as it was changed. -/
  space : Text := []
  /-- Whether the present line has an end. -/
  hasEnd : Bool := true
  held : Text := []
  /-- Whether the line that was put aside has an end. -/
  heldEnd : Bool := true
  number : Nat := 0
  /-- The lines of the present file that are left. -/
  lines : List (List UInt8) := []
  file : Text := ['-']
  /-- Whether a file is open. -/
  isOpen : Bool := false
  /-- The files that are left. -/
  pending : List Text
  late : List LateText := []
  /-- The commands whose range of lines has begun, with the last line of it if that is known. -/
  ranges : List (Nat × Option Nat) := []
  isReplaced : Bool := false
  lastForm : Option Regex := none
  status : Nat := 0
  /-- The files whose last line has no end yet. -/
  unended : List Text := []
  /-- The new content of the present file. -/
  edited : List UInt8 := []

/-- How the commands for a line end. -/
inductive CycleEnd where
  /-- The line is shown, as usual. -/
  | shown
  | dropped
  /-- The commands start over with what is left of the line. -/
  | again
  | stopped (isPrinted : Bool) (status : Nat)
  deriving DecidableEq, Repr

/-- A step of an editing, which fails with the status that the program ends with. -/
abbrev Edit := ExceptT Nat (StateT EditState Action)

namespace Edit

/-! ### Output -/

/-- A step of the script that an editing is a part of. -/
def script (step : Action α) : Edit α := fun s => do
  return (.ok (← step), s)

/-- Whether a name is the one of the output. -/
def isOutput (file : Text) : Bool := file.isEmpty || file == "/dev/stdout".toList

/-- The name by which a file is told from others. The output has none, unless a file is changed in
place instead. -/
def knownName (settings : EditSettings) (file : Text) : Text :=
  if isOutput file && settings.inPlace.isNone then [] else file

/-- Writes bytes to a file, or to the usual output. -/
def send (settings : EditSettings) (file : Text) (bytes : List UInt8) : Edit Unit := do
  if file.isEmpty && settings.inPlace.isSome then
    modify fun s => { s with edited := s.edited ++ bytes }
  else if isOutput file then script (Action.write bytes)
  else if file = "/dev/stderr".toList then script (modify (·.write 2 bytes))
  else
    script <| modify fun s =>
      match s.tree.locate (scriptPath file) with
      | .ok location => s.writeTo bytes (.file location)
      | .error _ => s

/-- Writes bytes to a file, whose last line gets an end first. -/
def emit (settings : EditSettings) (file : Text) (bytes : List UInt8) : Edit Unit := do
  let file := knownName settings file
  if (← get).unended.any (· == file) then
    modify fun s => { s with unended := s.unended.filter (· != file) }
    send settings file [settings.mark]
  send settings file bytes

/-- Writes a text as a line, which has an end only where the present line has one. -/
def emitLine (settings : EditSettings) (file : Text) (text : Text) : Edit Unit := do
  if (← get).hasEnd then emit settings file (textBytes text ++ [settings.mark])
  else
    emit settings file (textBytes text)
    let file := knownName settings file
    modify fun s => { s with unended := file :: s.unended }

/-- Complains, and goes on to end with a status. -/
def complain (words : Text) (status : Nat) : Edit Unit := do
  script (Program.report "sed" words)
  modify fun s => { s with status }

/-- Complains, and ends with a status. -/
def abort (words : Text) (status : Nat) : Edit α := do
  script (Program.report "sed" words)
  throw status

/-- Shows what is to be shown behind the present line. -/
def showLate (settings : EditSettings) : Edit Unit := do
  let late := (← get).late
  modify fun s => { s with late := [] }
  late.forM fun
    | .text text => emit settings [] (textBytes text)
    | .file name => do
      match Action.readBytes (← script get).tree (scriptPath name) with
      | .ok bytes => emit settings [] bytes
      | .error _ => emit settings [] []

/-! ### Input -/

/-- The file in which the former content of a file is kept. -/
def keptName (suffix file : Text) : Text :=
  let base := Filter.lastName file
  let name := if '*' ∈ suffix then suffix.flatMap fun c => if c = '*' then base else [c]
    else base ++ suffix
  if '/' ∈ name ∨ '/' ∉ file then name else Filter.joined (Filter.directoryPart file) name

/-- Gives a file another content. -/
def replaceFile (file : Text) (bytes : List UInt8) : Action Unit :=
  modify fun s =>
    match Action.openFile s.tree (scriptPath file) false with
    | .ok (tree, location) => { s with tree }.writeTo bytes (.file location)
    | .error _ => s

/-- Closes the present file, which gets its new content. -/
def closeFile (settings : EditSettings) : Edit Unit := do
  let s ← get
  if s.isOpen then
    set { s with isOpen := false, edited := [], unended := if settings.inPlace.isSome then
      s.unended.filter (· ≠ []) else s.unended }
    match settings.inPlace with
    | none => pure ()
    | some suffix =>
      let former := (Action.readBytes (← script get).tree (scriptPath s.file)).toOption.getD []
      if !suffix.isEmpty then script (replaceFile (keptName suffix s.file) former)
      script (replaceFile s.file s.edited)

/-- The commands whose range starts before the first line. -/
def startRanges (commands : List EditCommand) : List (Nat × Option Nat) :=
  (commands.filter (·.first == some (.number 0))).map fun c => (c.index, none)

/-- Opens a file, if that is possible. -/
def openFile (settings : EditSettings) (file : Text) : Edit Unit := do
  closeFile settings
  match ← script (Program.contentOf file) with
  | .ok bytes =>
    modify fun s => { s with file, isOpen := true, lines := byteLinesBy settings.mark bytes }
    if settings.isSeparate then
      modify fun s => { s with number := 0, ranges := startRanges settings.commands }
  | .error .isADirectory =>
    if settings.inPlace.isSome then
      complain ("couldn't edit ".toList ++ file ++ ": not a regular file".toList) 4
    else abort ("read error on ".toList ++ file ++ ": Is a directory".toList) 4
  | .error cause =>
    complain ("can't read ".toList ++ file ++ ": ".toList ++ cause.words.toList) 2

/-- Opens the given files up to one with lines in it. -/
def openFiles (settings : EditSettings) : List Text → Edit Unit
  | [] => pure ()
  | file :: rest => do
    if (← get).lines.isEmpty then
      modify fun s => { s with pending := rest }
      openFile settings file
      openFiles settings rest

/-- Whether the present line is the last one. -/
def isLast (settings : EditSettings) : Edit Bool := do
  if !settings.isSeparate then openFiles settings (← get).pending
  return (← get).lines.isEmpty

/-- Takes the next line, if there is any. What was to be shown behind the one before is shown. -/
def takeLine (settings : EditSettings) : Edit (Option Text) := do
  showLate settings
  openFiles settings (← get).pending
  let s ← get
  match s.lines with
  | [] => return none
  | line :: lines =>
    let hasEnd := line.getLast? = some settings.mark
    set { s with lines, hasEnd, number := s.number + 1, isReplaced := false }
    return some (byteText (if hasEnd then line.dropLast else line))

/-! ### Addresses -/

/-- An expression, or else the one last used. -/
def usedForm (r? : Option Regex) : Edit Regex := do
  match r?, (← get).lastForm with
  | some r, _ =>
    modify fun s => { s with lastForm := some r }
    return r
  | none, some r => return r
  | none, none => abort "-e expression #1, char 0: no previous regular expression".toList 1

/-- Whether an address is one of the present line. -/
def isAt (settings : EditSettings) : LineAddress → Edit Bool
  | .number n => return (← get).number == n
  | .every first step => do
    let number := (← get).number
    return first ≤ number && (number - first) % step == 0
  | .last => isLast settings
  | .having r? => do
    return ((← usedForm r?).find? none (← get).space).isSome
  | .further _ => return false
  | .multiple _ => return false

/-- The last line of a range that starts at a line, if that is known. -/
def rangeEnd? (number : Nat) : LineAddress → Option Nat
  | .number n => some n
  | .further n => some (number + n)
  | .multiple 0 => some number
  | .multiple n => some (number + n - number % n)
  | _ => none

/-- Whether the present line is in a range of a command. -/
def isInRange (settings : EditSettings) (index : Nat) (first second : LineAddress) :
    Edit Bool := do
  let s ← get
  let leave : Edit Unit := modify fun s => { s with ranges := s.ranges.filter (·.1 ≠ index) }
  match s.ranges.lookup index with
  | some (some last) =>
    if last ≤ s.number then leave
    return s.number ≤ last
  | some none =>
    if ← isAt settings second then leave
    return true
  | none =>
    if ← isAt settings first then
      let last? := rangeEnd? s.number second
      if !last?.any (· ≤ s.number) then
        modify fun s => { s with ranges := (index, last?) :: s.ranges }
      return true
    else return false

/-- Whether a command is for the present line. -/
def isSelected (settings : EditSettings) (c : EditCommand) : Edit Bool := do
  let isIn ← match c.first, c.second with
    | none, _ => pure true
    | some first, none => isAt settings first
    | some first, some second => isInRange settings c.index first second
  return isIn != c.isNegated

/-! ### Commands -/

/-- The commands behind the end of a block that has begun. -/
def behindBlock : (depth : Nat) → List EditCommand → List EditCommand
  | _, [] => []
  | depth, c :: rest =>
    match c.action, depth with
    | .opening, _ => behindBlock (depth + 1) rest
    | .closing, 0 => rest
    | .closing, depth + 1 => behindBlock depth rest
    | _, _ => behindBlock depth rest

/-- A block without blocks in it is passed up to its closing brace. -/
theorem behindBlock_append {inside : List EditCommand}
    (h : ∀ c ∈ inside, c.action ≠ .opening ∧ c.action ≠ .closing) {closing : EditCommand}
    (hclosing : closing.action = .closing) (rest : List EditCommand) :
    behindBlock 0 (inside ++ closing :: rest) = rest := by
  induction inside with
  | nil => simp [behindBlock, hclosing]
  | cons c inside ih =>
    obtain ⟨⟨hopens, hcloses⟩, hinside⟩ := List.forall_mem_cons.mp h
    rw [List.cons_append]
    unfold behindBlock
    split
    · contradiction
    · contradiction
    · contradiction
    · exact ih hinside

/-- The commands behind a label, or none of them behind no label. -/
def behindMark? (label : Text) : List EditCommand → Option (List EditCommand)
  | [] => if label.isEmpty then some [] else none
  | c :: rest => if c.action = .mark label then some rest else behindMark? label rest

/-- A character in an unmistakable form. -/
def listedChar (c : Char) : Text :=
  if c = '\\' then ['\\', '\\']
  else if isPrintable c then [c] else '\\' :: escapeLetters c

/-- A text in an unmistakable form, in lines of less than a width. -/
def listedText (width : Nat) (text : Text) : Text :=
  let (lines, last) := text.foldl (fun (lines, line) c =>
    let shown := listedChar c
    if 0 < width ∧ width - 1 < line.length + shown.length then
      (lines ++ line ++ ['\\', '\n'], shown)
    else (lines, line ++ shown)) (([], []) : Text × Text)
  lines ++ last ++ ['$', '\n']

/-- The part of a text in front of its first line feed. -/
def firstLine (text : Text) : Text := text.takeWhile (· ≠ '\n')

/-- Carries out a substitution. -/
def substitute (settings : EditSettings) (s : Substitution) : Edit Unit := do
  let r ← usedForm s.form
  let (isReplaced, space) := s.apply r (← get).space
  if isReplaced then
    modify fun s => { s with space, isReplaced := true }
    if s.isPrinted then emitLine settings [] space
    match s.file with
    | some file => emitLine settings file space
    | none => pure ()

/-- What follows an action: the end of the commands, or the commands that are run next. -/
abbrev Following := Except CycleEnd (List EditCommand)

/-- Carries out an action that stands in front of the given commands. -/
def perform (settings : EditSettings) (c : EditCommand) (rest : List EditCommand) :
    Edit Following := do
  let s ← get
  let goOn (space : Text) : Edit Following := do
    modify fun s => { s with space }
    return .ok rest
  let proceed (step : Edit Unit) : Edit Following := do
    step
    return .ok rest
  match c.action with
  | .opening => return .ok rest
  | .closing => return .ok rest
  | .mark _ => return .ok rest
  | .jump test label =>
    let isMade := match test with
      | .always => true
      | .replaced => s.isReplaced
      | .unreplaced => !s.isReplaced
    if test ≠ .always then set { s with isReplaced := false }
    return .ok (if isMade then (behindMark? label settings.commands).getD [] else rest)
  | .append text => proceed (set { s with late := s.late ++ [LateText.text text] })
  | .readFile file => proceed (set { s with late := s.late ++ [LateText.file file] })
  | .insert text => proceed (emit settings [] (textBytes text))
  | .change text =>
    let isLater := c.second.isSome && !c.isNegated && (s.ranges.lookup c.index).isSome
    if !isLater then emit settings [] (textBytes text)
    return .error .dropped
  | .quit isPrinted status => return .error (.stopped isPrinted status)
  | .list width? =>
    proceed (emit settings [] (textBytes (listedText (width?.getD settings.width) s.space)))
  | .writeFile file => proceed (emitLine settings file s.space)
  | .writeFirst file => proceed (emit settings file (textBytes (firstLine s.space ++ ['\n'])))
  | .substitute given => proceed (substitute settings given)
  | .exchange pairs => goOn (s.space.map fun c => (pairs.lookup c).getD c)
  | .showNumber => proceed (emit settings [] (textBytes (Nat.toDigits 10 s.number ++ ['\n'])))
  | .showFile => proceed (emit settings [] (textBytes (s.file ++ ['\n'])))
  | .delete => return .error .dropped
  | .deleteFirst =>
    let behind := s.space.drop (firstLine s.space).length
    if behind.isEmpty then return .error .dropped
    set { s with space := behind.tail }
    return .error .again
  | .recall => proceed (set { s with space := s.held, hasEnd := s.heldEnd })
  | .recallMore =>
    proceed (set { s with space := s.space ++ '\n' :: s.held, hasEnd := s.heldEnd })
  | .hold => proceed (set { s with held := s.space, heldEnd := s.hasEnd })
  | .holdMore =>
    proceed (set { s with held := s.held ++ '\n' :: s.space, heldEnd := s.hasEnd })
  | .swap =>
    proceed (set { s with
      space := s.held, hasEnd := s.heldEnd, held := s.space, heldEnd := s.hasEnd })
  | .next =>
    if ← isLast settings then return .error .shown
    if !settings.isQuiet then emitLine settings [] s.space
    match ← takeLine settings with
    | some line => goOn line
    | none => return .error .dropped
  | .nextMore =>
    if ← isLast settings then return .error .shown
    match ← takeLine settings with
    | some line => goOn (s.space ++ '\n' :: line)
    | none => return .error .shown
  | .print => proceed (emitLine settings [] s.space)
  | .printFirst =>
    if '\n' ∈ s.space then
      proceed (emit settings [] (textBytes (firstLine s.space) ++ [settings.mark]))
    else proceed (emitLine settings [] s.space)
  | .clear => goOn []

/-- Runs commands for the present line. -/
def runCommands (settings : EditSettings) : (budget : Nat) → List EditCommand → Edit CycleEnd
  | 0, _ => return .dropped
  | _, [] => return .shown
  | n + 1, c :: rest => do
    if ← isSelected settings c then
      match ← perform settings c rest with
      | .ok following => runCommands settings n following
      | .error ending => return ending
    else if c.action = .opening then runCommands settings n (behindBlock 0 rest)
    else runCommands settings n rest

/-- The greatest number of commands for a line, and of lines. -/
def maxSteps : Nat := 10000

/-- Runs the commands for the present line and those behind it, and tells the status at the end. -/
def runCycle (settings : EditSettings) : (budget : Nat) → Edit Nat
  | 0 => return 0
  | n + 1 => do
    let ending ← runCommands settings maxSteps settings.commands
    let isShown := match ending with
      | .shown => true
      | .stopped isPrinted _ => isPrinted
      | _ => false
    if isShown && !settings.isQuiet then emitLine settings [] (← get).space
    match ending with
    | .stopped isPrinted status =>
      if isPrinted then emit settings [] []
      showLate settings
      return status
    | .again =>
      showLate settings
      runCycle settings n
    | _ =>
      match ← takeLine settings with
      | some line =>
        modify fun s => { s with space := line }
        runCycle settings n
      | none => return (← get).status

/-- Runs the commands for all lines. -/
def runAll (settings : EditSettings) : Edit Nat := do
  match ← takeLine settings with
  | none =>
    closeFile settings
    return (← get).status
  | some line =>
    modify fun s => { s with space := line }
    let status ← runCycle settings maxSteps
    closeFile settings
    return status

/-! ### The program -/

/-- The files that commands write to. -/
def writtenFiles (commands : List EditCommand) : List Text :=
  commands.filterMap fun c =>
    match c.action with
    | .writeFile file => some file
    | .writeFirst file => some file
    | .substitute s => s.file
    | _ => none

/-- A label that commands jump to and that is none of theirs. -/
def missingLabel? (commands : List EditCommand) : Option Text :=
  commands.findSome? fun c =>
    match c.action with
    | .jump _ label => if (behindMark? label commands).isNone then some label else none
    | _ => none

/-- Makes the files that commands write to empty, as far as that is possible, and tells which of
them cannot be opened. -/
def openWritten : List Text → Action (Option (Text × FileError))
  | [] => return none
  | file :: rest => do
    if isOutput file || file = "/dev/stderr".toList then openWritten rest
    else
      match Action.openFile (← get).tree (scriptPath file) false with
      | .ok (tree, _) =>
        modify fun s => { s with tree }
        openWritten rest
      | .error cause => return some (file, cause)

/-- A part of the script: its name, if it comes from a file, and its text. -/
abbrev ScriptPart := Option Text × Text

/-- The words for a place in a script that is made of parts, each in lines of its own. -/
def placeWords (place number : Nat) : List ScriptPart → Text
  | [] => []
  | (file?, text) :: rest =>
    if text.length < place ∧ !rest.isEmpty then
      placeWords (place - text.length - 1) (if file?.isNone then number + 1 else number) rest
    else
      match file? with
      | some file =>
        "file ".toList ++ file ++ " line ".toList ++
          Nat.toDigits 10 (1 + (text.take (place - 1)).count '\n') ++ ": ".toList
      | none =>
        "-e expression #".toList ++ Nat.toDigits 10 number ++ ", char ".toList ++
          Nat.toDigits 10 place ++ ": ".toList

/-- The words for a fault. -/
def faultWords (parts : List ScriptPart) (script : Text) (fault : EditFault) : Text :=
  match fault.left with
  | some left => placeWords (script.length - left) 1 parts ++ fault.words
  | none => "-e expression #1, char 0: ".toList ++ fault.words

/-- The parts of the script that options give, or the file that cannot be read. -/
def givenParts (a : ProgramArguments) : Action (Except (Text × FileError) (List ScriptPart)) := do
  let t := (← get).tree
  return a.options.filterMapM fun (option, value) =>
    if option = ['e'] then .ok (some (none, value))
    else if option = ['f'] then
      match Action.readBytes t (scriptPath value) with
      | .ok bytes =>
        let text := byteText bytes
        .ok (some (some value, if text.getLast? = some '\n' then text.dropLast else text))
      | .error cause => .error (value, cause)
    else .ok none

/-- Ends because something cannot be opened. -/
def failToOpen (file : Text) (cause : FileError) : Action Unit :=
  Program.failOn "sed" ("couldn't open file ".toList ++ file) cause 4

/-- Edits files by a script. -/
def edit (a : ProgramArguments) (parts : List ScriptPart) (files : List Text) : Action Unit := do
  let script : Text := List.intercalate ['\n'] (parts.map Prod.snd)
  match EditReader.commands (a.has "E" || a.has "r") script with
  | .error fault => Program.fail "sed" (faultWords parts script fault) 1
  | .ok commands =>
    match ← openWritten (writtenFiles commands), missingLabel? commands with
    | some (file, cause), _ => failToOpen file cause
    | none, some label =>
      Program.fail "sed" ("can't find label for jump to \x60".toList ++ label ++ ['\'']) 4
    | none, none =>
      let firstPart := ((parts.head?.map Prod.snd).getD []).takeWhile (· ≠ '\n')
      let inPlace := a.value? "in-place"
      let settings : EditSettings :=
        { commands, inPlace
          isQuiet := a.has "n" || firstPart == ['#', 'n']
          isSeparate := a.has "s" || inPlace.isSome
          mark := if a.has "z" then 0 else 0x0A
          width := ((a.value? "l").bind (Text.number? 10)).getD 70 }
      let state : EditState :=
        { pending := Program.orInput files, ranges := startRanges commands }
      match ← StateT.run (ExceptT.run (runAll settings)) state with
      | (.ok status, _) => Action.setStatus status
      | (.error status, _) => Action.setStatus status

/-- The options of `sed`. -/
def usage : Usage where
  name := "sed"
  flags := "nErsuz"
  valued := "efl"
  names := [("quiet", "n"), ("silent", "n"), ("regexp-extended", "E"), ("separate", "s"),
    ("unbuffered", "u"), ("null-data", "z"), ("zero-terminated", "z"), ("expression=", "e"),
    ("file=", "f"), ("line-length=", "l"), ("in-place=", "in-place"), ("posix", "posix"),
    ("debug", "debug"), ("sandbox", "sandbox"), ("follow-symlinks", "follow-symlinks")]

/-- The option `i` with its value, which stands behind it, as a long option. -/
def withoutShortInPlace : List Text → List Text
  | [] => []
  | ['-', '-'] :: rest => ['-', '-'] :: rest
  | argument :: rest =>
    let letters := argument.tail.takeWhile fun c => usage.flags.toList.contains c
    let front := if letters.isEmpty then [] else ['-' :: letters]
    if argument.head? = some '-' ∧ argument[1 + letters.length]? = some 'i' then
      front ++ ("--in-place=".toList ++ argument.drop (2 + letters.length)) ::
        withoutShortInPlace rest
    else if argument = "--in-place".toList then
      "--in-place=".toList :: withoutShortInPlace rest
    else if argument = ['-', 'e'] ∨ argument = ['-', 'f'] then
      match rest with
      | value :: rest => argument :: value :: withoutShortInPlace rest
      | [] => [argument]
    else argument :: withoutShortInPlace rest

/-- How the program is used. -/
def usageLine : Text :=
  "Usage: sed [OPTION]... \x7bscript-only-if-no-other-script\x7d [input-file]...".toList

end Edit

/-- The program `sed`. -/
def sed : Program := fun arguments => do
  Action.setStatus 0
  match Edit.usage.read (Edit.withoutShortInPlace arguments) with
  | .error words =>
    Program.fail "sed" words 1
    Action.writeError Edit.usageLine
  | .ok a =>
    match ← Edit.givenParts a, a.operands with
    | .error (file, cause), _ => Edit.failToOpen file cause
    | .ok [], [] =>
      Action.writeError Edit.usageLine
      Action.setStatus 1
    | .ok [], script :: files => Edit.edit a [(none, script)] files
    | .ok parts, files => Edit.edit a parts files

end ScriptBundle.Shell
