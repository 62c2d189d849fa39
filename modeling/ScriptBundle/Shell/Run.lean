import ScriptBundle.Shell.Lookup

/-!
# Running Scripts

The effect of commands. What a command does with the commands in it is told in terms of an
evaluator for these; the evaluator of a given budget is then made out of the one of a lesser budget.

## Main definitions

* `Evaluator`: runs commands;
* `Evaluator.runScript`: runs a script line by line;
* `Evaluator.runFields`: runs a command that consists of fields;
* `Evaluator.step`: runs a command by means of an evaluator for its parts;
* `Evaluator.ofBudget`: the evaluator that goes down to a given depth.

## Main statements

* `Evaluator.ofBudget_succ`: a greater budget is one step more.
-/

namespace ScriptBundle.Shell

/-- An **evaluator** runs commands. A failure of a command that is tested does not end the script,
whatever the settings. -/
abbrev Evaluator := (isTested : Bool) → Command → Action Unit

namespace Evaluator

/-! ### Scripts -/

/-- Runs the lines of a script one after the other. What is wrong with a line counts only once the
lines before it have been run. -/
def runLines (run : Evaluator) (isTested : Bool) :
    (budget : Nat) → List (Nat × ShellToken) → Action Unit
  | 0, _ => pure ()
  | n + 1, tokens => do
    match (Command.line.run (← get).aliases).run tokens with
    | .error (line, fault) =>
      modify fun s => { s with line }
      Action.abort fault.message.toList
    | .ok (none, _) => pure ()
    | .ok (some (.sequence []), rest) => runLines run isTested n rest
    | .ok (some command, rest) => do
      run isTested command
      runLines run isTested n rest

/-- Runs a script that starts on a line. -/
def runScript (run : Evaluator) (isTested : Bool) (line : Nat) (script : Text) : Action Unit :=
  let tokens := scriptTokens line script
  runLines run isTested (tokens.length + 1) tokens

/-- Runs a script by itself. -/
def runInside (run : Evaluator) (script : Text) : Action Unit := runScript run false 1 script

/-- The output of a script that starts on a line. -/
def capture (run : Evaluator) (line : Nat) (script : Text) : Action Text :=
  Action.capturedText (runInside run) (runScript run false line script)

/-- Ends a script that is to end at a failure, unless the failure is tested. -/
def endOnFailure (isTested : Bool) : Action Unit := do
  let s ← get
  if s.status ≠ 0 ∧ !isTested ∧ s.isOn "errexit" then throw .exit

/-! ### Functions and scripts in files -/

/-- The state behind a function, in which what the function has made its own is what it was
before. -/
def leaveFunction (before after : ShellState) : ShellState :=
  let s := (after.saved.getD []).foldl (fun s (name, content) => s.setVariable name content) after
  { s with
    arguments := before.arguments, optionPlace := before.optionPlace, saved := before.saved
    options := after.savedOptions.getD after.options, savedOptions := before.savedOptions
    loops := before.loops }

/-- Calls a function. -/
def call (run : Evaluator) (isTested : Bool) (body : Command) (arguments : List Text) :
    Action Unit := do
  let jump ← Action.keeping leaveFunction do
    modify fun s => { s with
      arguments, optionPlace := (1, none), saved := some [], savedOptions := none, loops := 0 }
    Action.settle (run isTested body)
  match jump with
  | none => pure ()
  | some .return => pure ()
  | some other => throw other

/-- Runs the script in a file in place. -/
def runFile (run : Evaluator) (isTested : Bool) (arguments : List Text) : Action Unit := do
  let (_, operands) ← Builtin.takeOptions "" "" arguments
  match operands with
  | [] => Action.setStatus 0
  | file :: _ =>
    let s ← get
    let paths := if '/' ∈ file then [file] else (searchPath s).map (Filter.joined · file)
    let isFile (path : Text) : Bool := (s.tree.node? (scriptPath path)).any FileNode.isFile
    let file? := if '/' ∈ file then some file else paths.find? isFile
    if file?.isNone then Action.abort (file ++ ": not found".toList)
    let file := file?.getD file
    match Action.readBytes s.tree (scriptPath file) with
    | .ok bytes =>
      Action.setStatus 0
      let body := runScript run isTested 1 (byteText bytes)
      match ← Action.settle (Action.labelled (file ++ ": ".toList) body) with
      | none => pure ()
      | some .return => pure ()
      | some other => throw other
    | .error cause =>
      Action.abort ("cannot open ".toList ++ file ++ ": ".toList ++
        (Action.openWords false cause).toList)

/-! ### The shell as a program -/

/-- Runs a script in a state of its own, up to its end. -/
def runWhole (run : Evaluator) (name script : Text) (arguments : List Text) : Action Unit := do
  modify fun s => { s with name, arguments, line := 1 }
  match ← Action.finishing (runInside run) (runInside run script) with
  | some .killed => modify fun s => { s with signal := some (s.status - 128), traps := [] }
  | _ => pure ()

/-- The state in which a shell starts inside of another one, from which it knows the exported
variables only. -/
def innerState (program : Text) (s : ShellState) : ShellState :=
  let number := s.lastNumber + 1
  let exported := s.bindings.filter (·.2.isExported)
  { s with
    name := program, line := 0, label := [], arguments := [], optionPlace := (1, none)
    bindings := withUsualVariables s.number exported, functions := [], aliases := [], found := []
    options := [], saved := none, savedOptions := none, loops := 0, status := 0
    number, lastNumber := number, parents := s.number :: s.parents, isApart := false, jobs := []
    interrupted := none, substituted := none }

/-- Runs the shell. -/
def runShell (run : Evaluator) (program : Text) (arguments : List Text) : Action Unit :=
  Action.isolated (runInside run) do
    modify (innerState program)
    let front ← Builtin.takeSettings true arguments
    match front.isScript, front.operands.getD [] with
    | true, [] => Action.abort "-c requires an argument".toList
    | true, [script] => runWhole run program script []
    | true, script :: name :: rest => runWhole run name script rest
    | false, operands =>
      let isInput := operands.isEmpty || (← get).isOn "stdin"
      if isInput then
        modify (·.turn "stdin" true)
        runWhole run program (byteText (← Program.takeInput)) operands
      else
        let file := operands.headD []
        match Action.readBytes (← get).tree (scriptPath file) with
        | .ok bytes => runWhole run file (byteText bytes) operands.tail
        | .error .isADirectory => runWhole run file [] operands.tail
        | .error cause =>
          Action.abort ("cannot open ".toList ++ file ++ ": ".toList ++
            (Action.openWords false cause).toList)

/-! ### Commands of fields -/

/-- Complains that a program of a name cannot be run. -/
def reportMissing (name : Text) (cause : FileError) : Action Unit :=
  if name.isEmpty then Action.complain ": Permission denied".toList 127
  else if cause = .permissionDenied then
    Action.complain (name ++ ": Permission denied".toList) 126
  else Action.complain (name ++ ": not found".toList) 127

/-- The interpreter that the first line of a script names, with what else stands there. -/
def interpreter? : List UInt8 → Option (List Text)
  | 0x23 :: 0x21 :: rest =>
    let line := (byteText (rest.takeWhile (· ≠ 0x0A))).dropWhile isBlankChar
    let name := line.takeWhile (!isBlankChar ·)
    let behind := (line.drop name.length).dropWhile isBlankChar
    let argument := (behind.reverse.dropWhile isBlankChar).reverse
    some (name :: if argument.isEmpty then [] else [argument])
  | _ => none

/-- The content of a file that may be run, or why it cannot be run. -/
def runnable (s : ShellState) (file : Text) : Except FileError (List UInt8) :=
  match Action.readBytes s.tree (scriptPath file) with
  | .ok bytes => if s.mayRun file then .ok bytes else .error .permissionDenied
  | .error .isADirectory => .error .permissionDenied
  | .error cause => .error cause

/-- Runs a program of the system by itself: what it does to variables and directories is of no
effect on others. -/
def runApart (name : Text) (body : Action Unit) : Action Unit :=
  Action.keeping (fun before after => { after with
      bindings := before.bindings, invoked := before.invoked, directory := before.directory
      lost := before.lost
      tree := { after.tree with workingDirectory := before.tree.workingDirectory } }) do
    modify fun s => { s with invoked := name, lost := none }
    body
    match (← get).lost with
    | some loss => reportLoss (String.ofList (programName name)) loss
    | none => pure ()

/-- The program of the system that has a name. It is run as `name`, and may launch others. -/
def systemProgram? (run : Evaluator) (launcher : Launcher) (name : Text) (known : String) :
    Option Program :=
  match program? known <|> Launching.ofName? launcher known with
  | some program => some fun arguments => runApart name (program arguments)
  | none =>
    if known = "sh" then some (runShell run name)
    else if known = "which" then some which
    else if isProgram known then
      let builtin := (Builtin.ofName? known).getD fun _ => pure ()
      some fun arguments => runApart name <| Builtin.confined <|
        Action.labelled (known.toList ++ ": ".toList) (builtin arguments)
    else none

/-- Launches programs, which may launch others in turn. -/
def launch (run : Evaluator) : (budget : Nat) → Launcher
  | 0, _ => return some .notFound
  | _, [] => do
    Action.setStatus 0
    return none
  | n + 1, name :: arguments => do
    let s ← get
    match programPath s name with
    | .error cause => return some cause
    | .ok path =>
      let known := String.ofList (programName path)
      match if isSystemProgram path then systemProgram? run (launch run n) name known else none with
      | some program =>
        program arguments
        return none
      | none =>
        match runnable s path with
        | .error cause => return some cause
        | .ok bytes =>
          match interpreter? bytes with
          | some fields => launch run n (fields ++ path :: arguments)
          | none =>
            runShell run "sh".toList (path :: arguments)
            return none

/-- How deep programs may launch one another. -/
def maxLaunches : Nat := 100

/-- Runs a program of the system, given its name and its arguments. -/
def runProgram (run : Evaluator) : List Text → Action Unit
  | [] => pure ()
  | name :: arguments =>
    let known := String.ofList (programName name)
    match systemProgram? run (launch run maxLaunches) name known with
    | some program => program arguments
    | none => pure ()

/-- Runs a program that is found from within a script, or tells why it cannot be run. -/
def launchFrom (run : Evaluator) (fields : List Text) : Action (Option FileError) := do
  let name := fields.headD []
  match programPathInScript (← get) name with
  | .error cause => return some cause
  | .ok path =>
    match ← launch run maxLaunches fields with
    | some cause => return some cause
    | none =>
      if '/' ∉ name then remember name path
      return none

/-- Runs a program in a script, which complains if there is none. -/
def runInScript (run : Evaluator) (fields : List Text) : Action Unit := do
  match ← launchFrom run fields with
  | some cause => reportMissing (fields.headD []) cause
  | none =>
    let signal := (← get).signal
    modify fun s => { s with signal := none }
    match signal.bind Signal.words? with
    | some words => Action.writeError words.toList
    | none => pure ()

/-- The command `exec` with a program, which takes the place of the script. -/
def runExec (run : Evaluator) (fields : List Text) : Action Unit :=
  if fields.isEmpty then Action.setStatus 0
  else do
    match ← launchFrom run fields with
    | some cause => reportMissing (fields.headD []) cause
    | none => modify fun s => { s with traps := [] }
    throw (if (← get).signal.isSome then .killed else .exit)

/-- The builtin command of a name, of those that run further commands or tell of commands. -/
def runningBuiltin? (run : Evaluator) (isTested : Bool) (name : String) :
    Option (List Text → Action Unit) :=
  match name with
  | "eval" => some fun arguments => do
    Action.setStatus 0
    runScript run isTested 1 (spaced arguments)
  | "." => some (runFile run isTested)
  | "exec" => some (runExec run)
  | "command" => some commandWords
  | "type" => some type
  | "hash" => some hash
  | _ => none

/-- The operands of the command `command`, if they are a command to run. -/
def commandOperands? : List Text → Option (List Text)
  | [] => none
  | word :: rest =>
    match word with
    | ['-', '-'] => if rest.isEmpty then none else some rest
    | '-' :: c :: letters =>
      if (c :: letters).all (· == 'p') then commandOperands? rest else none
    | _ => some (word :: rest)

/-- The fields of a command behind the words `command`, and whether there are such words. -/
def behindCommand : (budget : Nat) → List Text → List Text × Bool
  | n + 1, word :: rest =>
    match if word = "command".toList then commandOperands? rest else none with
    | some operands => ((behindCommand n operands).1, true)
    | none => (word :: rest, false)
  | _, fields => (fields, false)

/-- Runs a command that consists of fields and is no function. Errors of a command that
`isConfined` do not end the script. -/
def runKnown (run : Evaluator) (isTested isConfined : Bool) : List Text → Action Unit
  | [] => Action.setStatus 0
  | name :: arguments =>
    let known := String.ofList name
    match Builtin.ofName? known <|> runningBuiltin? run isTested known with
    | some builtin =>
      let body := Builtin.named name (builtin arguments)
      if isConfined || !specialNames.contains known then Builtin.confined body else body
    | none => runInScript run (name :: arguments)

/-- Runs a command that consists of fields. -/
def runFields (run : Evaluator) (isTested isConfined : Bool) (fields : List Text) :
    Action Unit := do
  let s ← get
  match fields with
  | name :: arguments =>
    match if isConfined then none else s.functions.lookup name with
    | some body => call run isTested body arguments
    | none => runKnown run isTested isConfined fields
  | [] => Action.setStatus (s.substituted.getD 0)

/-- Sets variables for a command. Unless it is a special one, they are set for it only. -/
def assignAll (run : Evaluator) (isExported : Bool) :
    List (Text × Word) → Action (List Text)
  | [] => return []
  | (name, word) :: rest => do
    let value ← Action.expandText (capture run) word
    Action.assign name value
    if isExported then modify (·.markExported name)
    return (name ++ '=' :: value) :: (← assignAll run isExported rest)

/-- The state behind a command for which variables were set. -/
def withoutAssignments (names : List Text) (before after : ShellState) : ShellState :=
  names.foldl (fun s name => s.setVariable name (before.bindings.lookup name)) after

/-- Shows a command before it runs, where errors go outside of the command. -/
def trace (channels : List (Nat × Channel)) (fields : List Text) : Action Unit := do
  let s ← get
  if s.isOn "xtrace" then
    let shown := { s with channels }.write 2 (textBytes ("+ ".toList ++ spaced fields ++ ['\n']))
    set { shown with channels := s.channels }

/-- Runs a simple command. -/
def runSimple (run : Evaluator) (isTested : Bool) (assignments : List (Text × Word))
    (words : List Word) (redirections : List Redirection) : Action Unit := do
  modify fun s => { s with substituted := none }
  let written ← Action.expandFields (capture run) words
  let s ← get
  let (fields, isConfined) :=
    if (s.functions.lookup "command".toList).isSome then (written, false)
    else behindCommand written.length written
  let isSpecial := !isConfined && specialNames.contains (String.ofList (fields.headD []))
  let stays := fields.isEmpty || isSpecial
  let names := if stays then [] else assignments.map Prod.fst
  if fields = ["exec".toList] then
    Action.setStatus 0
    if !(← Action.applyRedirections (capture run) redirections) && isSpecial then throw .fault
  else
    let isPossible ← Action.keeping (withoutAssignments names) <|
      Action.withRedirections (capture run) redirections do
        let assigned ← assignAll run (!stays) assignments
        trace s.channels (assigned ++ written)
        runFields run isTested isConfined fields
    if !isPossible && isSpecial then throw .fault

/-! ### Loops -/

/-- Runs a turn of a loop, which tells whether the loop goes on. -/
def turn (body : Action Bool) : Action Bool :=
  Action.keeping (fun before after => { after with loops := before.loops }) do
    modify fun s => { s with loops := s.loops + 1 }
    tryCatch body fun
      | .behind 0 => return false
      | .behind (n + 1) => throw (.behind n)
      | .again 0 => return true
      | .again (n + 1) => throw (.again n)
      | other => throw other

/-- The turns of a loop, which ends with the status of its last body. -/
def runTurns (run : Evaluator) (isTested isUntil : Bool) (test body : Command) :
    (budget : Nat) → (status : Nat) → Action Unit
  | 0, status => Action.setStatus status
  | n + 1, status => do
    let goesOn ← turn do
      run true test
      if ((← Action.status) == 0) == isUntil then
        Action.setStatus status
        return false
      run isTested body
      return true
    if goesOn then runTurns run isTested isUntil test body n (← Action.status)

/-- A turn of a loop for each of some items. -/
def runEach (run : Evaluator) (isTested : Bool) (name : Text) (body : Command) :
    List Text → Action Unit
  | [] => pure ()
  | item :: rest => do
    Action.assign name item
    let goesOn ← turn do
      run isTested body
      return true
    if goesOn then runEach run isTested name body rest

/-- The branch of a choice whose patterns a text has first. -/
def findBranch (run : Evaluator) (subject : Text) :
    List (List Word × Command) → Action (Option Command)
  | [] => return none
  | (patterns, body) :: rest => do
    let holds ← patterns.anyM fun word => do
      return (← Action.expandPattern (capture run) word).fits subject
    if holds then return some body else findBranch run subject rest

/-! ### Commands -/

/-- Remembers the program that a command names, if it does so plainly. -/
def rememberPart (part : Command) : Action Unit :=
  match part with
  | .simple _ _ (word :: _) _ => do
    let name := word.literal?.getD []
    match lookUp (← get) name with
    | .program path => if isName name then remember name path
    | _ => pure ()
  | _ => pure ()

/-- Runs the parts of a pipeline, each with the output of the one before it as its input. -/
def runParts (run : Evaluator) : List Command → Action Unit
  | [] => pure ()
  | [last] => Action.isolated (runInside run) (run false last)
  | part :: rest => do
    let bytes ← Action.captured (runInside run) (run false part)
    modify (·.openSource 0 { bytes })
    runParts run rest

/-- Runs a command in the background, which is a job then. -/
def runJob (run : Evaluator) (body : Command) : Action Unit := do
  modify fun s => { s with lastNumber := s.lastNumber + 1 }
  let number := (← get).lastNumber
  Action.keeping Action.withoutRedirections do
    modify (·.openSource 0 {})
    Action.isolated (runInside run) (run false body)
  modify fun s => { s with
    jobs := { number, status := s.status } :: s.jobs, status := 0, signal := none }

/-- Runs the scripts of the signals that have been caught. -/
def runCaught (run : Evaluator) : Action Unit := do
  let s ← get
  if !s.caught.isEmpty then
    set { s with caught := [], interrupted := some (s.interrupted.getD s.status) }
    (s.caught.mergeSort fun m n => decide (m ≤ n)).forM fun number =>
      runInside run ((s.traps.lookup number).getD [])
    modify fun after => { after with status := s.status, interrupted := s.interrupted }

/-- The greatest number of turns of a loop. -/
def maxTurns : Nat := 10000

/-- Runs a command, by means of an evaluator for the commands in it. -/
def stepWithin (run : Evaluator) : Evaluator := fun isTested command => do
  match command with
  | .simple line assignments words redirections =>
    modify fun s => { s with line }
    runSimple run isTested assignments words redirections
    endOnFailure isTested
  | .redirected line redirections body =>
    modify fun s => { s with line }
    let _ ← Action.withRedirections (capture run) redirections (run isTested body)
    endOnFailure isTested
  | .sequence [] => Action.setStatus 0
  | .sequence steps => steps.forM (run isTested)
  | .isolated body =>
    Action.isolated (runInside run) (run isTested body)
    endOnFailure isTested
  | .background body => runJob run body
  | .pipeline parts =>
    parts.forM rememberPart
    Action.keeping Action.withoutRedirections (runParts run parts)
    endOnFailure isTested
  | .negation body =>
    run true body
    Action.setTruth ((← Action.status) != 0)
  | .andThen first second =>
    run true first
    if (← Action.status) = 0 then run isTested second
  | .orElse first second =>
    run true first
    if (← Action.status) ≠ 0 then run isTested second
  | .conditional test body alternative =>
    run true test
    if (← Action.status) = 0 then run isTested body else run isTested alternative
  | .loop isUntil test body => runTurns run isTested isUntil test body maxTurns 0
  | .each line name items? body =>
    modify fun s => { s with line }
    let items ← match items? with
      | some words => Action.expandFields (capture run) words
      | none => pure (← get).arguments
    Action.setStatus 0
    runEach run isTested name body items
  | .choice line subject branches =>
    modify fun s => { s with line }
    let text ← Action.expandText (capture run) subject
    match ← findBranch run text branches with
    | some body => run isTested body
    | none => Action.setStatus 0
  | .definition name body =>
    modify fun s => { s with
      functions := (name, body) :: s.functions.filter (·.1 ≠ name), status := 0 }

/-- Runs a command, unless commands are only read, and then the scripts of the signals that it has
sent. -/
def step (run : Evaluator) : Evaluator := fun isTested command => do
  if !(← get).isOn "noexec" then
    stepWithin run isTested command
    runCaught run

/-- The evaluator that goes down to a given depth. -/
def ofBudget : Nat → Evaluator
  | 0 => fun _ _ => pure ()
  | n + 1 => step (ofBudget n)

/-- A greater budget is one step more. -/
theorem ofBudget_succ (n : Nat) : ofBudget (n + 1) = step (ofBudget n) := rfl

end Evaluator

end ScriptBundle.Shell
