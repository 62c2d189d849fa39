import ScriptBundle.Shell.Filter
import ScriptBundle.Shell.Finding.Walk
import ScriptBundle.Shell.Surroundings

/-!
# Launching Programs

The programs that run other programs: with other variables, for the words of their input, or within
limits.

## Main definitions

* `Batch.words`: the words of an input;
* `Batch.groups`: the words that go together;
* `Launching.ofName?`: the program of a name.

## Main statements

* `Batch.chunks_flatten`: nothing is lost in groups.
-/

namespace ScriptBundle.Shell

/-! ### Words of input -/

/-- A word of an input. -/
structure BatchWord where
  text : Text
  /-- Whether a line ends behind it. -/
  endsLine : Bool
  deriving DecidableEq, Repr

namespace Batch

/-- The **words** of an input, and the quote that has no end, if there is one. `quote` is the open
one, and `word` the word that has begun. -/
def words (isWhole : Bool) (quote : Option Char) (word : Option Text) :
    Text → List BatchWord × Option Char
  | [] =>
    match quote with
    | some mark => ([], some mark)
    | none => ((word.map fun text => ⟨text, true⟩).toList, none)
  | c :: rest =>
    let add (text : Text) : Option Text := some (word.getD [] ++ text)
    let finish (endsLine : Bool) : List BatchWord × Option Char :=
      let (others, fault) := words isWhole none none rest
      ((word.map fun text => ⟨text, endsLine⟩).toList ++ others, fault)
    match quote with
    | some mark =>
      if c = '\n' then ([], some mark)
      else if c = mark then words isWhole none (add []) rest
      else words isWhole quote (add [c]) rest
    | none =>
      if c = '\n' then finish true
      else if isBlankChar c && (!isWhole || word.isNone) then finish false
      else if c = '\'' ∨ c = '"' then words isWhole (some c) (add []) rest
      else if c = '\\' then
        match rest with
        | [] => ((word.map fun text => ⟨text, true⟩).toList, none)
        | d :: rest => words isWhole none (add [d]) rest
      else words isWhole none (add [c]) rest

/-- The words of an input between delimiters. -/
def delimited (mark : Char) (input : Text) : List BatchWord :=
  (byteLinesBy (UInt8.ofNat mark.toNat) (textBytes input)).map fun line =>
    let text := byteText line
    ⟨if text.getLast? = some mark then text.dropLast else text, true⟩

/-- Groups of a size. -/
def chunks (size : Nat) : (budget : Nat) → List Text → List (List Text)
  | 0, _ => []
  | _, [] => []
  | n + 1, texts => texts.take size :: chunks size n (texts.drop size)

/-- Nothing is lost in groups. -/
theorem chunks_flatten {size budget : Nat} (hsize : 0 < size) {texts : List Text}
    (hbudget : texts.length ≤ budget) : (chunks size budget texts).flatten = texts := by
  induction budget generalizing texts with
  | zero =>
    obtain rfl := List.length_eq_zero_iff.mp (Nat.le_zero.mp hbudget)
    rfl
  | succ n ih =>
    cases texts with
    | nil => rfl
    | cons text rest =>
      have hdrop : ((text :: rest).drop size).length ≤ n := by
        simp only [List.length_drop, List.length_cons] at hbudget ⊢
        omega
      rw [chunks, List.flatten_cons, ih hdrop, List.take_append_drop]
      simp

/-- Groups of so many lines. `taken` are the words of the present group, of which so many lines are
`left`. -/
def lineGroups (size : Nat) (taken : List Text) (left : Nat) :
    List BatchWord → List (List Text)
  | [] => if taken.isEmpty then [] else [taken]
  | word :: rest =>
    let taken := taken ++ [word.text]
    if word.endsLine then
      if left ≤ 1 then taken :: lineGroups size [] size rest
      else lineGroups size taken (left - 1) rest
    else lineGroups size taken left rest

/-- A text with another one in the place of each mark. -/
def replaceAll (mark value : Text) : (budget : Nat) → Text → Text
  | 0, s => s
  | _, [] => []
  | n + 1, c :: rest =>
    if !mark.isEmpty && mark.isPrefixOf (c :: rest) then
      value ++ replaceAll mark value n ((c :: rest).drop mark.length)
    else c :: replaceAll mark value n rest

/-- How words are made into commands. -/
inductive Grouping where
  | together
  | byCount (n : Nat)
  | byLines (n : Nat)
  /-- Each by itself, in the place of a mark. -/
  | inPlace (mark : Text)
  deriving DecidableEq, Repr

/-- The **commands** for some words. -/
def groups (command : List Text) (isSkipped : Bool) (g : Grouping) (ws : List BatchWord) :
    List (List Text) :=
  let texts := ws.map BatchWord.text
  match g with
  | .inPlace mark =>
    texts.map fun text => command.take 1 ++
      (command.drop 1).map fun word => replaceAll mark text (word.length + 1) word
  | _ =>
    let groups := match g with
      | .byCount n => chunks n (texts.length + 1) texts
      | .byLines n => lineGroups n [] n ws
      | _ => if texts.isEmpty then [] else [texts]
    if groups.isEmpty then (if isSkipped then [] else [command])
    else groups.map (command ++ ·)

/-! ### Options -/

/-- The options of `xargs`. -/
def usage : Usage where
  name := "xargs"
  flags := "0rtxpo"
  valued := "dIELnsPa"
  names := [("null", "0"), ("no-run-if-empty", "r"), ("verbose", "t"), ("exit", "x"),
    ("interactive", "p"), ("delimiter=", "d"), ("replace=", "I"), ("eof=", "E"),
    ("max-lines=", "L"), ("max-args=", "n"), ("max-chars=", "s"), ("max-procs=", "P"),
    ("arg-file=", "a")]
  mixes := false

/-- The arguments with the usual value for those options that need none. -/
def withValues : List Text → List Text
  | [] => []
  | argument :: rest =>
    match argument with
    | ['-', 'i'] => "-I\x7b\x7d".toList :: withValues rest
    | '-' :: 'i' :: mark => ('-' :: 'I' :: mark) :: withValues rest
    | ['-', 'l'] => "-L1".toList :: withValues rest
    | '-' :: 'l' :: count => ('-' :: 'L' :: count) :: withValues rest
    | ['-', '-'] => argument :: rest
    | ['-', c] =>
      if c ∈ usage.valued.toList then
        match rest with
        | value :: rest => argument :: value :: withValues rest
        | [] => [argument]
      else argument :: withValues rest
    | '-' :: _ =>
      (if argument = "--replace".toList then "-I\x7b\x7d".toList
        else if argument = "--max-lines".toList then "-L1".toList else argument) :: withValues rest
    | _ => argument :: rest

/-- The number that an option has as its value, or what is wrong with it. -/
def countOf (option value : Text) : Except Text Nat :=
  match Text.number? 10 value with
  | none =>
    .error ("invalid number \"".toList ++ value ++ "\" for -".toList ++ option ++ " option".toList)
  | some 0 => .error ("value 0 for -".toList ++ option ++ " option should be >= 1".toList)
  | some n => .ok n

/-- How the last of some options groups words, and the complaints about those before it. -/
def groupingOf : List (Text × Text) → Except Text (Grouping × List Text)
  | [] => .ok (.together, [])
  | (option, value) :: before => do
    let known (option : Text) : String :=
      if option = ['I'] then "--replace/-I/-i"
      else if option = ['n'] then "--max-args" else "--max-lines"
    let short (option : Text) : String :=
      if option = ['n'] then "--max-args/-n" else known option
    let g ← if option = ['I'] then pure (Grouping.inPlace value)
      else if option = ['n'] then Grouping.byCount <$> countOf option value
      else Grouping.byLines <$> countOf option value
    let complaints := (before.filter (·.1 ≠ option)).take 1 |>.map fun (other, _) =>
      ("warning: options " ++ known other ++ " and " ++ short option ++
        " are mutually exclusive, ignoring previous " ++ (known other).takeWhile (· ≠ '/') ++
        " value").toList
    return (g, complaints)

/-- The words that are left in front of the one that ends the input. -/
def upTo (ending : Option Text) (ws : List BatchWord) : List BatchWord :=
  match ending with
  | none => ws
  | some ending => ws.takeWhile (·.text ≠ ending)

/-- A word as it is shown in a command. -/
def shownWord (word : Text) : Text :=
  if needsShellQuotes (word.filter (· ≠ ':')) then inShellQuotes word else word

/-! ### Running -/

/-- Runs commands one after the other, and tells the status of all of them. -/
def runAll (launch : Launcher) (isShown : Bool) : (status : Nat) → List (List Text) → Action Nat
  | status, [] => return status
  | status, fields :: rest => do
    let name := fields.headD []
    if isShown then Action.writeError (spaced (fields.map shownWord))
    match ← launch fields with
    | some cause =>
      Program.failOn "xargs" name cause 0
      return if cause = .notFound then 127 else 126
    | none =>
      let s ← get
      match s.signal, s.status with
      | some signal, _ =>
        set { s with signal := none }
        Program.fail "xargs"
          (name ++ ": terminated by signal ".toList ++ Nat.toDigits 10 signal) 0
        return 125
      | none, 0 => runAll launch isShown status rest
      | none, 255 =>
        Program.fail "xargs" (name ++ ": exited with status 255; aborting".toList) 0
        return 124
      | none, _ => runAll launch isShown 123 rest

/-- The character that delimits words, if an option tells one. -/
def delimiter? (a : ProgramArguments) : Option Char :=
  if a.has "0" then some '\x00'
  else
    (a.value? "d").bind fun value =>
      match resolved true value with
      | (b :: _, _) => some (Char.ofNat b.toNat)
      | _ => none

/-- Runs commands for the words of an input. -/
def run (launch : Launcher) (a : ProgramArguments) (g : Grouping) (input : Text) :
    Action Unit := do
  let isWhole := match g with
    | .inPlace _ => true
    | _ => false
  let (ws, fault) := match delimiter? a with
    | some mark => (delimited mark input, none)
    | none =>
      let (ws, fault) := words isWhole none none input
      (upTo (a.value? "E") ws, fault)
  match fault with
  | some mark =>
    let kind := if mark = '"' then "double" else "single"
    Program.fail "xargs" ("unmatched " ++ kind ++ " quote; by default quotes are special to " ++
      "xargs unless you use the -0 option").toList 1
  | none => pure ()
  let command := if a.operands.isEmpty then ["echo".toList] else a.operands
  let isSkipped := a.has "r" || fault.isSome
  let status ← runAll launch (a.has "t") 0 (groups command isSkipped g ws)
  Action.setStatus (if status = 0 ∧ fault.isSome then 1 else status)

/-- The program `xargs`. -/
def xargs (launch : Launcher) : Program := fun arguments =>
  Program.withOptions usage (fun a => do
    let grouping := a.options.reverse.filter fun (option, _) =>
      option == ['I'] || option == ['n'] || option == ['L']
    match groupingOf grouping with
    | .error words => Program.misuse usage words
    | .ok (g, complaints) =>
      complaints.forM fun words => Program.fail "xargs" words 0
      match a.value? "a" with
      | none => run launch a g (byteText (← Program.takeInput))
      | some file =>
        match Action.readBytes (← get).tree (scriptPath file) with
        | .ok bytes => run launch a g (byteText bytes)
        | .error cause =>
          Program.failOn "xargs" ("Cannot open input file ".toList ++ inShellQuotes file) cause 1)
    (withValues arguments)

end Batch

/-! ### Programs with something around them -/

namespace Launching

/-- Launches a program, and says why that is not possible. -/
def launchOr (launch : Launcher) (name : String) (words : Text → Text) (fields : List Text) :
    Action Unit := do
  match ← launch fields with
  | none => pure ()
  | some cause =>
    Program.failOn name (words (fields.headD [])) cause (if cause = .notFound then 127 else 126)

/-- The words for a command that cannot be run. -/
def failedToRun (command : Text) : Text :=
  "failed to run command ".toList ++ inShellQuotes command

/-- The options of `env`. -/
def envUsage : Usage where
  name := "env"
  flags := "i0"
  valued := "uC"
  names := [("ignore-environment", "i"), ("null", "0"), ("unset=", "u"), ("chdir=", "C")]
  mixes := false
  misuseStatus := 125

/-- The name and the value of a word that is an assignment. -/
def assignment? (word : Text) : Option (Text × Text) :=
  let name := word.takeWhile (· ≠ '=')
  if name.length < word.length then some (name, word.drop (name.length + 1)) else none

/-- Runs a program in a directory, if one is given. -/
def inChosenDirectory (a : ProgramArguments) (body : Action Unit) : Action Unit := do
  let t := (← get).tree
  match a.value? "C" with
  | none => body
  | some directory =>
    let words := "cannot change directory to ".toList ++ inQuotes directory
    match t.locate (scriptPath directory), t.isDirectory (scriptPath directory) with
    | .error cause, _ => Program.failOn "env" words cause 125
    | .ok _, false => Program.failOn "env" words .notADirectory 125
    | .ok _, true => Find.inDirectory directory body

/-- The program `env`. -/
def env (launch : Launcher) : Program := fun arguments =>
  let arguments := match arguments with
    | ['-'] :: rest => ['-', 'i'] :: rest
    | arguments => arguments
  Program.withOptions envUsage (fun a => do
    let assignments := a.operands.takeWhile fun word => (assignment? word).isSome
    let command := a.operands.drop assignments.length
    if a.has "i" then modify fun s => { s with bindings := [] }
    (a.values "u").forM fun name => modify (·.setVariable name none)
    (assignments.filterMap assignment?).forM fun (name, value) =>
      modify fun s => (s.assign name value).markExported name
    if command.isEmpty then Surroundings.showEnvironment a
    else inChosenDirectory a (launchOr launch "env" inQuotes command)) arguments

/-- The program `timeout`. No program takes any time. -/
def timeout (launch : Launcher) : Program :=
  let u : Usage :=
    { name := "timeout", flags := "v", valued := "sk", mixes := false, misuseStatus := 125
      names := [("signal=", "s"), ("kill-after=", "k"), ("preserve-status", "p"),
        ("foreground", "f"), ("verbose", "v")] }
  Program.withOptions u fun a => do
    match a.operands with
    | interval :: name :: rest =>
      if Surroundings.isInterval interval then
        launchOr launch "timeout" failedToRun (name :: rest)
      else Program.misuse u ("invalid time interval ".toList ++ inQuotes interval)
    | _ =>
      Program.hint u
      Action.setStatus 125

/-- The arguments of `nice` with a number by itself as the option that it stands for. -/
def withAdjustment : List Text → List Text
  | ('-' :: c :: digits) :: rest =>
    if c.isDigit then ['-', 'n'] :: (c :: digits) :: rest else ('-' :: c :: digits) :: rest
  | arguments => arguments

/-- The program `nice`. -/
def nice (launch : Launcher) : Program := fun arguments =>
  let u : Usage :=
    { name := "nice", valued := "n", names := [("adjustment=", "n")], mixes := false
      misuseStatus := 125 }
  let isNumber (s : Text) : Bool :=
    (Text.number? 10 (if s.head? = some '-' ∨ s.head? = some '+' then s.tail else s)).isSome
  Program.withOptions u (fun a => do
    match (a.values "n").find? (!isNumber ·), a.operands with
    | some value, _ => Program.fail "nice" ("invalid adjustment ".toList ++ inQuotes value) 125
    | none, [] => Action.writeLine ['0']
    | none, fields => launchOr launch "nice" inQuotes fields) (withAdjustment arguments)

/-- The program `nohup`. -/
def nohup (launch : Launcher) : Program :=
  Program.withOperands { name := "nohup", mixes := false, misuseStatus := 125 } "operand" fun a =>
    launchOr launch "nohup" failedToRun a.operands

/-- The program `setsid`. -/
def setsid (launch : Launcher) : Program :=
  let u : Usage := { name := "setsid", flags := "cfw", mixes := false }
  Program.withOptions u fun a => do
    if a.operands.isEmpty then Program.misuse u "no command specified".toList
    else launchOr launch "setsid" ("failed to execute ".toList ++ ·) a.operands

/-- The program `stdbuf`. Nothing is held back anyway. -/
def stdbuf (launch : Launcher) : Program :=
  let u : Usage :=
    { name := "stdbuf", valued := "ioe", mixes := false, misuseStatus := 125
      names := [("input=", "i"), ("output=", "o"), ("error=", "e")] }
  Program.withOperands u "operand" fun a => do
    if a.options.isEmpty then Program.misuse u "you must specify a buffering mode option".toList
    else launchOr launch "stdbuf" failedToRun a.operands

/-- The program of a name, which launches others. -/
def ofName? (launch : Launcher) (name : String) : Option Program :=
  match name with
  | "env" => some (env launch)
  | "find" => some (find launch)
  | "xargs" => some (Batch.xargs launch)
  | "timeout" => some (timeout launch)
  | "nice" => some (nice launch)
  | "nohup" => some (nohup launch)
  | "setsid" => some (setsid launch)
  | "stdbuf" => some (stdbuf launch)
  | _ => none

end Launching

end ScriptBundle.Shell
