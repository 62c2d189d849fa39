import ScriptBundle.Shell.Arguments

/-!
# Surroundings

The programs that tell of what is around a script: its variables, its user and its system. They are
run by the user `root` without a terminal.

## Main definitions

* `Surroundings.isInterval`: whether a text is a span of time;
* `Surroundings.echo`: the program `echo`, which is not the command of that name;
* `Surroundings.ofName?`: the program of a name.
-/

namespace ScriptBundle.Shell.Surroundings

/-- Whether a text is a **span of time**: a number with or without a unit. -/
def isInterval (s : Text) : Bool :=
  let number := s.takeWhile fun c => c.isDigit || c == '.'
  let unit := s.drop number.length
  number.any Char.isDigit && number.count '.' ≤ 1 && unit.length ≤ 1 &&
    unit.all fun c => "smhd".toList.contains c

/-- The program `sleep`, which takes no time. -/
def sleep : Program :=
  let u : Usage := { name := "sleep" }
  Program.withOperands u "operand" fun a => do
    let wrong := a.operands.filter (!isInterval ·)
    wrong.dropLast.forM fun operand =>
      Program.fail "sleep" ("invalid time interval ".toList ++ inQuotes operand) 1
    match wrong.getLast? with
    | some operand => Program.misuse u ("invalid time interval ".toList ++ inQuotes operand)
    | none => pure ()

/-- The names and values of the variables that programs know. -/
def environment (s : ShellState) : List (Text × Text) :=
  s.bindings.reverse.filterMap fun (name, v) =>
    if v.isExported then v.value.map ((name, ·)) else none

/-- Shows texts as lines, or with another end. -/
def showAll (a : ProgramArguments) (texts : List Text) : Action Unit :=
  texts.forM fun text =>
    Action.write (textBytes (text ++ [if a.has "0" then '\x00' else '\n']))

/-- Shows the variables that programs know. -/
def showEnvironment (a : ProgramArguments) : Action Unit := do
  showAll a ((environment (← get)).map fun (name, value) => name ++ '=' :: value)

/-- The program `printenv`. -/
def printenv : Program :=
  let u : Usage :=
    { name := "printenv", flags := "0", names := [("null", "0")], mixes := false
      misuseStatus := 2 }
  Program.withOptions u fun a => do
    if a.operands.isEmpty then showEnvironment a
    else
      let known := environment (← get)
      showAll a (a.operands.filterMap fun name => known.lookup name)
      Action.setTruth (a.operands.all fun name => (known.lookup name).isSome)

/-- A program without operands, which shows a line. -/
def telling (u : Usage) (line : ProgramArguments → Text) : Program :=
  Program.withOptions u fun a => do
    match a.operands with
    | [] => Action.writeLine (line a)
    | operand :: _ => Program.misuse u ("extra operand ".toList ++ inQuotes operand)

/-- The program `uname`. -/
def uname : Program :=
  telling { name := "uname", flags := "s", names := [("kernel-name", "s")] } fun _ =>
    "Linux".toList

/-- The program `whoami`. -/
def whoami : Program := telling { name := "whoami" } fun _ => "root".toList

/-- The program `id`. -/
def id : Program :=
  telling { name := "id", flags := "ugnrG", names := [("user", "u"), ("group", "g"), ("name", "n"),
    ("real", "r"), ("groups", "G")] } fun a =>
    if ["u", "g", "G"].any a.has then (if a.has "n" then "root".toList else ['0'])
    else "uid=0(root) gid=0(root) groups=0(root)".toList

/-- The program `groups`. -/
def groups : Program := telling { name := "groups" } fun _ => "root".toList

/-- The program `tty`. -/
def tty : Program :=
  Program.withOptions
    { name := "tty", flags := "s", names := [("silent", "s"), ("quiet", "s")], misuseStatus := 2 }
    fun a => do
      if !a.has "s" then Action.writeLine "not a tty".toList
      Action.setStatus 1

/-- The program `sync`. -/
def sync : Program := Program.withOptions { name := "sync", flags := "df" } fun _ => pure ()

/-! ### Echoing -/

/-- Whether a word is a cluster of options for echoing. -/
def isEchoOption : Text → Bool
  | '-' :: c :: letters => (c :: letters).all "neE".toList.contains
  | _ => false

/-- Bytes with escapes in place of which others stand, and whether they end there. -/
def resolvedEcho : (budget : Nat) → Text → List UInt8 × Bool
  | 0, _ => ([], false)
  | _, [] => ([], false)
  | n + 1, '\\' :: c :: rest =>
    let goOn (bytes : List UInt8) (rest : Text) : List UInt8 × Bool :=
      let (others, isEnded) := resolvedEcho n rest
      (bytes ++ others, isEnded)
    let octal := octalDigits (if c = '0' then 3 else 2) rest
    let hex := (rest.take 2).takeWhile fun d => (Text.number? 16 [d]).isSome
    if c = 'c' then ([], true)
    else if isOctal c then
      goOn [UInt8.ofNat (octalValue (c :: octal))] (rest.drop octal.length)
    else if c = 'x' ∧ !hex.isEmpty then
      goOn [UInt8.ofNat ((Text.number? 16 hex).getD 0)] (rest.drop hex.length)
    else goOn ((letterByte? c).map ([·]) |>.getD (textBytes ['\\', c])) rest
  | n + 1, c :: rest =>
    let (others, isEnded) := resolvedEcho n rest
    (textBytes [c] ++ others, isEnded)

/-- The **program** `echo`. -/
def echo : Program := fun arguments => do
  let options := arguments.takeWhile isEchoOption
  let text := spaced (arguments.drop options.length)
  let letters := options.flatten.filter (· ≠ '-')
  let isResolved := (letters.filter (· ≠ 'n')).getLast? = some 'e'
  let (bytes, isEnded) := if isResolved then resolvedEcho (text.length + 1) text
    else (textBytes text, false)
  Action.write (bytes ++ if isEnded || 'n' ∈ letters then [] else [0x0A])
  Action.setStatus 0

/-! ### All of them -/

/-- The program of a name. -/
def ofName? (name : String) : Option Program :=
  match name with
  | "sleep" => some sleep
  | "printenv" => some printenv
  | "uname" => some uname
  | "whoami" => some whoami
  | "id" => some id
  | "groups" => some groups
  | "tty" => some tty
  | "sync" => some sync
  | "echo" => some echo
  | _ => none

end ScriptBundle.Shell.Surroundings
