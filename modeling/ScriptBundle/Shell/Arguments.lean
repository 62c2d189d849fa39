import ScriptBundle.Shell.Quoted
import ScriptBundle.Shell.State

/-!
# Arguments of Programs

The options and operands of the programs that scripts use, and what these programs have in
common.

## Main definitions

* `Usage`: the options that a program has;
* `ProgramArguments`: options and operands;
* `Usage.read`: takes arguments apart;
* `Program`: a program, which is a step of a script for its arguments;
* `Launcher`: runs programs.

## Main statements

* `Usage.read_operands`: arguments without a hyphen in front are operands.
-/

namespace ScriptBundle.Shell

/-- The **usage** of a program: the options that it has. -/
structure Usage where
  name : String
  /-- The letters of the options without a value. -/
  flags : String := ""
  /-- The letters of the options with a value. -/
  valued : String := ""
  /-- The long names of options, each with what it stands for: a letter, or an option that has no
  letter. A name that ends in an equals sign is that of an option with a value. -/
  names : List (String × String) := []
  /-- Whether options may stand behind operands. -/
  mixes : Bool := true
  /-- The status of a wrong use. -/
  misuseStatus : Nat := 1
  /-- What is said of a wrong use, before the hint at the help. -/
  summary : Option String := none
  /-- Whether the hint at the help starts with the name of the program. -/
  namesHint : Bool := false

/-- The **arguments** of a program, taken apart. -/
structure ProgramArguments where
  /-- The options, by their letters or names, with the values of those that have one. -/
  options : List (Text × Text) := []
  operands : List Text := []
  deriving DecidableEq, Repr

namespace ProgramArguments

/-- Adds an option in front. -/
def withOption (option value : Text) (a : ProgramArguments) : ProgramArguments :=
  { a with options := (option, value) :: a.options }

/-- Whether an option was given. -/
def has (a : ProgramArguments) (option : String) : Bool := a.options.any (·.1 == option.toList)

/-- The values of an option, in order. -/
def values (a : ProgramArguments) (option : String) : List Text :=
  (a.options.filter (·.1 == option.toList)).map Prod.snd

/-- The last value of an option. -/
def value? (a : ProgramArguments) (option : String) : Option Text := (a.values option).getLast?

end ProgramArguments

namespace Usage

/-- Reads a cluster of options. `rest` reads the arguments behind it, without the next one if that
is a value. -/
def readCluster (u : Usage) (next : List Text)
    (rest : (takesNext : Bool) → Except Text ProgramArguments) :
    Text → Except Text ProgramArguments
  | [] => rest false
  | c :: letters =>
    if c ∈ u.valued.toList then
      match letters, next with
      | [], [] => .error ("option requires an argument -- '".toList ++ [c, '\''])
      | [], value :: _ => (rest true).map (·.withOption [c] value)
      | value, _ => (rest false).map (·.withOption [c] value)
    else if c ∈ u.flags.toList then (readCluster u next rest letters).map (·.withOption [c] [])
    else .error ("invalid option -- '".toList ++ [c, '\''])

/-- The options whose long names start in a certain way, unless one of them is meant exactly. -/
def named (u : Usage) (front : Text) : List (Text × Text) :=
  let known := u.names.map fun (name, option) => (name.toList, option.toList)
  let bare (name : Text) : Text := name.filter (· ≠ '=')
  match known.find? fun (name, _) => bare name == front with
  | some found => [found]
  | none => known.filter fun (name, _) => front.isPrefixOf name

/-- Reads an option by its long name, given without the hyphens in front. -/
def readNamed (u : Usage) (next : List Text)
    (rest : (takesNext : Bool) → Except Text ProgramArguments) (argument : Text) :
    Except Text ProgramArguments :=
  let front := argument.takeWhile (· ≠ '=')
  let value? := if front.length < argument.length then some (argument.drop (front.length + 1))
    else none
  let shown (name : Text) : Text := "'--".toList ++ name.filter (· ≠ '=') ++ ['\'']
  match u.named front with
  | [] => .error ("unrecognized option '--".toList ++ argument ++ ['\''])
  | (name, option) :: others =>
    if others.any (·.2 ≠ option) then
      let possible := ((name, option) :: others).flatMap fun (name, _) => ' ' :: shown name
      .error ("option '--".toList ++ argument ++ "' is ambiguous; possibilities:".toList ++
        possible)
    else
      match name.getLast?, value?, next with
      | some '=', some value, _ => (rest false).map (·.withOption option value)
      | some '=', none, value :: _ => (rest true).map (·.withOption option value)
      | some '=', none, [] =>
        .error ("option ".toList ++ shown name ++ " requires an argument".toList)
      | _, some _, _ =>
        .error ("option ".toList ++ shown name ++ " doesn't allow an argument".toList)
      | _, none, _ => (rest false).map (·.withOption option [])

/-- Takes less than `budget` arguments apart. -/
def readWithin (u : Usage) : (budget : Nat) → List Text → Except Text ProgramArguments
  | 0, _ => .ok {}
  | _, [] => .ok {}
  | n + 1, argument :: rest =>
    let behind (takesNext : Bool) : Except Text ProgramArguments :=
      u.readWithin n (if takesNext then rest.tail else rest)
    match argument with
    | ['-', '-'] => .ok { operands := rest }
    | '-' :: '-' :: name => u.readNamed rest behind name
    | '-' :: c :: letters => u.readCluster rest behind (c :: letters)
    | operand =>
      if u.mixes then
        (behind false).map fun a => { a with operands := operand :: a.operands }
      else .ok { operands := operand :: rest }

/-- Takes **arguments** apart. -/
def read (u : Usage) (arguments : List Text) : Except Text ProgramArguments :=
  u.readWithin (arguments.length + 1) arguments

/-- Arguments **without a hyphen** in front are operands, as they stand. -/
theorem read_operands (u : Usage) {arguments : List Text}
    (h : ∀ argument ∈ arguments, argument.head? ≠ some '-') :
    u.read arguments = .ok { operands := arguments } := by
  rw [read]
  induction arguments with
  | nil => rfl
  | cons argument rest ih =>
    obtain ⟨hargument, hrest⟩ := List.forall_mem_cons.mp h
    unfold readWithin
    split
    · simp at hargument
    · simp at hargument
    · simp at hargument
    · split
      · simp only [List.length_cons, Bool.false_eq_true, if_false, ih hrest]
        rfl
      · rfl

end Usage

/-- A **program** is a step of a script, for its arguments. -/
abbrev Program := List Text → Action Unit

/-- A **launcher** runs a program, given its name and its arguments, or tells why that is not
possible. -/
abbrev Launcher := List Text → Action (Option FileError)

namespace Program

/-- The name under which a program reports: the one by which it was run. -/
def shownName (name : String) : Action Text := do
  let invoked := (← get).invoked
  return if ('/' :: name.toList).isSuffixOf invoked then invoked else name.toList

/-- Reports, under the name of a program, what it has to say. -/
def report (name : String) (words : Text) : Action Unit := do
  Action.writeError ((← shownName name) ++ ": ".toList ++ words)

/-- Reports what a program has to say, and fails with a status. -/
def fail (name : String) (words : Text) (status : Nat) : Action Unit := do
  report name words
  Action.setStatus status

/-- Reports what an error says about a file. -/
def failOn (name : String) (what : Text) (cause : FileError) (status : Nat) : Action Unit :=
  fail name (what ++ ": ".toList ++ cause.words.toList) status

/-- Hints at the help of a program. -/
def hint (u : Usage) : Action Unit := do
  let name ← if u.summary.isSome then pure u.name.toList else shownName u.name
  let words := "Try '".toList ++ name ++ " --help' for more information.".toList
  if u.namesHint then report u.name words else Action.writeError words

/-- Reports that a program is used in a wrong way. -/
def misuse (u : Usage) (words : Text) : Action Unit := do
  fail u.name words u.misuseStatus
  match u.summary with
  | some summary => Action.writeError summary.toList
  | none => pure ()
  hint u

/-- A program that has options. -/
def withOptions (u : Usage) (body : ProgramArguments → Action Unit) : Program := fun arguments => do
  match u.read arguments with
  | .error words => misuse u words
  | .ok a =>
    Action.setStatus 0
    body a

/-- A program with options that needs operands. What is missing is told by `what`. -/
def withOperands (u : Usage) (what : String) (body : ProgramArguments → Action Unit) : Program :=
  withOptions u fun a => do
    if a.operands.isEmpty then misuse u ("missing ".toList ++ what.toList) else body a

/-- All that is left of the input. -/
def takeInput : Action (List UInt8) := do
  let s ← get
  set (s.leaveInput [])
  return s.input.bytes

/-- The bytes of a file, or of the input under the name `-`. -/
def contentOf (operand : Text) : Action (Except FileError (List UInt8)) := do
  if operand = ['-'] then return .ok (← takeInput)
  else return Action.readBytes (← get).tree (scriptPath operand)

/-- The operands, or the input if there are none. -/
def orInput (operands : List Text) : List Text := if operands.isEmpty then [['-']] else operands

end Program

end ScriptBundle.Shell
