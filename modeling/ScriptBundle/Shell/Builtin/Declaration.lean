import ScriptBundle.Shell.Builtin.Option

/-!
# Declarations

The builtin commands that declare variables and words that stand for others.

## Main definitions

* `Builtin.variableLines`: how variables are listed;
* `Builtin.declare`: declares variables one after the other;
* `Builtin.exportNames`, `Builtin.readonly`, `Builtin.makeLocal`, `Builtin.unset`: what is declared
  of variables;
* `Builtin.setAliases`, `Builtin.unalias`: words that stand for others.

## Main statements

* `Builtin.splitAssignment_name`: a name by itself is no assignment.
-/

namespace ScriptBundle.Shell.Builtin

/-! ### Variables -/

/-- The lines that list variables by their names, each behind some words. -/
def variableLines (front : Text) (listed : List (Text × Variable)) : List Text :=
  let sorted := listed.mergeSort fun (left, _) (right, _) => dictionaryOrder charOrder left right
  sorted.map fun (name, v) =>
    front ++ name ++ ((v.value.map fun value => '=' :: inSingleQuotes value).getD [])

/-- The name and the value of an argument that is an assignment. -/
def splitAssignment (argument : Text) : Text × Option Text :=
  let name := argument.takeWhile (· != '=')
  (name, if name.length < argument.length then some (argument.drop (name.length + 1)) else none)

/-- A name by itself is no assignment. -/
theorem splitAssignment_name (name : Text) (h : '=' ∉ name) :
    splitAssignment name = (name, none) := by
  have htake : name.takeWhile (· != '=') = name := by
    induction name with
    | nil => rfl
    | cons c rest ih =>
      have hc : c ≠ '=' := fun heq => h (heq ▸ List.mem_cons_self)
      have hrest : '=' ∉ rest := fun hmem => h (List.mem_cons_of_mem c hmem)
      rw [List.takeWhile_cons_of_pos (by simpa using hc), ih hrest]
  simp [splitAssignment, htake]

/-- Gives up unless a text is the name of a variable. -/
def checkName (name : Text) : Action Unit :=
  if isName name then pure () else Action.abort (name ++ ": bad variable name".toList)

/-- Declares the variables that some arguments name, each of which is first prepared, then set and
then marked. -/
def declare (prepare mark : Text → Action Unit) (arguments : List Text) : Action Unit :=
  arguments.forM fun argument => do
    let (name, value?) := splitAssignment argument
    checkName name
    prepare name
    match value? with
    | some value => Action.assign name value
    | none => pure ()
    mark name

/-- Changes what is known of a variable, which need not have a value. -/
def changeVariable (change : Variable → Variable) (name : Text) : Action Unit :=
  modify fun s =>
    let found := (s.bindings.lookup name).getD { value := none }
    s.setVariable name (some (change found))

/-- A command that marks variables, or lists those that are marked. -/
def marking (command : String) (isMarked : Variable → Bool) (mark : Variable → Variable)
    (arguments : List Text) : Action Unit := do
  let (options, operands) ← takeOptions "p" "" arguments
  if !options.isEmpty || operands.isEmpty then
    let listed := (← get).bindings.filter fun (_, v) => isMarked v
    (variableLines (command.toList ++ [' ']) listed).forM Action.writeLine
  else declare (fun _ => pure ()) (changeVariable mark) operands
  Action.setStatus 0

/-- The command `export`. -/
def exportNames : List Text → Action Unit :=
  marking "export" Variable.isExported fun v => { v with isExported := true }

/-- The command `readonly`. -/
def readonly : List Text → Action Unit :=
  marking "readonly" Variable.isConstant fun v => { v with isConstant := true }

/-- The command `local`. A hyphen stands for the settings. -/
def makeLocal (arguments : List Text) : Action Unit := do
  if (← get).saved.isNone then Action.abort "not in a function".toList
  let keep (name : Text) : Action Unit := modify fun s =>
    { s with saved := s.saved.map ((name, s.bindings.lookup name) :: ·) }
  arguments.forM fun argument =>
    if argument = ['-'] then modify fun s => { s with savedOptions := some s.options }
    else declare keep (fun _ => pure ()) [argument]
  Action.setStatus 0

/-- The command `unset`. -/
def unset (arguments : List Text) : Action Unit := do
  let (options, operands) ← takeOptions "vf" "" arguments
  let areFunctions := (options.getLast?.map Prod.fst) == some 'f'
  operands.forM fun operand => do
    let s ← get
    let name := if areFunctions then operand else (splitAssignment operand).1
    if areFunctions then set { s with functions := s.functions.filter (·.1 != name) }
    else
      checkName name
      if (s.bindings.lookup name).any Variable.isConstant then
        Action.abort (name ++ ": is read only".toList)
      set (s.setVariable name none)
  Action.setStatus 0

/-! ### Words that stand for others -/

/-- The sum of the bytes of a name, the first of which counts for more. -/
def nameSum (name : Text) : Nat :=
  16 * (name.headD '\x00').toNat + (name.map Char.toNat).foldl (· + ·) 0

/-- Names in the order of the remainders of their sums. -/
def byRemainder (divisor : Nat) (name : α → Text) (names : List α) : List α :=
  (List.range divisor).flatMap fun r => names.filter fun a => nameSum (name a) % divisor == r

/-- Shows a word and what it stands for. -/
def showAlias (word : Text × Text) : Action Unit :=
  Action.writeLine (word.1 ++ '=' :: inSingleQuotes word.2)

/-- The command `alias`. -/
def setAliases (arguments : List Text) : Action Unit := do
  if arguments.isEmpty then (byRemainder 39 Prod.fst (← get).aliases).forM showAlias
  Action.setStatus 0
  arguments.forM fun argument => do
    let name := argument.take 1 ++ (argument.drop 1).takeWhile (· != '=')
    if name.length < argument.length then
      let value := argument.drop (name.length + 1)
      modify fun s =>
        let isKnown := s.aliases.any (·.1 == name)
        let changed := s.aliases.map fun word => if word.1 == name then (name, value) else word
        { s with aliases := if isKnown then changed else s.aliases ++ [(name, value)] }
    else
      match (← get).aliases.lookup name with
      | some value => showAlias (name, value)
      | none =>
        Action.writeError ("alias: ".toList ++ name ++ " not found".toList)
        Action.setStatus 1

/-- The command `unalias`. -/
def unalias (arguments : List Text) : Action Unit := do
  let (options, operands) ← takeOptions "a" "" arguments
  Action.setStatus 0
  if !options.isEmpty then modify fun s => { s with aliases := [] }
  else
    operands.forM fun name => do
      if (← get).aliases.any (·.1 == name) then
        modify fun s => { s with aliases := s.aliases.filter (·.1 != name) }
      else
        Action.writeError ("unalias: ".toList ++ name ++ " not found".toList)
        Action.setStatus 1

end ScriptBundle.Shell.Builtin
