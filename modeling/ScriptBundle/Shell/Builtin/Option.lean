import ScriptBundle.Shell.State

/-!
# Options of Builtin Commands

How the builtin commands read their options, and how they show values.

## Main definitions

* `Builtin.readOptions`: the options of some arguments, and the arguments behind them;
* `Builtin.number`: the number that an argument is;
* `Builtin.inSingleQuotes`: a value as a script may hold it.

## Main statements

* `Builtin.readOptions_operands`: without a hyphen in front there are no options.
-/

namespace ScriptBundle.Shell.Builtin

/-- The options of a cluster of letters, each with its value, and the arguments behind them. A
letter that is `valued` takes the rest of the cluster or else the next argument as its value. -/
def readLetters (flags valued : String) (next : List Text) :
    Text → Except Text (List (Char × Text) × List Text)
  | [] => .ok ([], next)
  | c :: rest =>
    if c ∈ valued.toList then
      match rest, next with
      | [], value :: next => .ok ([(c, value)], next)
      | [], [] => .error ("No arg for -".toList ++ c :: " option".toList)
      | value, _ => .ok ([(c, value)], next)
    else if c ∈ flags.toList then
      (readLetters flags valued next rest).map fun (options, next) => ((c, []) :: options, next)
    else .error ("Illegal option -".toList ++ [c])

/-- The options within the first arguments, and the arguments behind them. -/
def readWithin (flags valued : String) :
    (budget : Nat) → List Text → Except Text (List (Char × Text) × List Text)
  | 0, arguments => .ok ([], arguments)
  | n + 1, arguments =>
    match arguments with
    | ['-', '-'] :: rest => .ok ([], rest)
    | ('-' :: c :: letters) :: rest =>
      match readLetters flags valued rest (c :: letters) with
      | .error words => .error words
      | .ok (options, rest) =>
        (readWithin flags valued n rest).map fun (others, rest) => (options ++ others, rest)
    | _ => .ok ([], arguments)

/-- The **options** of some arguments, and the arguments behind them, or what is wrong. -/
def readOptions (flags valued : String) (arguments : List Text) :
    Except Text (List (Char × Text) × List Text) :=
  readWithin flags valued (arguments.length + 1) arguments

/-- Without a hyphen in front there are no options. -/
theorem readOptions_operands (flags valued : String) {arguments : List Text}
    (h : ∀ argument ∈ arguments.head?, argument.head? ≠ some '-') :
    readOptions flags valued arguments = .ok ([], arguments) := by
  unfold readOptions readWithin
  split
  · simp at h
  · simp at h
  · rfl

/-- The options of a command and its operands. It is given up if there is an illegal option. -/
def takeOptions (flags valued : String) (arguments : List Text) :
    Action (List (Char × Text) × List Text) :=
  match readOptions flags valued arguments with
  | .ok found => return found
  | .error words => Action.abort words

/-- The **number** that an argument is. The command is given up if it is none. -/
def number (argument : Text) : Action Nat := do
  match (Text.number? 10 argument).filter (· < 2147483648) with
  | some n => return n
  | none => Action.abort ("Illegal number: ".toList ++ argument)

/-- A text in single quotes, its own ones in double quotes. -/
def quotedWithin : (budget : Nat) → Text → Text
  | 0, _ => []
  | n + 1, s =>
    let plain := s.takeWhile (· != '\'')
    let rest := s.drop plain.length
    let quotes := rest.takeWhile (· == '\'')
    let behind := rest.drop quotes.length
    '\'' :: plain ++ ['\''] ++ (if quotes.isEmpty then [] else '"' :: quotes ++ ['"']) ++
      (if behind.isEmpty then [] else quotedWithin n behind)

/-- A value as a script may hold it. -/
def inSingleQuotes (s : Text) : Text := quotedWithin (s.length + 1) s

end ScriptBundle.Shell.Builtin
