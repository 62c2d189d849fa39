import ScriptBundle.Text.Basic

/-!
# Shell Words

A word of a shell script in parts. Quotes are taken apart when a word is read, and its parts
remember whether they were quoted, since only the unquoted ones are split into fields and stand
for file names.

## Main definitions

* `ParameterUse`: what is made of the value of a parameter;
* `WordPart`, `Word`: a word in parts;
* `Word.literal?`: the text of a word that was written without quotes and expansions.
-/

namespace ScriptBundle.Shell

/-- What is made of the value of a parameter. Where a word stands in for a missing value,
`emptyCounts` says that an empty value is missing too. -/
inductive ParameterUse where
  | value
  /-- The number of characters. -/
  | length
  /-- The word, if the value is missing. -/
  | orElse (emptyCounts : Bool)
  /-- The word, which becomes the value, if the value is missing. -/
  | orAssign (emptyCounts : Bool)
  /-- The end of the script, if the value is missing. -/
  | orFail (emptyCounts : Bool)
  /-- The word, unless the value is missing. -/
  | instead (emptyCounts : Bool)
  /-- The value without a part at its front that the word is a pattern of. -/
  | withoutFront (longest : Bool)
  /-- The value without a part at its end that the word is a pattern of. -/
  | withoutBack (longest : Bool)
  deriving DecidableEq, Repr

/-- What stands behind a script that is part of a word. -/
inductive ScriptEnd where
  | parenthesis
  | backquote
  /-- Nothing: the text is at its end. -/
  | missing
  deriving DecidableEq, Repr

/-- A **part** of a shell word. -/
inductive WordPart where
  | plain (c : Char)
  | quoted (s : Text)
  | parameter (name : Text) (use : ParameterUse) (argument : List WordPart) (isQuoted : Bool)
  /-- The output of a script that starts on a line. -/
  | substitution (line : Nat) (script : Text) (ending : ScriptEnd) (isQuoted : Bool)
  /-- The value of an expression. -/
  | arithmetic (expression : List WordPart) (isQuoted : Bool)
  /-- Braces behind a dollar sign that hold no parameter. -/
  | malformed
  deriving Repr

/-- A **word** of a script. -/
abbrev Word := List WordPart

/-- Whether a character may be the first one of a name. -/
def startsName (c : Char) : Bool := c.isAlpha || c == '_'

/-- Whether a character may stand in a name behind the first one. -/
def continuesName (c : Char) : Bool := c.isAlphanum || c == '_'

/-- Whether a text is the name of a variable. -/
def isName : Text → Bool
  | [] => false
  | c :: rest => startsName c && rest.all continuesName

mutual

/-- The scripts that are part of a part of a word, with their lines and what stands behind them. -/
def WordPart.scripts : WordPart → List (Nat × Text × ScriptEnd)
  | .plain _ => []
  | .quoted _ => []
  | .parameter _ _ argument _ => scriptsOf argument
  | .substitution line script ending _ => [(line, script, ending)]
  | .arithmetic expression _ => scriptsOf expression
  | .malformed => []

/-- The scripts that are part of several parts. -/
def scriptsOf : List WordPart → List (Nat × Text × ScriptEnd)
  | [] => []
  | part :: rest => part.scripts ++ scriptsOf rest

end

namespace Word

/-- Whether the text ends inside of a script that is part of a word. -/
def isCut (word : Word) : Bool :=
  (scriptsOf word).any fun (_, _, ending) => ending == .missing

/-- The text of a word without quotes and expansions. -/
def literal? : Word → Option Text
  | [] => some []
  | .plain c :: rest => (literal? rest).map (c :: ·)
  | _ => none

/-- Whether a word consists of the given characters, without quotes. -/
def isLiteral (word : Word) (s : String) : Bool := word.literal? == some s.toList

/-- The text of a word that ends a document, without its quotes. -/
def delimiter (word : Word) : Text :=
  word.flatMap fun
    | .plain c => [c]
    | .quoted s => s
    | _ => []

/-- Whether a part of a word is quoted. -/
def hasQuotes (word : Word) : Bool :=
  word.any fun
    | .quoted _ => true
    | _ => false

/-- The name and the value of an assignment, if a word is one. -/
def assignment? (word : Word) : Option (Text × Word) :=
  let plain : WordPart → Option Char
    | .plain c => some c
    | _ => none
  let front := word.takeWhile fun part => (plain part).any (· ≠ '=')
  match word.drop front.length with
  | .plain '=' :: value =>
    let name := front.filterMap plain
    if isName name then some (name, value) else none
  | _ => none

end Word

end ScriptBundle.Shell
