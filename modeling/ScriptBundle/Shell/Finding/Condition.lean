import ScriptBundle.Shell.FileCommand
import ScriptBundle.Shell.Regex.Reader

/-!
# Conditions on Files

The expressions of the program `find`: what is asked of a file, and what is done with it.

## Main definitions

* `FindTest`: a single question or deed;
* `FindCondition`: tests put together;
* `FindToken.readAll`: reads the words of an expression;
* `FindCondition.read`: puts tests together.

## Main statements

* `Tally.holds_exactly`: an exact number is the number itself.
-/

namespace ScriptBundle.Shell

/-- A **tally** tells numbers apart: those above or below a number, or just the number. -/
structure Tally where
  order : Ordering
  number : Nat
  deriving DecidableEq, Repr

namespace Tally

/-- Whether a number is one that a tally tells. -/
def holds (t : Tally) (n : Nat) : Bool := compare n t.number == t.order

/-- The tally that is written as a number, with a sign for all that are greater or less. -/
def ofText? : Text → Option Tally
  | '+' :: digits => (Text.number? 10 digits).map (⟨.gt, ·⟩)
  | '-' :: digits => (Text.number? 10 digits).map (⟨.lt, ·⟩)
  | digits => (Text.number? 10 digits).map (⟨.eq, ·⟩)

/-- An exact number is the number itself. -/
theorem holds_exactly (n k : Nat) : holds ⟨.eq, n⟩ k = true ↔ k = n := by
  simp [holds]

end Tally

/-- How permissions are compared. -/
inductive PermissionTest where
  | exactly
  | all
  | any
  deriving DecidableEq, Repr

/-- A **test**: a question about a file, or something that is done with it. -/
inductive FindTest where
  | constant (holds : Bool)
  | name (p : Pattern) (foldsCase : Bool)
  | path (p : Pattern) (foldsCase : Bool)
  | form (r : Regex)
  | kind (letters : Text) (isFollowed : Bool)
  | target (p : Pattern)
  | empty
  | size (t : Tally) (unit : Nat)
  | age (t : Tally)
  | permissions (test : PermissionTest) (mode : Nat)
  | executable
  | same (file : Text)
  | print (ending : Char)
  | printForm (form : Text)
  | run (words : List Text) (isTogether inDirectory : Bool)
  | delete
  | prune
  | quit
  deriving DecidableEq, Repr

/-- Whether a test shows or changes something. -/
def FindTest.isDeed : FindTest → Bool
  | print _ => true
  | printForm _ => true
  | run _ _ _ => true
  | delete => true
  | _ => false

/-- A **condition** is made of tests. Of two of them, the second one is looked at only where it
counts. -/
inductive FindCondition where
  | test (t : FindTest)
  | negation (c : FindCondition)
  | both (first second : FindCondition)
  | either (first second : FindCondition)
  /-- The first one does not count. -/
  | second (first second : FindCondition)
  deriving DecidableEq, Repr

/-- How a search goes about its work. -/
structure FindSettings where
  least : Nat := 0
  greatest : Option Nat := none
  /-- Whether what is in a directory comes before it. -/
  isInnerFirst : Bool := false
  followsLinks : Bool := false
  dialect : Option RegexDialect := none
  deriving Repr

/-! ### Words -/

/-- A part of an expression. -/
inductive FindToken where
  | test (t : FindTest)
  | negation (word : Text)
  /-- An operator, which binds the more the greater its rank is. -/
  | operator (rank : Nat) (word : Text)
  | opening
  | closing
  deriving DecidableEq, Repr

/-- Whether a word starts an expression. -/
def startsCondition : Text → Bool
  | ['-'] => false
  | '-' :: _ => true
  | word => word == ['('] || word == ['!']

/-- Whether a word belongs to an expression that has started. -/
def isConditionWord (word : Text) : Bool :=
  startsCondition word || word == [')'] || word == [',']

/-- A reader of words, which may change the settings. -/
abbrev FindReader := StateT FindSettings (Except Text)

namespace FindToken

/-- The words that an operator or a parenthesis is written as. -/
def ofMark? (word : Text) : Option FindToken :=
  match String.ofList word with
  | "(" => some opening
  | ")" => some closing
  | "!" => some (negation word)
  | "-not" => some (negation word)
  | "-a" => some (operator 3 word)
  | "-and" => some (operator 3 word)
  | "-o" => some (operator 2 word)
  | "-or" => some (operator 2 word)
  | "," => some (operator 1 word)
  | _ => none

/-- The value of an argument that is a number. -/
def depthOf (word value : Text) : FindReader Nat :=
  match Text.number? 10 value with
  | some n => return n
  | none =>
    throw ("Expected a positive decimal integer argument to ".toList ++ word ++
      ", but got ".toList ++ inShellQuotes value)

/-- The tally that an argument is. -/
def tallyOf (word value : Text) : FindReader Tally :=
  match Tally.ofText? value with
  | some t => return t
  | none =>
    throw ("invalid argument \x60".toList ++ value ++ "' to \x60".toList ++ word ++ ['\''])

/-- The letters of kinds, which have commas between them. -/
def kindsOf (word : Text) : Text → FindReader Text
  | [] => throw ("Arguments to ".toList ++ word ++ " should contain at least one letter".toList)
  | [c] => oneKind c
  | [_, ','] =>
    throw ("Last file type in list argument to ".toList ++ word ++
      " is missing, i.e., list is ending on: ','".toList)
  | c :: ',' :: rest => do
    return (← oneKind c) ++ (← kindsOf word rest)
  | _ => throw ("Must separate multiple arguments to ".toList ++ word ++ " using: ','".toList)
where
  /-- The letter of a kind. -/
  oneKind (c : Char) : FindReader Text :=
    if "bcdflpsD".toList.contains c then return [c]
    else throw ("Unknown argument to ".toList ++ word ++ ": ".toList ++ [c])

/-- The test for a size with a unit. -/
def sizeOf (value : Text) : FindReader FindTest := do
  let units : List (Char × Nat) := [('b', 512), ('c', 1), ('w', 2), ('k', 1024), ('M', 1048576),
    ('G', 1073741824)]
  match value.getLast? with
  | none => throw "invalid null argument to -size".toList
  | some last =>
    if last.isDigit then return .size (← tallyOf "-size".toList value) 512
    match units.lookup last with
    | some unit => return .size (← tallyOf "-size".toList value.dropLast) unit
    | none => throw ("invalid -size type \x60".toList ++ [last, '\''])

/-- The test for permissions. -/
def permissionsOf (value : Text) : FindReader FindTest := do
  let (how, written) := match value with
    | '-' :: rest => (PermissionTest.all, rest)
    | '/' :: rest => (PermissionTest.any, rest)
    | written => (PermissionTest.exactly, written)
  match FileCommand.changedPermissions? 0 0 written with
  | some mode => return .permissions how mode
  | none => throw ("invalid mode ".toList ++ inShellQuotes value)

/-- An expression in the usual way of writing as one in the basic way. -/
def basicForm : Text → Text
  | [] => []
  | '\\' :: c :: rest => '\\' :: c :: basicForm rest
  | c :: rest => (if c = '+' ∨ c = '?' then ['\\', c] else [c]) ++ basicForm rest

/-- The test for a regular expression. -/
def formOf (foldsCase : Bool) (value : Text) : FindReader FindTest := do
  let (dialect, written) := match (← get).dialect with
    | some dialect => (dialect, value)
    | none => (.basic, basicForm value)
  match Regex.read dialect foldsCase written with
  | .ok r => return .form r
  | .error words =>
    throw ("failed to compile regular expression ".toList ++ inShellQuotes value ++ ": ".toList ++
      words.toList)

/-- The way of writing regular expressions that a name stands for. -/
def dialectOf (value : Text) : FindReader RegexDialect :=
  let basic := ["ed", "sed", "grep", "posix-basic", "posix-minimal-basic"]
  let extended := ["egrep", "awk", "gnu-awk", "posix-awk", "posix-egrep", "posix-extended"]
  if basic.contains (String.ofList value) then return .basic
  else if extended.contains (String.ofList value) then return .extended
  else
    throw ("Unknown regular expression type ".toList ++ inShellQuotes value ++
      ("; valid types are 'findutils-default', 'ed', 'emacs', 'gnu-awk', 'grep', 'posix-awk', " ++
        "'awk', 'posix-basic', 'posix-egrep', 'egrep', 'posix-extended', 'posix-minimal-basic', " ++
        "'sed'.").toList)

/-- Changes the settings, which holds for every file. -/
def changing (change : FindSettings → FindSettings) : FindReader FindTest := do
  modify change
  return .constant true

/-- The test of a word without an argument. -/
def bare? (word : Text) : Option (FindReader FindTest) :=
  match String.ofList word with
  | "-true" => some (return .constant true)
  | "-false" => some (return .constant false)
  | "-empty" => some (return .empty)
  | "-readable" => some (return .constant true)
  | "-writable" => some (return .constant true)
  | "-executable" => some (return .executable)
  | "-print" => some (return .print '\n')
  | "-print0" => some (return .print '\x00')
  | "-delete" => some do
    modify fun s => { s with isInnerFirst := true }
    return .delete
  | "-prune" => some (return .prune)
  | "-quit" => some (return .quit)
  | "-depth" => some (changing fun s => { s with isInnerFirst := true })
  | "-d" => some (changing fun s => { s with isInnerFirst := true })
  | "-follow" => some (changing fun s => { s with followsLinks := true })
  | "-xdev" => some (return .constant true)
  | "-mount" => some (return .constant true)
  | "-noleaf" => some (return .constant true)
  | "-daystart" => some (return .constant true)
  | "-nouser" => some (return .constant false)
  | "-nogroup" => some (return .constant false)
  | _ => none

/-- The test of a word with an argument. -/
def valued? (t : FileTree) (word : Text) : Option (Text → FindReader FindTest) :=
  let name (foldsCase : Bool) (value : Text) : FindReader FindTest :=
    return .name (.ofWritten value) foldsCase
  let path (foldsCase : Bool) (value : Text) : FindReader FindTest :=
    return .path (.ofWritten value) foldsCase
  let age (value : Text) : FindReader FindTest := return .age (← tallyOf word value)
  let present (test : Text → FindTest) (value : Text) : FindReader FindTest :=
    if hasEntry t value then return test value
    else throw (inShellQuotes value ++ ": No such file or directory".toList)
  match String.ofList word with
  | "-name" => some (name false)
  | "-iname" => some (name true)
  | "-path" => some (path false)
  | "-wholename" => some (path false)
  | "-ipath" => some (path true)
  | "-iwholename" => some (path true)
  | "-regex" => some (formOf false)
  | "-iregex" => some (formOf true)
  | "-regextype" => some fun value => do
    let dialect ← dialectOf value
    changing fun s => { s with dialect := some dialect }
  | "-lname" => some fun value => return .target (.ofWritten value)
  | "-type" => some fun value => return .kind (← kindsOf word value) false
  | "-xtype" => some fun value => return .kind (← kindsOf word value) true
  | "-size" => some sizeOf
  | "-perm" => some permissionsOf
  | "-mtime" => some age
  | "-atime" => some age
  | "-ctime" => some age
  | "-mmin" => some age
  | "-amin" => some age
  | "-cmin" => some age
  | "-newer" => some (present fun _ => .constant false)
  | "-anewer" => some (present fun _ => .constant false)
  | "-cnewer" => some (present fun _ => .constant false)
  | "-newermt" => some fun _ => return .constant true
  | "-samefile" => some (present .same)
  | "-printf" => some fun value => return .printForm value
  | "-maxdepth" => some fun value => do
    let n ← depthOf word value
    changing fun s => { s with greatest := some n }
  | "-mindepth" => some fun value => do
    let n ← depthOf word value
    changing fun s => { s with least := n }
  | "-user" => some fun value =>
    if value = "root".toList ∨ value = ['0'] then return .constant true
    else throw (inShellQuotes value ++ " is not the name of a known user".toList)
  | _ => none

/-- The words of a command, up to a semicolon or to a plus sign behind braces; whether it ends with
the latter; and what is behind it. -/
def commandWords : (isBehindBraces : Bool) → List Text → Option (List Text × Bool × List Text)
  | _, [] => none
  | isBehindBraces, word :: rest =>
    if word = [';'] then some ([], false, rest)
    else if word = ['+'] ∧ isBehindBraces then some ([], true, rest)
    else
      (commandWords (word == "\x7b\x7d".toList) rest).map fun (words, isTogether, rest) =>
        (word :: words, isTogether, rest)

/-- Reads the command behind a word, and what is behind it. -/
def readCommand (word : Text) (rest : List Text) : FindReader (FindTest × List Text) := do
  let braces : Text := "\x7b\x7d".toList
  match commandWords false rest with
  | none => throw ("missing argument to \x60".toList ++ word ++ ['\''])
  | some ([], _, _) => throw ("invalid argument \x60;' to \x60".toList ++ word ++ ['\''])
  | some (words, isTogether, rest) =>
    if isTogether ∧ 1 < words.count braces then
      throw ("Only one instance of \x7b\x7d is supported with ".toList ++ word ++ " ... +".toList)
    return (.run (if isTogether then words.dropLast else words) isTogether
      (word == "-execdir".toList), rest)

/-- Reads the words of an expression. -/
def readAll (t : FileTree) : (budget : Nat) → List Text → FindReader (List FindToken)
  | 0, _ => return []
  | _, [] => return []
  | n + 1, word :: rest => do
    if !isConditionWord word then
      throw ("paths must precede expression: \x60".toList ++ word ++ ['\''])
    match ofMark? word, bare? word, valued? t word with
    | some mark, _, _ => return mark :: (← readAll t n rest)
    | none, some read, _ =>
      let found ← read
      return .test found :: (← readAll t n rest)
    | none, none, some read =>
      match rest with
      | [] => throw ("missing argument to \x60".toList ++ word ++ ['\''])
      | value :: rest =>
        let found ← read value
        return .test found :: (← readAll t n rest)
    | none, none, none =>
      if word = "-exec".toList ∨ word = "-execdir".toList then
        let (found, rest) ← readCommand word rest
        return .test found :: (← readAll t n rest)
      else throw ("unknown predicate \x60".toList ++ word ++ ['\''])

end FindToken

/-! ### Conditions -/

namespace FindCondition

/-- Two conditions with an operator of a rank between them. -/
def join (rank : Nat) (first second : FindCondition) : FindCondition :=
  match rank with
  | 1 => .second first second
  | 2 => .either first second
  | _ => .both first second

mutual

/-- Reads the conditions up to an operator of less than a rank. The word in front of them is the
one of an operator. -/
def readFrom : (budget : Nat) → (rank : Nat) → (before : Option Text) → List FindToken →
    Except Text (FindCondition × List FindToken)
  | 0, _, _, _ => .error "invalid expression".toList
  | n + 1, rank, before, tokens => do
    let (first, rest) ← readOne n before tokens
    readBehind n rank first rest

/-- Reads what is behind a condition, up to an operator of less than a rank. -/
def readBehind : (budget : Nat) → (rank : Nat) → FindCondition → List FindToken →
    Except Text (FindCondition × List FindToken)
  | 0, _, _, _ => .error "invalid expression".toList
  | n + 1, rank, first, tokens =>
    match tokens with
    | [] => .ok (first, [])
    | .closing :: _ => .ok (first, tokens)
    | .operator other word :: rest =>
      if other < rank then .ok (first, tokens)
      else do
        let (next, rest) ← readFrom n (other + 1) (some word) rest
        readBehind n rank (join other first next) rest
    | _ =>
      if 3 < rank then .ok (first, tokens)
      else do
        let (next, rest) ← readFrom n 4 none tokens
        readBehind n rank (.both first next) rest

/-- Reads a condition without an operator. -/
def readOne : (budget : Nat) → (before : Option Text) → List FindToken →
    Except Text (FindCondition × List FindToken)
  | 0, _, _ => .error "invalid expression".toList
  | n + 1, before, tokens =>
    match tokens, before with
    | [], some word => .error ("expected an expression after ".toList ++ inShellQuotes word)
    | [], none => .error "invalid expression".toList
    | .closing :: _, some word =>
      .error ("expected an expression between ".toList ++ inShellQuotes word ++ " and ')'".toList)
    | .closing :: _, none => .error "invalid expression; you have too many ')'".toList
    | .operator _ word :: _, _ =>
      .error ("invalid expression; you have used a binary operator ".toList ++
        inShellQuotes word ++ " with nothing before it.".toList)
    | .test t :: rest, _ => .ok (.test t, rest)
    | .negation word :: rest, _ =>
      (readOne n (some word) rest).map fun (c, rest) => (.negation c, rest)
    | .opening :: rest, _ =>
      match rest with
      | [] =>
        .error ("invalid expression; expected to find a ')' but didn't see one. " ++
          "Perhaps you need an extra predicate after '('").toList
      | .closing :: _ => .error "invalid expression; empty parentheses are not allowed.".toList
      | _ => do
        match ← readFrom n 1 none rest with
        | (c, .closing :: rest) => return (c, rest)
        | _ =>
          throw ("invalid expression; I was expecting to find a ')' somewhere but did not see " ++
            "one.").toList

end

/-- Puts tests together. What is found is printed unless something else is done with it. -/
def read (tokens : List FindToken) : Except Text FindCondition := do
  let isDeed : FindToken → Bool
    | .test t => t.isDeed
    | _ => false
  let print : FindCondition := .test (.print '\n')
  if tokens.isEmpty then return print
  match ← readFrom (4 * tokens.length + 4) 1 none tokens with
  | (c, []) => return if tokens.any isDeed then c else .both c print
  | _ => throw "you have too many ')'".toList

end FindCondition

end ScriptBundle.Shell
