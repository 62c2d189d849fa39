import ScriptBundle.Shell.Byte
import ScriptBundle.Shell.Editor.Command
import ScriptBundle.Shell.Regex.Reader

/-!
# Written Editing Commands

How the commands of the program `sed` are written. A fault is found at a place, which is told by
the number of characters that are left behind it.

## Main definitions

* `EditReader`: takes characters from the front of a script;
* `EditReader.delimited?`: a text up to a mark;
* `EditReader.commands`: the commands of a script.
-/

namespace ScriptBundle.Shell

/-- What is **wrong** with a script of editing commands. -/
structure EditFault where
  /-- How many characters are left behind the place of the fault, if it is at a place. -/
  left : Option Nat
  words : Text
  deriving DecidableEq, Repr

/-- An **editing reader** takes characters from the front of a script. -/
abbrev EditReader := StateT Text (Except EditFault)

namespace EditReader

/-! ### Characters -/

/-- Stops with a fault here. -/
def fail (words : Text) : EditReader α := do
  throw ⟨some (← get).length, words⟩

/-- The next character. -/
def take? : EditReader (Option Char) :=
  modifyGet fun
    | [] => (none, [])
    | c :: rest => (some c, rest)

/-- The next character that is no blank. -/
def takeFilled? : EditReader (Option Char) := do
  modify (·.dropWhile isBlankChar)
  take?

/-- Leaves a character to be taken again. -/
def putBack (c : Option Char) : EditReader Unit := modify (c.toList ++ ·)

/-- Leaves out the separators between commands. -/
def skipSeparators : EditReader Unit := modify (·.dropWhile fun c => isSpace c || c == ';')

/-- A number. -/
def takeNumber : EditReader Nat :=
  modifyGet fun rest =>
    let digits := rest.takeWhile Char.isDigit
    ((Text.number? 10 digits).getD 0, rest.drop digits.length)

/-- The end of a command. -/
def endCommand : EditReader Unit := do
  match ← takeFilled? with
  | some '}' => putBack (some '}')
  | some '#' => putBack (some '#')
  | none => pure ()
  | some '\n' => pure ()
  | some ';' => pure ()
  | some _ => fail "extra characters after command".toList

/-- The rest of the line. -/
def takeLine : EditReader Text :=
  modifyGet fun rest =>
    let line := rest.takeWhile (· ≠ '\n')
    (line, rest.drop (line.length + 1))

/-- The name of a file, which is the rest of the line. -/
def takeFileName : EditReader Text := do
  modify (·.dropWhile isBlankChar)
  let name ← takeLine
  if name.isEmpty then fail "missing filename in r/R/w/W commands".toList
  return name

/-- A label. -/
def takeLabel : EditReader Text := do
  modify (·.dropWhile isBlankChar)
  modifyGet fun rest =>
    let label := rest.takeWhile fun c => !isSpace c && c != ';' && c != '}'
    let behind := rest.drop label.length
    (label, if behind.head? = some '}' then behind else behind.tail)

/-! ### Marked texts -/

/-- A part of a text up to a mark, or what is left where the mark is missing. In a bracket of a
regular expression the mark stands for itself. -/
def delimitedBody (mark : Char) (isRegex : Bool) :
    (budget : Nat) → (bracket : Option Nat) → Text → Except Text (Text × Text)
  | 0, _, rest => .error rest
  | _, _, [] => .error []
  | n + 1, bracket, c :: rest =>
    let goOn (front : Text) (bracket : Option Nat) (rest : Text) : Except Text (Text × Text) :=
      (delimitedBody mark isRegex n bracket rest).map fun (body, rest) => (front ++ body, rest)
    let isBracketed := isRegex && bracket.isSome
    if c = '\n' then .error (c :: rest)
    else if c = mark ∧ !isBracketed then .ok ([], rest)
    else if c = '\\' then
      match rest with
      | [] => .error []
      | d :: rest =>
        let inside := bracket.map fun _ => 2
        if d = 'n' ∧ isRegex then goOn ['\n'] inside rest
        else if d = '\n' then goOn ['\n'] inside rest
        else if d = mark ∧ (isRegex || d != '&') then
          goOn [d] inside rest
        else goOn ['\\', d] inside rest
    else if !isRegex then goOn [c] none rest
    else
      match bracket with
      | none => goOn [c] (if c = '[' then some 0 else none) rest
      | some place =>
        if c = ']' ∧ place ≠ 0 then goOn [c] none rest
        else if c = '[' ∧ rest.head? = some ':' then
          let name := rest.takeWhile (· ≠ ']')
          goOn (c :: name ++ [']']) (some 2) (rest.drop (name.length + 1))
        else goOn [c] (some (if c = '^' ∧ place = 0 then 0 else 2)) rest

/-- A text up to a mark, unless there is none. -/
def delimited? (mark : Char) (isRegex : Bool) : EditReader (Option Text) := do
  let rest ← get
  match delimitedBody mark isRegex (rest.length + 1) none rest with
  | .ok (body, rest) =>
    set rest
    return some body
  | .error rest =>
    set rest
    return none

/-! ### Escapes -/

/-- The character with a number, written with at most so many digits of a base, and what is behind
it. -/
def numberedChar? (base most : Nat) (s : Text) : Option (Char × Text) :=
  let isDigit (c : Char) : Bool := (Text.number? base [c]).isSome
  let digits := (s.take most).takeWhile isDigit
  (Text.number? base digits).map fun n => (Char.ofNat (n % 256), s.drop digits.length)

/-- The character that stands behind a backslash in a written form, what is behind it, and whether
it is written by its number. -/
def escape? : Text → Option (Char × Text × Bool)
  | 'a' :: rest => some ('\x07', rest, false)
  | 'f' :: rest => some ('\x0c', rest, false)
  | 'r' :: rest => some ('\r', rest, false)
  | 't' :: rest => some ('\t', rest, false)
  | 'v' :: rest => some ('\x0b', rest, false)
  | 'd' :: rest => (numberedChar? 10 3 rest).map fun (c, rest) => (c, rest, true)
  | 'o' :: rest => (numberedChar? 8 3 rest).map fun (c, rest) => (c, rest, true)
  | 'x' :: rest => (numberedChar? 16 2 rest).map fun (c, rest) => (c, rest, true)
  | _ => none

/-- A written regular expression with characters in place of the escapes for them. A character that
is written by its number has no other meaning. -/
def withoutEscapes (isExtended : Bool) : (budget : Nat) → Text → Text
  | 0, s => s
  | _, [] => []
  | n + 1, '\\' :: rest =>
    match escape? rest, rest with
    | some (c, rest, isNumbered), _ =>
      let special := "$*.[\\]^".toList ++ if isExtended then "+?()|\x7b\x7d".toList else []
      (if isNumbered && special.contains c then ['\\', c] else [c]) ++
        withoutEscapes isExtended n rest
    | none, c :: rest => '\\' :: c :: withoutEscapes isExtended n rest
    | none, [] => ['\\']
  | n + 1, c :: rest => c :: withoutEscapes isExtended n rest

/-- The replacement that is written. -/
def replacement : (budget : Nat) → Text → Replacement
  | 0, _ => []
  | _, [] => []
  | n + 1, '\\' :: rest =>
    match escape? rest, rest with
    | some (c, rest, _), _ => .text [c] :: replacement n rest
    | none, 'n' :: rest => .text ['\n'] :: replacement n rest
    | none, 'U' :: rest => .letters (some .upper) :: replacement n rest
    | none, 'L' :: rest => .letters (some .lower) :: replacement n rest
    | none, 'E' :: rest => .letters none :: replacement n rest
    | none, 'u' :: rest => .letter .upper :: replacement n rest
    | none, 'l' :: rest => .letter .lower :: replacement n rest
    | none, c :: rest =>
      (if c.isDigit then .group (c.toNat - '0'.toNat) else .text [c]) :: replacement n rest
    | none, [] => [.text ['\\']]
  | n + 1, '&' :: rest => .group 0 :: replacement n rest
  | n + 1, c :: rest => .text [c] :: replacement n rest

/-- A text that is added, up to the end of its line, and what is behind it. -/
def addedText : (budget : Nat) → Text → Text × Text
  | 0, rest => ([], rest)
  | _, [] => (['\n'], [])
  | n + 1, '\\' :: rest =>
    let (c, rest) := match escape? rest, rest with
      | some (c, rest, _), _ => ([c], rest)
      | none, c :: rest => ([c], rest)
      | none, [] => ([], [])
    let (text, rest) := addedText n rest
    (c ++ text, rest)
  | _ + 1, '\n' :: rest => (['\n'], rest)
  | n + 1, c :: rest =>
    let (text, rest) := addedText n rest
    (c :: text, rest)

/-- Reads a text that is added. -/
def takeAdded : EditReader Text := do
  modify (·.dropWhile isBlankChar)
  match ← get with
  | [] => fail "expected \\ after \x60a', \x60c' or \x60i'".toList
  | '\\' :: rest =>
    match rest.dropWhile isBlankChar with
    | '\n' :: rest => set rest
    | _ => set rest
  | _ => pure ()
  let rest ← get
  if rest.isEmpty then return []
  modifyGet fun rest => addedText (rest.length + 1) rest

/-- Reads the expression that a text stands for, or the one last used if it is empty. -/
def form (isExtended foldsCase : Bool) (s : Text) : EditReader (Option Regex) := do
  if s.isEmpty then return none
  let dialect := if isExtended then RegexDialect.strictExtended else .strictBasic
  match Regex.read dialect foldsCase (withoutEscapes isExtended (s.length + 1) s) with
  | .ok r => return some r
  | .error words => fail words.toList

/-! ### Addresses -/

/-- Reads the letters behind an expression in an address, and tells whether the case of letters does
not count. -/
def addressLetters : (budget : Nat) → EditReader Bool
  | 0 => return false
  | n + 1 => do
    match ← takeFilled? with
    | some 'I' =>
      let _ ← addressLetters n
      return true
    | some 'M' => addressLetters n
    | c =>
      putBack c
      return false

/-- Reads an address, of which the first character has been taken. -/
def address? (isExtended : Bool) : Option Char → EditReader (Option LineAddress)
  | some '/' => having '/'
  | some '\\' => do
    match ← take? with
    | some mark => having mark
    | none => fail "unterminated address regex".toList
  | some '$' => return some .last
  | some '+' => do
    modify (·.dropWhile isBlankChar)
    return some (.further (← takeNumber))
  | some '~' => do
    modify (·.dropWhile isBlankChar)
    return some (.multiple (← takeNumber))
  | some c => do
    if c.isDigit then
      putBack (some c)
      let n ← takeNumber
      match ← takeFilled? with
      | some '~' =>
        modify (·.dropWhile isBlankChar)
        match ← takeNumber with
        | 0 => return some (.number n)
        | step => return some (.every n step)
      | other =>
        putBack other
        return some (.number n)
    else return none
  | none => return none
where
  /-- Reads an expression up to a mark. -/
  having (mark : Char) : EditReader (Option LineAddress) := do
    match ← delimited? mark true with
    | none => fail "unterminated address regex".toList
    | some body => do
      let foldsCase ← addressLetters ((← get).length + 1)
      return some (.having (← form isExtended foldsCase body))

/-! ### Commands -/

/-- The greatest group that a replacement uses. -/
def greatestGroup (r : Replacement) : Nat :=
  (r.map fun
    | .group index => index
    | _ => 0).foldl max 0

/-- The number of groups in an expression. -/
def groupCount : Regex → Nat
  | .group _ r => 1 + groupCount r
  | .cat first second => groupCount first + groupCount second
  | .alternative first second => groupCount first + groupCount second
  | .many r => groupCount r
  | _ => 0

/-- Reads the letters behind a substitution, and tells whether the case of letters does not
count. -/
def substitutionLetters : (budget : Nat) → (isNumbered : Bool) → Substitution →
    EditReader (Bool × Substitution)
  | 0, _, s => return (false, s)
  | n + 1, isNumbered, s => do
    match ← take? with
    | none => return (false, s)
    | some '\n' => return (false, s)
    | some ';' => return (false, s)
    | some '}' =>
      putBack (some '}')
      return (false, s)
    | some '#' =>
      putBack (some '#')
      return (false, s)
    | some 'i' => return (true, (← substitutionLetters n isNumbered s).2)
    | some 'I' => return (true, (← substitutionLetters n isNumbered s).2)
    | some 'm' => substitutionLetters n isNumbered s
    | some 'M' => substitutionLetters n isNumbered s
    | some 'p' =>
      if s.isPrinted then fail "multiple \x60p' options to \x60s' command".toList
      substitutionLetters n isNumbered { s with isPrinted := true }
    | some 'g' =>
      if s.isGlobal then fail "multiple \x60g' options to \x60s' command".toList
      substitutionLetters n isNumbered { s with isGlobal := true }
    | some 'w' => return (false, { s with file := some (← takeFileName) })
    | some c =>
      if isBlankChar c then substitutionLetters n isNumbered s
      else if c.isDigit then
        if isNumbered then fail "multiple number options to \x60s' command".toList
        putBack (some c)
        match ← takeNumber with
        | 0 => fail "number option to \x60s' command may not be zero".toList
        | first => substitutionLetters n true { s with first }
      else fail "unknown option to \x60s'".toList

/-- Reads a substitution behind its letter. -/
def takeSubstitution (isExtended : Bool) : EditReader EditAction := do
  let unterminated : Text := "unterminated \x60s' command".toList
  let some mark ← take? | fail unterminated
  let some body ← delimited? mark true | fail unterminated
  let some written ← delimited? mark false | fail unterminated
  let replacement := replacement (written.length + 1) written
  let (foldsCase, s) ←
    substitutionLetters ((← get).length + 1) false { form := none, replacement }
  let found ← form isExtended foldsCase body
  let greatest := greatestGroup replacement
  match found with
  | some r =>
    if groupCount r < greatest then
      fail ("invalid reference \\".toList ++ Nat.toDigits 10 greatest ++
        " on \x60s' command's RHS".toList)
  | none => pure ()
  return .substitute { s with form := found }

/-- The characters of an exchange. -/
def exchanged : Text → Text
  | [] => []
  | '\\' :: c :: rest => (if c = 'n' then '\n' else ((escape? [c]).map Prod.fst).getD c) ::
    exchanged rest
  | c :: rest => c :: exchanged rest

/-- Reads an exchange of characters behind its letter. -/
def takeExchange : EditReader EditAction := do
  let unterminated : Text := "unterminated \x60y' command".toList
  let some mark ← take? | fail unterminated
  let some old ← delimited? mark false | fail unterminated
  let some new ← delimited? mark false | fail unterminated
  if (exchanged old).length ≠ (exchanged new).length then
    fail "strings for \x60y' command are different lengths".toList
  endCommand
  return .exchange ((exchanged old).zip (exchanged new))

/-- The actions that are just a letter. -/
def plainAction? (c : Char) : Option EditAction :=
  [('=', EditAction.showNumber), ('F', .showFile), ('d', .delete), ('D', .deleteFirst),
    ('g', .recall), ('G', .recallMore), ('h', .hold), ('H', .holdMore), ('x', .swap),
    ('n', .next), ('N', .nextMore), ('p', .print), ('P', .printFirst), ('z', .clear)].lookup c

/-- Reads a number that may stand behind a command, and the end of the command. -/
def takeOptionalNumber : EditReader (Option Nat) := do
  let c ← takeFilled?
  putBack c
  let n? ← if c.any Char.isDigit then some <$> takeNumber else pure none
  endCommand
  return n?

/-- Reads an action, of which the first character has been taken. `isRange` tells whether it is for
the lines between two addresses, `isAddressed` whether there is any. -/
def takeAction (isExtended isAddressed isRange : Bool) : Option Char → EditReader EditAction
  | none => fail "missing command".toList
  | some '{' => return .opening
  | some '}' => do
    if isAddressed then fail "unexpected \x60\x7d'".toList
    endCommand
    return .closing
  | some ':' => do
    if isAddressed then fail ": doesn't want any addresses".toList
    let label ← takeLabel
    if label.isEmpty then fail "\":\" lacks a label".toList
    return .mark label
  | some 'b' => return .jump .always (← takeLabel)
  | some 't' => return .jump .replaced (← takeLabel)
  | some 'T' => return .jump .unreplaced (← takeLabel)
  | some 'a' => return .append (← takeAdded)
  | some 'i' => return .insert (← takeAdded)
  | some 'c' => return .change (← takeAdded)
  | some 'q' => quit true
  | some 'Q' => quit false
  | some 'l' => return .list (← takeOptionalNumber)
  | some 'r' => return .readFile (← takeFileName)
  | some 'w' => return .writeFile (← takeFileName)
  | some 'W' => return .writeFirst (← takeFileName)
  | some 's' => takeSubstitution isExtended
  | some 'y' => takeExchange
  | some c => do
    match plainAction? c with
    | some action =>
      endCommand
      return action
    | none => fail ("unknown command: \x60".toList ++ [c, '\''])
where
  /-- Reads the end of a command that ends the editing. -/
  quit (isPrinted : Bool) : EditReader EditAction := do
    if isRange then fail "command only uses one address".toList
    return .quit isPrinted ((← takeOptionalNumber).getD 0)

/-- Reads a second address, behind a comma. -/
def takeSecond (isExtended : Bool) : EditReader LineAddress := do
  let c ← takeFilled?
  match ← address? isExtended c with
  | some second => return second
  | none => fail "unexpected \x60,'".toList

/-- Reads a command with its addresses, of which the first character has been taken. -/
def command (isExtended : Bool) (index : Nat) (start : Option Char) : EditReader EditCommand := do
  let first ← address? isExtended start
  match first with
  | some (.further _) => fail "invalid usage of +N or ~N as first address".toList
  | some (.multiple _) => fail "invalid usage of +N or ~N as first address".toList
  | _ => pure ()
  let c ← if first.isSome then takeFilled? else pure start
  let isRange := first.isSome && c = some ','
  let second ← if isRange then some <$> takeSecond isExtended else pure none
  let c ← if isRange then takeFilled? else pure c
  let startsAtExpression := match second with
    | some (.having _) => true
    | _ => false
  if first = some (.number 0) ∧ !startsAtExpression then
    fail "invalid usage of line address 0".toList
  let isNegated := c = some '!'
  let c ← if isNegated then takeFilled? else pure c
  if isNegated ∧ c = some '!' then fail "multiple \x60!'s".toList
  if c = some '#' then fail "comments don't accept any addresses".toList
  let action ← takeAction isExtended first.isSome isRange c
  return { index, first, second, isNegated, action }

/-- Reads the commands of a script. `depth` is the number of the blocks that are open. -/
def commandsFrom (isExtended : Bool) :
    (budget : Nat) → (index depth : Nat) → EditReader (List EditCommand)
  | 0, _, _ => return []
  | n + 1, index, depth => do
    skipSeparators
    match ← take? with
    | none =>
      if depth ≠ 0 then throw ⟨none, "unmatched \x60\x7b'".toList⟩
      return []
    | some '#' =>
      let _ ← takeLine
      commandsFrom isExtended n index depth
    | start =>
      if start = some '}' ∧ depth = 0 then fail "unexpected \x60\x7d'".toList
      let c ← command isExtended index start
      let depth := match c.action with
        | .opening => depth + 1
        | .closing => depth - 1
        | _ => depth
      return c :: (← commandsFrom isExtended n (index + 1) depth)

/-- The **commands** of a script, or what is wrong with it. -/
def commands (isExtended : Bool) (script : Text) : Except EditFault (List EditCommand) :=
  (commandsFrom isExtended (script.length + 1) 0 0 script).map Prod.fst

end EditReader

end ScriptBundle.Shell
