import ScriptBundle.Shell.Token

/-!
# Shell Scripts

The structure of a script. A script is read line by line, where a line goes on until the commands
that were begun on it are complete.

## Main definitions

* `Command`: the structure of a line;
* `ScriptReader`: a reader of tokens, which may meet a fault;
* `scriptTokens`: the tokens of a script, those of the scripts in its words checked;
* `Command.line`: reads one line of a script.
-/

namespace ScriptBundle.Shell

/-- A **redirection** of a descriptor. -/
structure Redirection where
  descriptor : Nat
  kind : RedirectionKind
  /-- The file, the other descriptor or the document. -/
  target : Word
  deriving Repr

/-- A **command** of a script. -/
inductive Command where
  | simple (line : Nat) (assignments : List (Text × Word)) (words : List Word)
      (redirections : List Redirection)
  | redirected (line : Nat) (redirections : List Redirection) (body : Command)
  /-- Commands one after the other, none of which is a command too. -/
  | sequence (steps : List Command)
  /-- Commands that leave the state around them as it is. -/
  | isolated (body : Command)
  | background (body : Command)
  /-- Commands of which each reads what the one before it writes. -/
  | pipeline (parts : List Command)
  | negation (body : Command)
  | andThen (first second : Command)
  | orElse (first second : Command)
  | conditional (test body alternative : Command)
  | loop (isUntil : Bool) (test body : Command)
  /-- A command for each of several words, or else for each argument of the script. -/
  | each (line : Nat) (name : Text) (items : Option (List Word)) (body : Command)
  /-- The command behind the first pattern of a word. -/
  | choice (line : Nat) (subject : Word) (branches : List (List Word × Command))
  | definition (name : Text) (body : Command)
  deriving Repr

/-- The builtin commands that no function may have the name of. -/
def specialNames : List String :=
  [".", ":", "break", "continue", "eval", "exec", "exit", "export", "local", "readonly", "return",
   "set", "shift", "times", "trap", "unset"]

/-- A **reader** of tokens, which knows the words that stand for others. It fails with a fault and
its line. -/
abbrev ScriptReader :=
  ReaderT (List (Text × Text)) (StateT (List (Nat × ShellToken)) (Except (Nat × ShellFault)))

namespace ScriptReader

/-! ### Tokens -/

/-- The line that has been reached. -/
def lineNumber : ScriptReader Nat := do
  return (((← get).head?).map Prod.fst).getD 1

/-- The next token. -/
def peek : ScriptReader ShellToken := do
  match ← get with
  | (line, .fault cause) :: _ => throw (line, cause)
  | (_, token) :: _ => return token
  | [] => return .stop

/-- Goes beyond a token. -/
def skip : ScriptReader Unit := modify List.tail

/-- Goes beyond line ends. -/
def skipNewlines : ScriptReader Unit :=
  modify fun tokens => tokens.dropWhile fun
    | (_, .newline) => true
    | _ => false

/-- Fails on the present line. -/
def failWith (cause : ShellFault) : ScriptReader α := do
  throw (← lineNumber, cause)

/-- The words that structure a script. -/
def keywords : List String :=
  ["!", "case", "do", "done", "elif", "else", "esac", "fi", "for", "if", "in", "then", "until",
   "while", "\x7b", "\x7d"]

/-- The words that cannot follow the last command of a list. -/
def closingKeywords : List String :=
  ["do", "done", "elif", "else", "esac", "fi", "then", "\x7d"]

/-- The keyword that a token is. -/
def keyword? : ShellToken → Option String
  | .word parts => keywords.find? parts.isLiteral
  | _ => none

/-- Whether a token ends a list of commands. -/
def endsList (token : ShellToken) : Bool :=
  match token with
  | .operator text => text == ")" || text == ";;"
  | .stop => true
  | _ => (keyword? token).any closingKeywords.contains

/-- Tokens with what the word at their front stands for in its place. What a word stands for may
start with a further one, and a blank at its end has the word behind it replaced, too. -/
def replaced (aliases : List (Text × Text)) :
    (budget : Nat) → (used : List Text) → List (Nat × ShellToken) → List (Nat × ShellToken)
  | n + 1, used, (line, .word parts) :: rest =>
    let name := (Word.literal? parts).getD []
    match if keywords.any (Word.isLiteral parts) || used.contains name then none
      else aliases.lookup name with
    | none => (line, .word parts) :: rest
    | some value =>
      let inner := ((ShellToken.scan 1 value).filter fun
        | (_, .stop) => false
        | _ => true).map fun (_, token) => (line, token)
      let rest := if inner.isEmpty || value.getLast?.any fun c => c == ' ' || c == '\t' then
          replaced aliases n used rest
        else rest
      replaced aliases n (name :: used) inner ++ rest
  | _, _, tokens => tokens

/-- Puts what words stand for in their place, at the front of a command. -/
def replaceWords : ScriptReader Unit := do
  let aliases ← read
  if !aliases.isEmpty then modify (replaced aliases 100 [])

/-- A text between double quotes. -/
def shown (text : String) : String := "\"" ++ text ++ "\""

/-- What a fault calls a token. -/
def tokenName (token : ShellToken) : String :=
  match token with
  | .word _ => ((keyword? token).map shown).getD "word"
  | .operator text => shown text
  | .newline => "newline"
  | .redirection _ _ => "redirection"
  | .document _ _ => "redirection"
  | .fault _ => "word"
  | .stop => "end of file"

/-- Fails at the next token. -/
def unexpected (expected : Option String) : ScriptReader α := do
  failWith (.unexpected (tokenName (← peek)) expected)

/-- Goes beyond a keyword, which must be there. -/
def expectKeyword (keyword : String) : ScriptReader Unit := do
  if keyword? (← peek) = some keyword then skip else unexpected (some (shown keyword))

/-- Whether the next token is an operator. -/
def atOperator (text : String) : ScriptReader Bool := do
  match ← peek with
  | .operator found => return found == text
  | _ => return false

/-- Goes beyond an operator, which must be there. -/
def expectOperator (text : String) : ScriptReader Unit := do
  if ← atOperator text then skip else unexpected (some (shown text))

/-! ### Simple commands -/

/-- Reads the target of a redirection. -/
def redirectionTarget (kind : RedirectionKind) : ScriptReader Word := do
  match ← peek with
  | .word parts =>
    let isBad := kind == .duplicate && match parts.literal? with
      | some [c] => !(c.isDigit || c == '-')
      | some _ => true
      | none => false
    if isBad then failWith .badDescriptor
    skip
    return parts
  | _ => unexpected none

/-- Reads a redirection, if there is one. -/
def redirection? : ScriptReader (Option Redirection) := do
  match ← peek with
  | .redirection descriptor kind =>
    skip
    return some ⟨descriptor, kind, ← redirectionTarget kind⟩
  | .document descriptor body =>
    skip
    return some ⟨descriptor, .document, body⟩
  | _ => return none

/-- Reads redirections, of which there are less than `budget`. -/
def redirections : (budget : Nat) → ScriptReader (List Redirection)
  | 0 => return []
  | n + 1 => do
    match ← redirection? with
    | some r => return r :: (← redirections n)
    | none => return []

/-- Reads words, of which there are less than `budget`. -/
def words : (budget : Nat) → ScriptReader (List Word)
  | 0 => return []
  | n + 1 => do
    match ← peek with
    | .word parts =>
      skip
      return parts :: (← words n)
    | _ => return []

/-- The parts of a simple command, in the order in which they were written. -/
structure SimpleParts where
  assignments : List (Text × Word) := []
  words : List Word := []
  redirections : List Redirection := []

/-- Reads a simple command behind some of its parts. -/
def simpleParts : (budget : Nat) → SimpleParts → ScriptReader SimpleParts
  | 0, found => return found
  | n + 1, found => do
    match ← redirection? with
    | some r => simpleParts n { found with redirections := found.redirections ++ [r] }
    | none =>
      let isFirst := found.assignments.isEmpty && found.redirections.isEmpty
      if found.words.isEmpty && !isFirst then replaceWords
      match ← peek with
      | .word parts =>
        skip
        match if found.words.isEmpty then parts.assignment? else none with
        | some assignment =>
          simpleParts n { found with assignments := found.assignments ++ [assignment] }
        | none => simpleParts n { found with words := found.words ++ [parts] }
      | _ => return found

/-- Whether a simple command can be the name of a function. -/
def SimpleParts.isOneWord (found : SimpleParts) : Bool :=
  found.assignments.isEmpty && found.redirections.isEmpty && found.words.length == 1

/-- The name of a function. -/
def functionName (found : SimpleParts) : ScriptReader Text :=
  match found.words.head?.bind Word.literal? with
  | some name =>
    if isName name && !specialNames.contains (String.ofList name) then return name
    else failWith .badFunctionName
  | none => failWith .badFunctionName

/-! ### Commands -/

/-- A command with redirections of its own. -/
def withRedirections (line : Nat) (body : Command) : List Redirection → Command
  | [] => body
  | rs => .redirected line rs body

mutual

/-- Reads a list of commands behind some of them, the last one first. -/
def commands : (budget : Nat) → (needsOne : Bool) → List Command → ScriptReader Command
  | 0, _, done => return .sequence done.reverse
  | n + 1, needsOne, done => do
    skipNewlines
    let token ← peek
    let isStop := match token with
      | .stop => true
      | _ => false
    if isStop || (!needsOne && endsList token) then return .sequence done.reverse
    let command ← chain n
    match ← peek with
    | .operator "&" =>
      skip
      commands n false (.background command :: done)
    | .operator ";" =>
      skip
      commands n false (command :: done)
    | .newline => commands n false (command :: done)
    | _ => return .sequence (command :: done).reverse

/-- Reads commands that depend on one another's success. -/
def chain : (budget : Nat) → ScriptReader Command
  | 0 => unexpected none
  | n + 1 => do chainFrom n (← pipeline n)

/-- Goes on with a chain of commands. -/
def chainFrom : (budget : Nat) → Command → ScriptReader Command
  | 0, first => return first
  | n + 1, first => do
    if ← atOperator "&&" then
      skip
      skipNewlines
      chainFrom n (.andThen first (← pipeline n))
    else if ← atOperator "||" then
      skip
      skipNewlines
      chainFrom n (.orElse first (← pipeline n))
    else return first

/-- Reads a pipeline. -/
def pipeline : (budget : Nat) → ScriptReader Command
  | 0 => unexpected none
  | n + 1 => do
    let isNegated := keyword? (← peek) == some "!"
    if isNegated then skip
    let parts ← pipelineFrom n []
    let body := match parts with
      | [part] => part
      | _ => .pipeline parts
    return if isNegated then .negation body else body

/-- Goes on with a pipeline behind some of its parts, the last one first. -/
def pipelineFrom : (budget : Nat) → List Command → ScriptReader (List Command)
  | 0, _ => unexpected none
  | n + 1, done => do
    let part ← command n
    if ← atOperator "|" then
      skip
      skipNewlines
      pipelineFrom n (part :: done)
    else return (part :: done).reverse

/-- Reads a command. -/
def command : (budget : Nat) → ScriptReader Command
  | 0 => unexpected none
  | n + 1 => do
    replaceWords
    let line ← lineNumber
    let token ← peek
    match keyword? token with
    | some "if" =>
      skip
      let body ← conditional n
      expectKeyword "fi"
      return withRedirections line body (← redirections n)
    | some "while" =>
      skip
      return withRedirections line (← loop n false) (← redirections n)
    | some "until" =>
      skip
      return withRedirections line (← loop n true) (← redirections n)
    | some "for" =>
      skip
      return withRedirections line (← each n line) (← redirections n)
    | some "case" =>
      skip
      return withRedirections line (← choice n line) (← redirections n)
    | some "\x7b" =>
      skip
      let body ← commands n true []
      expectKeyword "\x7d"
      return withRedirections line body (← redirections n)
    | some _ => unexpected none
    | none =>
      match token with
      | .operator "(" =>
        skip
        let body ← commands n true []
        expectOperator ")"
        return withRedirections line (.isolated body) (← redirections n)
      | .operator _ => unexpected none
      | .newline => unexpected none
      | .stop => unexpected none
      | _ => simple n line

/-- Reads a simple command or a function. -/
def simple : (budget line : Nat) → ScriptReader Command
  | 0, _ => unexpected none
  | n + 1, line => do
    let found ← simpleParts (← get).length {}
    if found.isOneWord && (← atOperator "(") then
      skip
      expectOperator ")"
      let name ← functionName found
      skipNewlines
      return .definition name (← command n)
    else return .simple line found.assignments found.words found.redirections

/-- Reads a conditional behind its first word, up to its last word. -/
def conditional : (budget : Nat) → ScriptReader Command
  | 0 => unexpected none
  | n + 1 => do
    let test ← commands n true []
    expectKeyword "then"
    let body ← commands n true []
    match keyword? (← peek) with
    | some "elif" =>
      skip
      return .conditional test body (← conditional n)
    | some "else" =>
      skip
      return .conditional test body (← commands n true [])
    | _ => return .conditional test body (.sequence [])

/-- Reads a loop behind its first word. -/
def loop : (budget : Nat) → (isUntil : Bool) → ScriptReader Command
  | 0, _ => unexpected none
  | n + 1, isUntil => do
    let test ← commands n true []
    expectKeyword "do"
    let body ← commands n true []
    expectKeyword "done"
    return .loop isUntil test body

/-- Reads a loop over words behind its first word. -/
def each : (budget line : Nat) → ScriptReader Command
  | 0, _ => unexpected none
  | n + 1, line => do
    match ← peek with
    | .word parts =>
      match parts.literal? with
      | some name =>
        if !isName name then failWith .badLoopVariable
        skip
        skipNewlines
        let items ← (do
          if keyword? (← peek) = some "in" then
            skip
            let items ← words (← get).length
            match ← peek with
            | .newline => skip
            | .operator ";" => skip
            | _ => unexpected none
            return some items
          else
            if ← atOperator ";" then skip
            return none : ScriptReader (Option (List Word)))
        skipNewlines
        expectKeyword "do"
        let body ← commands n true []
        expectKeyword "done"
        return .each line name items body
      | none => failWith .badLoopVariable
    | _ => failWith .badLoopVariable

/-- Reads a choice behind its first word. -/
def choice : (budget line : Nat) → ScriptReader Command
  | 0, _ => unexpected none
  | n + 1, line => do
    match ← peek with
    | .word subject =>
      skip
      skipNewlines
      expectKeyword "in"
      return .choice line subject (← branches n)
    | _ => unexpected (some "word")

/-- Reads the branches of a choice and its last word. -/
def branches : (budget : Nat) → ScriptReader (List (List Word × Command))
  | 0 => unexpected none
  | n + 1 => do
    skipNewlines
    if keyword? (← peek) = some "esac" then
      skip
      return []
    if ← atOperator "(" then skip
    let patterns ← patternsFrom n
    expectOperator ")"
    let body ← commands n false []
    skipNewlines
    if keyword? (← peek) = some "esac" then
      skip
      return [(patterns, body)]
    expectOperator ";;"
    return (patterns, body) :: (← branches n)

/-- Reads the patterns of a branch. -/
def patternsFrom : (budget : Nat) → ScriptReader (List Word)
  | 0 => unexpected none
  | n + 1 => do
    let pattern : Word := match ← peek with
      | .word parts => parts
      | _ => []
    match ← peek with
    | .stop => pure ()
    | _ => skip
    if ← atOperator "|" then
      skip
      return pattern :: (← patternsFrom n)
    else return [pattern]

end

/-- Reads the rest of a line behind some of its commands, the last one first. -/
def lineFrom : (budget : Nat) → List Command → ScriptReader Command
  | 0, done => return .sequence done.reverse
  | n + 1, done => do
    match ← peek with
    | .newline =>
      skip
      return .sequence done.reverse
    | .stop => return .sequence done.reverse
    | _ =>
      let next ← chain n
      match ← peek with
      | .operator "&" =>
        skip
        lineFrom n (.background next :: done)
      | .operator ";" =>
        skip
        lineFrom n (next :: done)
      | .newline => lineFrom n (next :: done)
      | .stop => return .sequence (next :: done).reverse
      | _ => unexpected none

/-! ### Scripts inside of words -/

/-- The tokens of a script inside of a word, with what stands behind it as their end. -/
def endTokens (ending : ScriptEnd) (tokens : List (Nat × ShellToken)) : List (Nat × ShellToken) :=
  match ending, tokens.getLast? with
  | .parenthesis, some (line, .stop) => tokens.dropLast ++ [(line, .operator ")"), (line, .stop)]
  | _, _ => tokens

/-- What is wrong with the tokens of a script inside of a word, if anything. -/
def insideFault? (ending : ScriptEnd) (tokens : List (Nat × ShellToken)) :
    Option (Nat × ShellFault) :=
  let reader : ScriptReader Unit := do
    let _ ← commands (16 * (tokens.length + 1)) false []
    if ending = .backquote then
      match ← peek with
      | .stop => pure ()
      | _ => unexpected none
    else expectOperator ")"
  match (reader.run []).run (endTokens ending tokens) with
  | .error found => some found
  | .ok _ => none

/-- The words inside of a token. -/
def tokenScripts : ShellToken → List (Nat × Text × ScriptEnd)
  | .word parts => scriptsOf parts
  | .document _ body => scriptsOf body
  | _ => []

/-- Tokens with a fault in place of a word in which a script cannot be read. -/
def checked : (budget : Nat) → List (Nat × ShellToken) → List (Nat × ShellToken)
  | 0, tokens => tokens
  | _, [] => []
  | n + 1, (line, token) :: rest =>
    let found? := (tokenScripts token).findSome? fun (start, script, ending) =>
      insideFault? ending (checked n (ShellToken.scan start script))
    match found? with
    | some (line, cause) => [(line, .fault cause)]
    | none => (line, token) :: checked n rest

end ScriptReader

/-- The tokens of a script that starts on a line. -/
def scriptTokens (line : Nat) (script : Text) : List (Nat × ShellToken) :=
  ScriptReader.checked (script.length + 1) (ShellToken.scan line script)

/-- Reads one **line** of a script, unless the script is at its end. -/
def Command.line : ScriptReader (Option Command) := do
  match ← ScriptReader.peek with
  | .stop => return none
  | _ => return some (← ScriptReader.lineFrom (16 * ((← get).length + 1)) [])

end ScriptBundle.Shell
