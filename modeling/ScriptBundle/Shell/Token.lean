import ScriptBundle.Shell.Word

/-!
# Shell Tokens

Words, operators and redirections of a shell script, each with the line on which it ends. A script
is run line by line, so a fault counts only once its token is reached.

## Main definitions

* `ShellFault`: why a script cannot be read further;
* `ShellToken`: words, operators and redirections;
* `ShellToken.scan`: the tokens of a script.
-/

namespace ScriptBundle.Shell

/-! ### Faults -/

/-- Why a **script** cannot be read further. -/
inductive ShellFault where
  | unterminatedQuote
  | unterminatedBackquote
  | missingBrace
  | missingParentheses
  | badDescriptor
  | badLoopVariable
  | badFunctionName
  /-- A token stands where another one is expected. -/
  | unexpected (token : String) (expected : Option String)
  deriving DecidableEq, Repr

/-- The words of a fault. -/
def ShellFault.message (f : ShellFault) : String :=
  "Syntax error: " ++ match f with
    | unterminatedQuote => "Unterminated quoted string"
    | unterminatedBackquote => "EOF in backquote substitution"
    | missingBrace => "Missing '\x7d'"
    | missingParentheses => "Missing '))'"
    | badDescriptor => "Bad fd number"
    | badLoopVariable => "Bad for loop variable"
    | badFunctionName => "Bad function name"
    | unexpected token none => token ++ " unexpected"
    | unexpected token (some expected) => token ++ " unexpected (expecting " ++ expected ++ ")"

/-! ### Words -/

/-- Where a character of a word stands. -/
inductive Quoting where
  | bare
  /-- Between double quotes. -/
  | double
  /-- Between braces behind a dollar sign. -/
  | braces (isQuoted : Bool)
  /-- In an expression, between further parentheses. -/
  | arithmetic (depth : Nat)
  /-- In a document. -/
  | document
  deriving DecidableEq, Repr

/-- Whether a character ends a word outside of quotes. -/
def endsWord (c : Char) : Bool := " \t\n;&|()<>".toList.contains c

namespace Quoting

/-- Whether characters are quoted. -/
def isQuoted : Quoting → Bool
  | bare => false
  | braces isQuoted => isQuoted
  | _ => true

/-- Whether a character ends the part of a word. -/
def endsAt : Quoting → Char → Bool
  | bare, c => endsWord c
  | double, c => c == '"'
  | braces _, c => c == '}'
  | arithmetic depth, c => depth == 0 && c == ')'
  | document, _ => false

/-- Whether a backslash takes the meaning from a character. -/
def isEscapable : Quoting → Char → Bool
  | double, c => "$\x60\"\\".toList.contains c
  | braces true, c => "$\x60\"\\\x7d".toList.contains c
  | document, c => "$\x60\\".toList.contains c
  | arithmetic _, c => "$\x60\"\\".toList.contains c
  | _, _ => true

/-- Whether a double quote opens a quoted part. -/
def opensDouble : Quoting → Bool
  | double => false
  | document => false
  | _ => true

/-- What is behind a character. -/
def after : Quoting → Char → Quoting
  | arithmetic depth, c =>
    if c = '(' then arithmetic (depth + 1) else if c = ')' then arithmetic (depth - 1)
    else arithmetic depth
  | quoting, _ => quoting

/-- What is missing where a script ends too early, if anything. -/
def missing? : Quoting → Option ShellFault
  | bare => none
  | double => some .unterminatedQuote
  | braces isQuoted => some (if isQuoted then .unterminatedQuote else .missingBrace)
  | arithmetic _ => some .missingParentheses
  | document => none

end Quoting

/-- What is open inside of a script between parentheses. -/
inductive Opened where
  | parenthesis
  /-- A choice, whose patterns are followed by closing parentheses. -/
  | choice
  deriving DecidableEq, Repr

/-- What is open behind a character, at which a word may start. -/
def Opened.after (atWord : Bool) (opened : List Opened) (s : Text) : List Opened :=
  let startsWith (word : String) (behind : Text) : Bool :=
    word.toList.isPrefixOf s && ((s.drop word.length).head?.any fun c => c ∈ behind)
  if atWord && startsWith "case" " \t\n".toList then choice :: opened
  else if atWord && opened.head? = some choice && startsWith "esac" " \t\n;)&|<>".toList then
    opened.tail
  else opened

mutual

/-- The text up to the parenthesis that closes a script in which some things are open, and the
text behind it, unless there is no such parenthesis. -/
def untilParenthesis :
    (budget : Nat) → (atWord : Bool) → List Opened → Text → Text × Option Text
  | 0, _, _, s => (s, none)
  | _, _, _, [] => ([], none)
  | n + 1, atWord, opened, c :: rest =>
    let opened := Opened.after atWord opened (c :: rest)
    let more (front : Text) (opened : List Opened) (rest : Text) : Text × Option Text :=
      let (text, behind) := untilParenthesis n (endsWord c) opened rest
      (front ++ text, behind)
    if c = ')' then
      match opened with
      | [] => ([], some rest)
      | .parenthesis :: others => more [c] others rest
      | .choice :: _ => more [c] opened rest
    else if c = '(' then
      -- The patterns of a choice may also stand between parentheses.
      more [c] (if opened.head? = some .choice ∧ atWord then opened else .parenthesis :: opened)
        rest
    else if c = '#' ∧ atWord then
      let comment := rest.takeWhile (· ≠ '\n')
      more (c :: comment) opened (rest.drop comment.length)
    else if c = '\\' then more (c :: rest.take 1) opened (rest.drop 1)
    else if c = '\'' then
      let length := (rest.takeWhile (· ≠ '\'')).length + 1
      more (c :: rest.take length) opened (rest.drop length)
    else if c = '"' then
      let (inner, rest) := untilQuote n rest
      more (c :: inner) opened rest
    else more [c] opened rest

/-- The text up to a closing double quote and with it, as far as there is one. -/
def untilQuote : (budget : Nat) → Text → Text × Text
  | 0, s => (s, [])
  | _, [] => ([], [])
  | n + 1, c :: rest =>
    let more (front rest : Text) : Text × Text :=
      let (text, rest) := untilQuote n rest
      (front ++ text, rest)
    if c = '"' then ([c], rest)
    else if c = '\\' then more (c :: rest.take 1) (rest.drop 1)
    else if c = '$' ∧ rest.head? = some '(' then
      match untilParenthesis n true [] (rest.drop 1) with
      | (inner, some rest) => more ("$(".toList ++ inner ++ [')']) rest
      | (inner, none) => more ("$(".toList ++ inner) []
    else more [c] rest

end

/-- The text up to a closing backquote. A backslash takes the meaning from a few characters. -/
def untilBackquote (isQuoted : Bool) : Text → Except ShellFault (Text × Text)
  | [] => .error .unterminatedBackquote
  | '\x60' :: rest => .ok ([], rest)
  | '\\' :: c :: rest => do
    let (text, rest) ← untilBackquote isQuoted rest
    let escaped := "$\x60\\".toList.contains c || (isQuoted && c == '"')
    return (if escaped then c :: text else '\\' :: c :: text, rest)
  | c :: rest => do
    let (text, rest) ← untilBackquote isQuoted rest
    return (c :: text, rest)

/-- The name of a parameter at the front of a text. -/
def parameterName (s : Text) : Text :=
  match s with
  | [] => []
  | c :: rest =>
    if startsName c then c :: rest.takeWhile continuesName
    else if c.isDigit then c :: rest.takeWhile Char.isDigit
    else if "@*#?-$!".toList.contains c then [c]
    else []

/-- What is made of a parameter, read behind its name. -/
def parameterUse? : Text → Option (ParameterUse × Text)
  | '}' :: rest => some (.value, '}' :: rest)
  | '%' :: '%' :: rest => some (.withoutBack true, rest)
  | '%' :: rest => some (.withoutBack false, rest)
  | '#' :: '#' :: rest => some (.withoutFront true, rest)
  | '#' :: rest => some (.withoutFront false, rest)
  | s =>
    let (emptyCounts, s) := match s with
      | ':' :: rest => (true, rest)
      | _ => (false, s)
    match s with
    | '-' :: rest => some (.orElse emptyCounts, rest)
    | '=' :: rest => some (.orAssign emptyCounts, rest)
    | '?' :: rest => some (.orFail emptyCounts, rest)
    | '+' :: rest => some (.instead emptyCounts, rest)
    | _ => none

/-- Whether the argument of a parameter is a pattern. -/
def ParameterUse.takesPattern : ParameterUse → Bool
  | withoutFront _ => true
  | withoutBack _ => true
  | _ => false

mutual

/-- Reads the parts of a word, up to the character that ends them. The text ends on `last`. -/
def readParts (last : Nat) : (budget : Nat) → Quoting → Text → Except ShellFault (Word × Text)
  | 0, _, _ => .error .unterminatedQuote
  | _ + 1, quoting, [] =>
    match quoting.missing? with
    | none => .ok ([], [])
    | some fault => .error fault
  | n + 1, quoting, c :: rest => do
    let more (parts : Word) (rest : Text) : Except ShellFault (Word × Text) := do
      let (others, rest) ← readParts last n (quoting.after c) rest
      return (parts ++ others, rest)
    if quoting.endsAt c then return ([], c :: rest)
    else if quoting = .braces false ∧ c = '\n' then throw .missingBrace
    else if c = '\\' then
      match rest with
      | [] => more [.quoted [c]] []
      | d :: rest =>
        if d = '\n' then more [] rest
        else more [.quoted (if quoting.isEscapable d then [d] else [c, d])] rest
    else if c = '\'' ∧ !quoting.isQuoted then
      let inner := rest.takeWhile (· ≠ '\'')
      match rest.drop inner.length with
      | [] => .error .unterminatedQuote
      | _ :: rest => more [.quoted inner] rest
    else if c = '"' ∧ quoting.opensDouble then
      let (inner, rest) ← readParts last n .double rest
      if Word.isCut inner then return (.quoted [] :: inner, [])
      more (.quoted [] :: inner) (rest.drop 1)
    else if c = '$' then
      let (part, rest) ← readDollar last n quoting.isQuoted rest
      if Word.isCut [part] then return ([part], [])
      more [part] rest
    else if c = '\x60' then
      let (script, rest) ← untilBackquote quoting.isQuoted rest
      more [.substitution 1 script .backquote quoting.isQuoted] rest
    else more [if quoting.isQuoted then .quoted [c] else .plain c] rest

/-- Reads what a dollar sign stands for, behind the sign. -/
def readDollar (last : Nat) :
    (budget : Nat) → (isQuoted : Bool) → Text → Except ShellFault (WordPart × Text)
  | 0, _, _ => .error .unterminatedQuote
  | n + 1, isQuoted, '(' :: '(' :: rest => do
    match ← readParts last n (.arithmetic 0) rest with
    | (expression, ')' :: ')' :: rest) => return (.arithmetic expression isQuoted, rest)
    | (expression, _) =>
      if Word.isCut expression then return (.arithmetic expression isQuoted, [])
      throw .missingParentheses
  | n + 1, isQuoted, '(' :: rest => do
    let line := last - rest.count '\n'
    match untilParenthesis n true [] rest with
    | (script, some rest) => return (.substitution line script .parenthesis isQuoted, rest)
    | (script, none) => return (.substitution line script .missing isQuoted, [])
  | n + 1, isQuoted, '{' :: rest => do
    let malformed : Except ShellFault (WordPart × Text) := do
      let (_, rest) ← readParts last n (.braces isQuoted) rest
      return (.malformed, rest.drop 1)
    let (isLength, body) := match rest with
      | '#' :: '}' :: _ => (false, rest)
      | '#' :: body => if (parameterName body).isEmpty then (false, rest) else (true, body)
      | _ => (false, rest)
    let name := parameterName body
    match parameterUse? (body.drop name.length) with
    | none => malformed
    | some (use, rest) =>
      if name.isEmpty || (isLength && use != .value) then malformed
      else
        let quoting : Quoting := .braces (isQuoted && !use.takesPattern)
        let (argument, rest) ← readParts last n quoting rest
        let use := if isLength then .length else use
        return (.parameter name use argument isQuoted, rest.drop 1)
  | _ + 1, isQuoted, s =>
    let name := match s with
      | c :: _ => if c.isDigit then [c] else parameterName s
      | [] => []
    if name.isEmpty then .ok (if isQuoted then .quoted ['$'] else .plain '$', s)
    else .ok (.parameter name .value [] isQuoted, s.drop name.length)

end

/-! ### Tokens -/

/-- What a redirection does with its descriptor. -/
inductive RedirectionKind where
  /-- Reads a file. -/
  | input
  /-- Writes a file anew. -/
  | output
  /-- Writes a file anew, whatever the settings are. -/
  | overwrite
  /-- Writes at the end of a file. -/
  | append
  /-- Goes where another descriptor goes. -/
  | duplicate
  /-- Reads a document in the script. -/
  | document
  deriving DecidableEq, Repr

/-- A **token** of a script. -/
inductive ShellToken where
  | word (parts : Word)
  /-- One of the operators that stand between words. -/
  | operator (text : String)
  | newline
  /-- A redirection, whose target is the next word. -/
  | redirection (descriptor : Nat) (kind : RedirectionKind)
  /-- A redirection from a document. -/
  | document (descriptor : Nat) (body : Word)
  | fault (cause : ShellFault)
  /-- The end of the script. -/
  | stop
  deriving Repr

namespace ShellToken

/-- Reads an operator. -/
def operator? : Text → Option (ShellToken × Text)
  | '\n' :: rest => some (newline, rest)
  | ';' :: ';' :: rest => some (operator ";;", rest)
  | '&' :: '&' :: rest => some (operator "&&", rest)
  | '|' :: '|' :: rest => some (operator "||", rest)
  | c :: rest =>
    if ";&|()".toList.contains c then some (operator (String.singleton c), rest) else none
  | [] => none

/-- The lines of a document up to its last one, and the rest of the script. -/
def documentLines (strips : Bool) (delimiter : Text) : List Text → List Text × List Text
  | [] => ([], [])
  | line :: rest =>
    let shown := if strips then line.dropWhile (· == '\t') else line
    if shown = delimiter then ([], rest)
    else
      let (body, rest) := documentLines strips delimiter rest
      (shown :: body, rest)

/-- The parts of a text between its line feeds. -/
def splitLines : Text → List Text
  | [] => [[]]
  | c :: rest =>
    if c = '\n' then [] :: splitLines rest
    else
      match splitLines rest with
      | [] => [[c]]
      | line :: others => (c :: line) :: others

/-- What stands in the place of the word that ends a document, if there is no word. -/
def misplaced? (s : Text) : Option String :=
  match s with
  | [] => some "end of file"
  | '<' :: _ => some "redirection"
  | '>' :: _ => some "redirection"
  | _ =>
    match operator? s with
    | some (operator text, _) => some ("\"" ++ text ++ "\"")
    | some _ => some "newline"
    | none => none

/-- Takes a document out of a script that ends on a line. The lines of the document stand behind
the present line. -/
def readDocument (last descriptor : Nat) (strips : Bool) (s : Text) :
    Except ShellFault (ShellToken × Text) := do
  let trimmed := s.dropWhile fun c => c == ' ' || c == '\t'
  match misplaced? trimmed with
  | some token => throw (.unexpected token none)
  | none => pure ()
  let (ending, rest) ← readParts last (s.length + 1) .bare trimmed
  match splitLines rest with
  | [] => return (document descriptor [], [])
  | line :: below =>
    let (body, others) := documentLines strips ending.delimiter below
    let endsScript := others.isEmpty && below.getLast? != some [] && body.length == below.length
    let text := List.intercalate ['\n'] (if endsScript then body else body ++ [[]])
    let text := if body.isEmpty then [] else text
    let parts ← if ending.hasQuotes then pure [.quoted text]
      else (readParts (last - others.length) (text.length + 1) .document text).map Prod.fst
    let rest := if others.isEmpty then line else line ++ '\n' :: List.intercalate ['\n'] others
    return (document descriptor parts, rest)

/-- Reads a redirection from its angle bracket on. -/
def readRedirection? (last : Nat) (descriptor? : Option Nat) :
    Text → Option (Except ShellFault (ShellToken × Text))
  | '<' :: '<' :: '-' :: rest => some (readDocument last (descriptor?.getD 0) true rest)
  | '<' :: '<' :: rest => some (readDocument last (descriptor?.getD 0) false rest)
  | '<' :: '&' :: rest => some (.ok (redirection (descriptor?.getD 0) .duplicate, rest))
  | '<' :: '>' :: rest => some (.ok (redirection (descriptor?.getD 0) .append, rest))
  | '<' :: rest => some (.ok (redirection (descriptor?.getD 0) .input, rest))
  | '>' :: '&' :: rest => some (.ok (redirection (descriptor?.getD 1) .duplicate, rest))
  | '>' :: '>' :: rest => some (.ok (redirection (descriptor?.getD 1) .append, rest))
  | '>' :: '|' :: rest => some (.ok (redirection (descriptor?.getD 1) .overwrite, rest))
  | '>' :: rest => some (.ok (redirection (descriptor?.getD 1) .output, rest))
  | _ => none

/-- Reads a redirection, which a digit may stand in front of. -/
def redirection? (last : Nat) : Text → Option (Except ShellFault (ShellToken × Text))
  | c :: rest =>
    if c.isDigit then readRedirection? last (some (c.toNat - '0'.toNat)) rest
    else readRedirection? last none (c :: rest)
  | [] => none

/-- Reads the first token of a text that does not start with white space and ends on a line, the
lines of `pending` documents counted too. -/
def readToken (last pending : Nat) (s : Text) : Except ShellFault (ShellToken × Text) :=
  match operator? s with
  | some found => .ok found
  | none =>
    match redirection? last s with
    | some found => found
    | none =>
      (readParts (last - pending) (s.length + 1) .bare s).map fun (parts, rest) =>
        (word parts, rest)

/-- Whether a token is the end of a line. -/
def isNewline : ShellToken → Bool
  | newline => true
  | _ => false

/-- Whether a token is a document. -/
def isDocument : ShellToken → Bool
  | document _ _ => true
  | _ => false

/-- The tokens of a script from a line on, behind which as many lines of documents are `pending`. -/
def scanFrom : (budget line pending : Nat) → Text → List (Nat × ShellToken)
  | 0, line, pending, _ => [(line + pending, stop)]
  | _, line, pending, [] => [(line + pending, stop)]
  | n + 1, line, pending, c :: rest =>
    if c = ' ' ∨ c = '\t' then scanFrom n line pending rest
    else if c = '#' then scanFrom n line pending (rest.dropWhile (· ≠ '\n'))
    else if c = '\\' ∧ rest.head? = some '\n' then scanFrom n (line + 1) pending (rest.drop 1)
    else
      let last := line + pending + rest.count '\n'
      match readToken last pending (c :: rest) with
      | .error .badDescriptor => [(line, fault .badDescriptor)]
      | .error .missingBrace => [(line, fault .missingBrace)]
      | .error (.unexpected token expected) => [(line, fault (.unexpected token expected))]
      | .error cause => [(last, fault cause)]
      | .ok (token, behind) =>
        let passed := (c :: rest).count '\n' - behind.count '\n'
        if token.isDocument then (line, token) :: scanFrom n line (pending + passed) behind
        else if token.isNewline then
          let line := line + passed + pending
          (line, token) :: scanFrom n line 0 behind
        else (line + passed, token) :: scanFrom n (line + passed) pending behind

/-- The **tokens** of a script that starts on a line, each with its line. -/
def scan (line : Nat) (script : Text) : List (Nat × ShellToken) :=
  scanFrom (script.length + 1) line 0 script

end ShellToken

end ScriptBundle.Shell
