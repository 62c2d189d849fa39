import ScriptBundle.Shell.Regex.Basic
import ScriptBundle.Text.Numeral
import ScriptBundle.Text.Search

/-!
# Written Regular Expressions

The ways in which regular expressions are written, and how they are read: first as tokens,
then as an expression.

## Main definitions

* `RegexDialect`: the ways of writing;
* `RegexToken.scan`: the tokens of a written expression;
* `Regex.read`: the expression that is written, or what is wrong with it.
-/

namespace ScriptBundle.Shell

/-- A **way of writing** regular expressions. -/
inductive RegexDialect where
  /-- Parentheses and braces have a backslash. -/
  | basic
  | extended
  /-- An extended one with further escapes. -/
  | perl
  /-- A basic one in which repetitions are not repeated. -/
  | strictBasic
  /-- An extended one in which what is special stands only where it has a meaning. -/
  | strictExtended
  deriving DecidableEq, Repr

namespace Regex

/-- An expression up to `n` times in a row. -/
def upTo (r : Regex) : (n : Nat) → Regex
  | 0 => nothing
  | n + 1 => alternative (cat r (upTo r n)) nothing

/-- An expression at least `least` times in a row, and at most so many times more. -/
def repeated (r : Regex) (further : Option Nat) : (least : Nat) → Regex
  | 0 =>
    match further with
    | none => many r
    | some n => upTo r n
  | n + 1 => cat r (repeated r further n)

end Regex

/-! ### Tokens -/

/-- A part of a written expression. -/
inductive RegexToken where
  | single (p : Pattern)
  | assertion (a : Assertion)
  /-- The item before, at least so many times, and at most so many times more. -/
  | repetition (least : Nat) (further : Option Nat)
  | opening (index : Nat)
  | closing
  | bar
  deriving DecidableEq, Repr

namespace RegexToken

/-- The token of a character that stands for itself. -/
def literal (c : Char) : RegexToken := single [⟨c, true⟩]

/-- The token of a bracket that is written in full. -/
def bracket (s : String) : RegexToken := single (s.toList.map (⟨·, false⟩))

/-- The token of a backslash and a character, in any dialect. -/
def escaped? : Char → Option RegexToken
  | 'w' => some (bracket "[[:alnum:]_]")
  | 'W' => some (bracket "[^[:alnum:]_]")
  | 's' => some (bracket "[[:space:]]")
  | 'S' => some (bracket "[^[:space:]]")
  | 'b' => some (assertion .boundary)
  | 'B' => some (assertion .noBoundary)
  | '<' => some (assertion .wordStart)
  | '>' => some (assertion .wordEnd)
  | '\x60' => some (assertion .start)
  | '\'' => some (assertion .stop)
  | _ => none

/-- The token of a backslash and a letter, in the dialect that has the most of them. -/
def perlEscaped? : Char → Option RegexToken
  | 'd' => some (bracket "[0-9]")
  | 'D' => some (bracket "[^0-9]")
  | 't' => some (literal '\t')
  | 'n' => some (literal '\n')
  | 'r' => some (literal '\r')
  | 'f' => some (literal '\x0c')
  | 'v' => some (literal '\x0b')
  | _ => none

/-- What is wrong with a bracket that has no end. -/
def unmatchedBracket : String := "Unmatched [, [^, [:, [., or [="

/-- The names of classes of characters. -/
def classNames : List String :=
  ["alnum", "alpha", "blank", "cntrl", "digit", "graph", "lower", "print", "punct", "space",
   "upper", "xdigit"]

/-- The body of a bracket up to its end and with it, and what is behind. A closing bracket is a
member at the front and in the name of a class. -/
def bracketBody : (budget : Nat) → (atFront : Bool) → Text → Except String (Text × Text)
  | 0, _, _ => .error unmatchedBracket
  | _, _, [] => .error unmatchedBracket
  | n + 1, atFront, c :: rest =>
    let more (front rest : Text) : Except String (Text × Text) :=
      (bracketBody n false rest).map fun (body, rest) => (front ++ body, rest)
    match c, rest with
    | '[', ':' :: inner =>
      let name := inner.takeWhile (· ≠ ':')
      match inner.drop name.length with
      | ':' :: ']' :: rest =>
        if classNames.contains (String.ofList name) then
          more ("[:".toList ++ name ++ ":]".toList) rest
        else .error "Invalid character class name"
      | _ => more ['['] rest
    | ']', rest => if atFront then more [']'] rest else .ok ([']'], rest)
    | c, rest => more [c] rest

/-- Reads a bracket behind its opening. -/
def readBracket (s : Text) : Except String (RegexToken × Text) := do
  let (caret, members) := match s with
    | '^' :: rest => (['^'], rest)
    | _ => ([], s)
  let (body, rest) ← bracketBody (s.length + 1) true members
  if caret.isEmpty && body.head? = some ':' && ":]".toList.isSuffixOf body && 2 < body.length then
    throw "character class syntax is [[:space:]], not [:space:]"
  let glyph (c : Char) : Glyph := ⟨c, c == '!'⟩
  return (single (('[' :: caret).map (⟨·, false⟩) ++ body.map glyph), rest)

/-- Reads a number of repetitions behind its opening brace, up to the text that ends it. -/
def readInterval? (ending : Text) (s : Text) : Option (RegexToken × Text) :=
  let digits := s.takeWhile Char.isDigit
  let behind := s.drop digits.length
  let least? := Text.number? 10 digits
  let finish (least : Nat) (further : Option Nat) (rest : Text) : Option (RegexToken × Text) :=
    if ending.isPrefixOf rest then some (repetition least further, rest.drop ending.length)
    else none
  match behind with
  | ',' :: rest =>
    let digits := rest.takeWhile Char.isDigit
    let behind := rest.drop digits.length
    let least := least?.getD 0
    match Text.number? 10 digits with
    | some most => if least ≤ most then finish least (some (most - least)) behind else none
    | none => finish least none behind
  | _ => least?.bind fun least => finish least (some 0) behind

/-- Reads an interval in the basic way, behind its opening brace. -/
def readBasicInterval (s : Text) : Except String (RegexToken × Text) :=
  match readInterval? "\\\x7d".toList s with
  | some found => .ok found
  | none =>
    if Text.contains "\\\x7d".toList s then .error "Invalid content of \\\x7b\\\x7d"
    else .error "Unmatched \\\x7b"

/-- The tokens of an expression that is written in the basic way. -/
def scanBasic : (budget : Nat) → (atFront : Bool) → Text → Except String (List RegexToken)
  | 0, _, _ => .ok []
  | _, _, [] => .ok []
  | n + 1, atFront, c :: rest =>
    let more (token : RegexToken) (atFront : Bool) (rest : Text) :
        Except String (List RegexToken) :=
      (scanBasic n atFront rest).map (token :: ·)
    match c, rest with
    | '\\', '(' :: rest => more (opening 0) true rest
    | '\\', ')' :: rest => more closing false rest
    | '\\', '|' :: rest => more bar true rest
    | '\\', '{' :: inner =>
      if atFront then .error "Invalid preceding regular expression"
      else
        match readBasicInterval inner with
        | .ok (token, rest) => more token false rest
        | .error cause => .error cause
    | '\\', '+' :: rest => more (if atFront then literal '+' else repetition 1 none) false rest
    | '\\', '?' :: rest => more (if atFront then literal '?' else repetition 0 (some 1)) false rest
    | '\\', d :: rest => more ((escaped? d).getD (literal d)) false rest
    | '\\', [] => .error "Trailing backslash"
    | '*', _ => more (if atFront then literal '*' else repetition 0 none) false rest
    | '^', _ => more (if atFront then assertion .start else literal '^') atFront rest
    | '$', _ =>
      let isLast := rest.isEmpty || "\\)".toList.isPrefixOf rest || "\\|".toList.isPrefixOf rest
      more (if isLast then assertion .stop else literal '$') false rest
    | '.', _ => more (single [⟨'?', false⟩]) false rest
    | '[', _ =>
      match readBracket rest with
      | .ok (token, rest) => more token false rest
      | .error cause => .error cause
    | _, _ => more (literal c) false rest

/-- The tokens of an expression that is written in an extended way. -/
def scanExtended (dialect : RegexDialect) : (budget : Nat) → Text → Except String (List RegexToken)
  | 0, _ => .ok []
  | _, [] => .ok []
  | n + 1, c :: rest =>
    let more (token : RegexToken) (rest : Text) : Except String (List RegexToken) :=
      (scanExtended dialect n rest).map (token :: ·)
    match c, rest with
    | '\\', d :: rest =>
      let further? := if dialect = .perl then perlEscaped? d else none
      more ((further?.or (escaped? d)).getD (literal d)) rest
    | '\\', [] => .error "Trailing backslash"
    | '(', _ =>
      let rest := if dialect = .perl && "?:".toList.isPrefixOf rest then rest.drop 2 else rest
      more (opening 0) rest
    | ')', _ => more closing rest
    | '|', _ => more bar rest
    | '*', _ => more (repetition 0 none) rest
    | '+', _ => more (repetition 1 none) rest
    | '?', _ => more (repetition 0 (some 1)) rest
    | '{', _ =>
      match readInterval? ['}'] rest with
      | some (token, rest) => more token rest
      | none =>
        if dialect ≠ .strictExtended then more (literal '{') rest
        else if '}' ∈ rest then .error "Invalid content of \\\x7b\\\x7d"
        else .error "Unmatched \\\x7b"
    | '^', _ => more (assertion .start) rest
    | '$', _ => more (assertion .stop) rest
    | '.', _ => more (single [⟨'?', false⟩]) rest
    | '[', _ =>
      match readBracket rest with
      | .ok (token, rest) => more token rest
      | .error cause => .error cause
    | _, _ => more (literal c) rest

/-- The tokens of a written expression. -/
def scan (dialect : RegexDialect) (s : Text) : Except String (List RegexToken) :=
  match dialect with
  | .basic => scanBasic (s.length + 1) true s
  | .strictBasic => scanBasic (s.length + 1) true s
  | _ => scanExtended dialect (s.length + 1) s

/-- Whether there is a repetition where a dialect has none. `before` is the token in front of the
given ones. -/
def hasMisplaced (dialect : RegexDialect) (before : Option RegexToken) : List RegexToken → Bool
  | [] => false
  | token :: rest =>
    let isWrong := match dialect, token, before with
      | .strictBasic, repetition _ _, some (repetition _ _) => true
      | .strictExtended, repetition _ _, none => true
      | .strictExtended, repetition _ _, some (opening _) => true
      | .strictExtended, repetition _ _, some bar => true
      | _, _, _ => false
    isWrong || hasMisplaced dialect (some token) rest

/-- Tokens in which the closing parentheses that close nothing stand for themselves. -/
def balanced (depth : Nat) : List RegexToken → List RegexToken
  | [] => []
  | opening index :: rest => opening index :: balanced (depth + 1) rest
  | closing :: rest =>
    if depth = 0 then literal ')' :: balanced 0 rest else closing :: balanced (depth - 1) rest
  | token :: rest => token :: balanced depth rest

/-- Tokens whose opening parentheses are numbered from the given number on. -/
def numbered (next : Nat) : List RegexToken → List RegexToken
  | [] => []
  | opening _ :: rest => opening next :: numbered (next + 1) rest
  | token :: rest => token :: numbered next rest

/-! ### Expressions -/

/-- Repeats an expression as the tokens behind it say. -/
def repeated (r : Regex) : List RegexToken → Regex × List RegexToken
  | repetition least further :: rest => repeated (r.repeated further least) rest
  | rest => (r, rest)

mutual

/-- Reads alternatives up to a closing parenthesis. -/
def readAny (foldsCase : Bool) :
    (budget : Nat) → List RegexToken → Except String (Regex × List RegexToken)
  | 0, tokens => .ok (.nothing, tokens)
  | n + 1, tokens => do
    let (first, rest) ← readRow foldsCase n tokens
    match rest with
    | bar :: rest =>
      let (second, rest) ← readAny foldsCase n rest
      return (.alternative first second, rest)
    | rest => return (first, rest)

/-- Reads expressions in a row. -/
def readRow (foldsCase : Bool) :
    (budget : Nat) → List RegexToken → Except String (Regex × List RegexToken)
  | 0, tokens => .ok (.nothing, tokens)
  | n + 1, tokens => do
    let goOn (r : Regex) (rest : List RegexToken) : Except String (Regex × List RegexToken) := do
      let (r, rest) := repeated r rest
      let (second, rest) ← readRow foldsCase n rest
      return (if second = .nothing then r else .cat r second, rest)
    match tokens with
    | [] => return (.nothing, [])
    | bar :: _ => return (.nothing, tokens)
    | closing :: _ => return (.nothing, tokens)
    | opening index :: rest =>
      match ← readAny foldsCase n rest with
      | (inner, closing :: rest) => goOn (.group index inner) rest
      | _ => throw "Unmatched ( or \\("
    | single p :: rest => goOn (.single p foldsCase) rest
    | assertion a :: rest => goOn (.assertion a) rest
    | repetition _ _ :: rest => goOn .nothing rest

end

end RegexToken

namespace Regex

/-- The **expression** that is written, or what is wrong with it. -/
def read (dialect : RegexDialect) (foldsCase : Bool) (s : Text) : Except String Regex := do
  let scanned ← RegexToken.scan dialect s
  if RegexToken.hasMisplaced dialect none scanned then throw "Invalid preceding regular expression"
  let isLenient := dialect = .extended || dialect = .perl
  let tokens := if isLenient then RegexToken.balanced 0 scanned else scanned
  match ← RegexToken.readAny foldsCase (2 * tokens.length + 2) (RegexToken.numbered 1 tokens) with
  | (r, []) => return r
  | _ => throw "Unmatched ) or \\)"

/-- The expression that a text stands for by itself. -/
def ofText (foldsCase : Bool) (s : Text) : Regex :=
  s.foldr (fun c r => .cat (.single [⟨c, true⟩] foldsCase) r) .nothing

end Regex

end ScriptBundle.Shell
