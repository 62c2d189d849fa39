import ScriptBundle.Text.Blank
import ScriptBundle.Text.Search
import ScriptBundle.Token.Lexer

/-!
# Indentation and Balance

How a body is moved to the right inside the wrapper of the document, and how a finished
document is judged.

## Main definitions

* `literalSpans`: the places of a text that no indentation may reach;
* `indentBody`: a text with each of its lines moved to the right;
* `isBalanced`: whether the brackets among tokens close one another;
* `isScript`: the rule by which a text is accepted as a script.
-/

namespace ScriptBundle

/-! ### Indentation -/

/-- Whether a token is a literal whose characters count one by one. -/
def isTextLiteral : TokenKind → Bool
  | .template => true
  | .string _ => true
  | _ => false

/-- The spans of the strings and templates of a text. -/
def literalSpans (s : Text) : List Span :=
  ((tokenize s).filter (isTextLiteral ·.kind)).map Token.span

/-- Whether an offset lies behind the first and in front of the last byte of a literal. -/
def insideLiteral (spans : List Span) (offset : Nat) : Bool :=
  spans.any fun span => span.start < offset && offset < span.stop

/-- Indents lines, of which the first one starts at `offset`. A line that starts inside a
literal stays as it is, and a line of white space becomes empty. -/
def indentLines (indent : Text) (spans : List Span) : (offset : Nat) → List Text → List Text
  | _, [] => []
  | offset, line :: rest =>
    (if insideLiteral spans offset then line
     else if (Text.trim line).isEmpty then []
     else indent ++ line) ::
    indentLines indent spans (offset + Text.size line + 1) rest

/-- Moves the lines of a body to the right. -/
def indentBody (indent body : Text) : Text :=
  Text.joinLines (indentLines indent (literalSpans body) 0 (Text.lines body))

/-! ### Balance -/

/-- The character that closes a bracket. -/
def closingOf : Char → Option Char
  | '(' => some ')'
  | '[' => some ']'
  | '{' => some '}'
  | _ => none

/-- Whether the brackets among tokens close one another, `expected` being the characters that
close the brackets open so far, innermost first. -/
def isBalanced (expected : List Char) : List TokenKind → Bool
  | [] => expected.isEmpty
  | .punctuator c :: rest =>
    match closingOf c with
    | some closing => isBalanced (closing :: expected) rest
    | none =>
      if c = ')' ∨ c = ']' ∨ c = '}' then
        match expected with
        | [] => false
        | closing :: others => c == closing && isBalanced others rest
      else isBalanced expected rest
  | _ :: rest => isBalanced expected rest

/-- Whether a text is accepted as a **script** by its literals and brackets: every literal is
closed, and the brackets close one another. -/
def isScript (s : Text) : Bool :=
  let kinds := (tokenize s).map (·.kind)
  !kinds.contains .unterminated && isBalanced [] kinds

end ScriptBundle
