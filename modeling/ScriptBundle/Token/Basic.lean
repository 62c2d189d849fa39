import ScriptBundle.Text.Letter
import ScriptBundle.Text.Basic

/-!
# Tokens

The units a module's source is made of. Nothing here knows a grammar: a literal of any kind is
one token, and a character with no other meaning is one too.

## Main definitions

* `TokenKind`: what a token is, with the name or value it stands for;
* `Lexeme`: a token with the trivia in front of it, independent of where it stands;
* `Token`: a lexeme that has a place in a text;
* `Token.place`: gives lexemes that follow one another their places.

## Main statements

* `Token.place_map_toLexeme`: placing changes nothing but the place.
-/

namespace ScriptBundle

/-- A **span** is the bytes of a text from `start` up to `stop`. -/
structure Span where
  start : Nat
  stop : Nat
  deriving DecidableEq, Repr

/-- The part of a text that a span covers. -/
def Span.text (span : Span) (source : Text) : Text :=
  Text.takeBytes (span.stop - span.start) (Text.dropBytes span.start source)

/-- What a token is. -/
inductive TokenKind where
  /-- A name, whether it is a keyword or not. -/
  | identifier (name : String)
  /-- A quoted literal, given by the value it stands for. -/
  | string (value : String)
  /-- A template literal with all of its substitutions. -/
  | template
  | number
  /-- A regular expression with its flags. -/
  | regex
  /-- Any other character. -/
  | punctuator (char : Char)
  /-- A string, template or regular expression that is not closed. -/
  | unterminated
  deriving DecidableEq, Repr

/-- A **lexeme** is a token as it is written: the trivia before it, then its own characters. -/
structure Lexeme where
  gap : Text
  text : Text
  kind : TokenKind
  /-- A line ended between the token before and this one. -/
  newlineBefore : Bool
  deriving DecidableEq, Repr

/-- A **token** is a lexeme with the offset at which its own characters start. -/
structure Token extends Lexeme where
  start : Nat
  deriving DecidableEq, Repr

/-! ### Characters of names -/

/-- Whether a name may start with this character. -/
def isIdentifierStart (c : Char) : Bool :=
  isLetter c || c == '_' || c == '$'

/-- Whether a name may go on with this character. Besides letters and numbers these are the
two joiners of complex scripts. -/
def isIdentifierPart (c : Char) : Bool :=
  isLetter c || isNumeral c || c == '_' || c == '$' || c == '\u200c' || c == '\u200d'

/-- A name may go on with whatever it may start with. -/
theorem isIdentifierPart_of_start {c : Char} (h : isIdentifierStart c = true) :
    isIdentifierPart c = true := by
  simp only [isIdentifierStart, isIdentifierPart, Bool.or_eq_true] at h ⊢
  rcases h with (h | h) | h <;> simp [h]

/-! ### Questions about a kind -/

namespace TokenKind

/-- The name, if the token is one. -/
def name? : TokenKind → Option String
  | identifier name => some name
  | _ => none

/-- Whether a line that starts with such a token would go on with a statement that the line
before left without a semicolon. -/
def continuesPreviousLine : TokenKind → Bool
  | punctuator c => c == '(' || c == '[' || c == '+' || c == '-' || c == '/'
  | template | regex => true
  | identifier _ | string _ | number | unterminated => false

/-- Whether the token opens a bracket of any of the three shapes. -/
def isOpening : TokenKind → Bool
  | punctuator c => c == '{' || c == '(' || c == '['
  | _ => false

/-- Whether the token closes a bracket of any of the three shapes. -/
def isClosing : TokenKind → Bool
  | punctuator c => c == '}' || c == ')' || c == ']'
  | _ => false

end TokenKind

/-! ### Places -/

namespace Token

/-- The offset at which the characters of a token end. -/
def stop (t : Token) : Nat := t.start + Text.size t.text

/-- The bytes of the source that a token covers. -/
def span (t : Token) : Span := ⟨t.start, t.stop⟩

/-- Whether a token is the given name. -/
def isName (t : Token) (name : String) : Bool := t.kind == .identifier name

/-- Whether a token is the given character. -/
def isPunctuator (t : Token) (c : Char) : Bool := t.kind == .punctuator c

/-- Gives lexemes that follow one another from `offset` on their places. -/
def place : Nat → List Lexeme → List Token
  | _, [] => []
  | offset, l :: rest =>
    let start := offset + Text.size l.gap
    ⟨l, start⟩ :: place (start + Text.size l.text) rest

/-- A place adds nothing else to a lexeme. -/
@[simp] theorem place_map_toLexeme (offset : Nat) (ls : List Lexeme) :
    (place offset ls).map Token.toLexeme = ls := by
  induction ls generalizing offset with
  | nil => rfl
  | cons l ls ih => simp [place, ih]

end Token

end ScriptBundle
