import ScriptBundle.Token.Lexer
import ScriptBundle.SyntaxError

/-!
# Cursors

A place in a list of tokens from which a reader goes on. A step forward comes with a proof that
fewer tokens are left, which is what ends every reader's recursion.

## Main definitions

* `Cursor`: the token just passed and the tokens ahead;
* `Advance`: the outcome of a step that passes at least one token;
* `Cursor.bump`, `Cursor.eat`: unconditional and conditional steps;
* `Cursor.offset`: where an error at the cursor is reported.
-/

namespace ScriptBundle

/-- A **cursor** stands behind the token `previous` and in front of the tokens `rest`. -/
structure Cursor where
  previous : Option Token
  rest : List Token
  deriving DecidableEq, Repr

/-- An **advance** is a value read from a cursor, and the cursor behind what was read. -/
structure Advance (c : Cursor) (α : Type) where
  value : α
  cursor : Cursor
  shorter : cursor.rest.length < c.rest.length

namespace Advance

/-- Two advances in a row, of which the second one's value counts. -/
def trans {c : Cursor} (a : Advance c α) (b : Advance a.cursor β) : Advance c β :=
  ⟨b.value, b.cursor, Nat.lt_trans b.shorter a.shorter⟩

/-- Changes the value of an advance. -/
def map {c : Cursor} (f : α → β) (a : Advance c α) : Advance c β := ⟨f a.value, a.cursor, a.shorter⟩

/-- Moves the end of an advance to a cursor that is not behind it. -/
def moveTo {c : Cursor} (a : Advance c α) (target : Cursor)
    (h : target.rest.length ≤ a.cursor.rest.length) : Advance c α :=
  ⟨a.value, target, Nat.lt_of_le_of_lt h a.shorter⟩

@[simp] theorem trans_value {c : Cursor} (a : Advance c α) (b : Advance a.cursor β) :
    (a.trans b).value = b.value := rfl

@[simp] theorem trans_cursor {c : Cursor} (a : Advance c α) (b : Advance a.cursor β) :
    (a.trans b).cursor = b.cursor := rfl

@[simp] theorem map_value {c : Cursor} (f : α → β) (a : Advance c α) :
    (a.map f).value = f a.value := rfl

@[simp] theorem map_cursor {c : Cursor} (f : α → β) (a : Advance c α) :
    (a.map f).cursor = a.cursor := rfl

@[simp] theorem moveTo_value {c : Cursor} (a : Advance c α) (target : Cursor)
    (h : target.rest.length ≤ a.cursor.rest.length) : (a.moveTo target h).value = a.value := rfl

@[simp] theorem moveTo_cursor {c : Cursor} (a : Advance c α) (target : Cursor)
    (h : target.rest.length ≤ a.cursor.rest.length) : (a.moveTo target h).cursor = target := rfl

end Advance

namespace Cursor

/-- The cursor in front of the tokens of a source text. -/
def ofSource (source : Text) : Cursor := ⟨none, tokenize source⟩

/-- The next token. -/
def peek (c : Cursor) : Option Token := c.rest.head?

/-- The token that stands `n` places behind the next one. -/
def peekNth (c : Cursor) (n : Nat) : Option Token := c.rest[n]?

/-- Whether no token is left. -/
def isAtEnd (c : Cursor) : Bool := c.rest.isEmpty

/-- Passes one token. -/
def bump : (c : Cursor) → Option (Advance c Token)
  | ⟨_, []⟩ => none
  | ⟨_, t :: rest⟩ => some ⟨t, ⟨some t, rest⟩, Nat.lt_succ_self _⟩

/-- Passes the next token if it is the one that is asked for. -/
def eat (c : Cursor) (accept : Token → Bool) : Option (Advance c Token) :=
  c.bump.filter fun a => accept a.value

/-- Passes the next token if it is the given character. -/
def eatPunctuator (c : Cursor) (char : Char) : Option (Advance c Token) :=
  c.eat (·.isPunctuator char)

/-- Passes the next token if it is the given name. -/
def eatName (c : Cursor) (name : String) : Option (Advance c Token) :=
  c.eat (·.isName name)

/-- The offset of an error at the cursor: the start of the next token or else of the last one. -/
def offset (c : Cursor) : Nat :=
  ((c.peek <|> c.previous).map Token.start).getD 0

/-- An error at the cursor. -/
def fail (c : Cursor) (fault : SyntaxFault) : Except SyntaxError α := .error ⟨fault, c.offset⟩

/-- Whether the next token is the given character. -/
def atPunctuator (c : Cursor) (char : Char) : Bool := c.peek.any (·.isPunctuator char)

/-- Whether the next token is the given name. -/
def atName (c : Cursor) (name : String) : Bool := c.peek.any (·.isName name)

/-- Whether the next token would go on with an unfinished line before it. -/
def atContinuation (c : Cursor) : Bool := c.peek.any (·.kind.continuesPreviousLine)

end Cursor

end ScriptBundle
