import ScriptBundle.Token.Scan

/-!
# The Lexer

Splits a source text into tokens. The only question that needs more than the next few
characters is whether a slash divides or starts a regular expression; the lexer answers it
from the token before and, behind a closing bracket, from what stood before the bracket that
it closes.

## Main definitions

* `LexState`: what the lexer remembers between two tokens;
* `lexeme?`: the next lexeme of a text;
* `lexemes`: all of them;
* `tokenize`: the tokens of a source text with their places.

## Main statements

* `lexeme?_gap_append_text`: a lexeme and the rest make up the text;
* `lexemes_flatten`: the lexemes and the trivia behind the last one make up the text.
-/

namespace ScriptBundle

/-- Words after which a slash starts a regular expression: an operand or a statement follows. -/
def expectsOperand (word : String) : Bool :=
  ["return", "typeof", "instanceof", "in", "of", "new", "delete", "void", "throw", "case", "do",
    "else", "yield", "await"].contains word

/-- Words whose parenthesised head is followed by a statement. -/
def hasHead (word : String) : Bool :=
  ["if", "while", "for", "with"].contains word

/-- A **lexer state** is what decides how the next slash is read. -/
structure LexState where
  /-- A slash would start a regular expression. -/
  regexAllowed : Bool
  /-- The kind of the last token, if there is one. -/
  previous : Option TokenKind
  /-- For each open parenthesis, innermost first, whether it opened the head of a statement. -/
  heads : List Bool
  /-- For each open brace, innermost first, whether it opened a block and no object. -/
  blocks : List Bool
  deriving DecidableEq, Repr

/-- The state before the first token. -/
def LexState.initial : LexState := ⟨true, none, [], []⟩

/-- Whether a brace opens a block, by the token before it. -/
def opensBlock : Option TokenKind → Bool
  | none => true
  | some (.punctuator c) => c == ')' || c == ';' || c == '{' || c == '}'
  | some (.identifier word) => word == "else" || word == "do" || !expectsOperand word
  | some _ => false

/-- Whether a parenthesis opens the head of a statement, by the token before it. -/
def opensHead : Option TokenKind → Bool
  | some (.identifier word) => hasHead word
  | _ => false

/-- The state behind a token. A bracket that was never opened closes no head, but does close a
block. -/
def LexState.next (state : LexState) (kind : TokenKind) : LexState :=
  match kind with
  | .punctuator '(' =>
    { state with
      regexAllowed := true, previous := some kind,
      heads := opensHead state.previous :: state.heads }
  | .punctuator ')' =>
    { state with
      regexAllowed := state.heads.head?.getD false, previous := some kind,
      heads := state.heads.tail }
  | .punctuator '{' =>
    { state with
      regexAllowed := true, previous := some kind,
      blocks := opensBlock state.previous :: state.blocks }
  | .punctuator '}' =>
    { state with
      regexAllowed := state.blocks.head?.getD true, previous := some kind,
      blocks := state.blocks.tail }
  | .punctuator c => { state with regexAllowed := c != ']', previous := some kind }
  | .identifier word => { state with regexAllowed := expectsOperand word, previous := some kind }
  | _ => { state with regexAllowed := false, previous := some kind }

/-! ### One token -/

/-- Whether a character goes on with a number: any letter or digit of ASCII, a point or an
underscore. -/
def isNumberPart (c : Char) : Bool := c.isAlphanum || c == '.' || c == '_'

/-- The token that starts with `c`, and whether a line ends inside of it in the way that is
counted for the gap before it. -/
def scanToken (regexAllowed : Bool) (c : Char) (rest : Text) : Scan (TokenKind × Bool) :=
  if isIdentifierStart c then
    let tail := rest.takeWhile isIdentifierPart
    ⟨(.identifier (String.ofList (c :: tail)), false), c :: tail, rest.dropWhile isIdentifierPart⟩
  else if c.isDigit then
    ⟨(.number, false), c :: rest.takeWhile isNumberPart, rest.dropWhile isNumberPart⟩
  else if c = '\'' ∨ c = '"' then
    ((scanString c rest).map fun
      | some value => (.string (String.ofList value), false)
      | none => (.unterminated, false)).after [c]
  else if c = '\x60' then
    ((scanTemplate (.text []) rest).map fun t =>
      (if t.closed then .template else .unterminated, t.crossesLine)).after [c]
  else if c = '/' ∧ regexAllowed then
    ((scanRegex rest).map fun closed =>
      (if closed then .regex else .unterminated, false)).after [c]
  else ⟨(.punctuator c, false), [c], rest⟩

/-- The next lexeme of a text, and what is left. There is none when only trivia are left. -/
def lexeme? (state : LexState) (s : Text) : Option (Lexeme × Text) :=
  let trivia := scanTrivia s
  match trivia.rest with
  | [] => none
  | c :: rest =>
    let token := scanToken state.regexAllowed c rest
    some (⟨trivia.taken, token.taken, token.value.1, trivia.value || token.value.2⟩, token.rest)

theorem scanToken_taken_append_rest (regexAllowed : Bool) (c : Char) (rest : Text) :
    (scanToken regexAllowed c rest).taken ++ (scanToken regexAllowed c rest).rest = c :: rest := by
  unfold scanToken
  repeat' split
  all_goals simp [scanString_taken_append_rest, scanTemplate_taken_append_rest,
    scanRegex_taken_append_rest]

/-- A token takes at least the character it starts with. -/
theorem scanToken_taken_ne_nil (regexAllowed : Bool) (c : Char) (rest : Text) :
    (scanToken regexAllowed c rest).taken ≠ [] := by
  unfold scanToken
  repeat' split
  all_goals simp

/-- A lexeme and what is left make up the text. -/
theorem lexeme?_gap_append_text {state : LexState} {s rest : Text} {l : Lexeme}
    (h : lexeme? state s = some (l, rest)) : l.gap ++ l.text ++ rest = s := by
  rw [lexeme?] at h
  split at h
  · simp at h
  · next c tail htail =>
    simp only [Option.some.injEq, Prod.mk.injEq] at h
    obtain ⟨rfl, rfl⟩ := h
    rw [List.append_assoc, scanToken_taken_append_rest, ← htail, scanTrivia_taken_append_rest]

/-- A lexeme has characters of its own. -/
theorem lexeme?_text_ne_nil {state : LexState} {s rest : Text} {l : Lexeme}
    (h : lexeme? state s = some (l, rest)) : l.text ≠ [] := by
  rw [lexeme?] at h
  split at h
  · simp at h
  · simp only [Option.some.injEq, Prod.mk.injEq] at h
    obtain ⟨rfl, rfl⟩ := h
    exact scanToken_taken_ne_nil _ _ _

/-- What is left behind a lexeme is shorter than the text. -/
theorem lexeme?_length {state : LexState} {s rest : Text} {l : Lexeme}
    (h : lexeme? state s = some (l, rest)) : rest.length < s.length := by
  have hlength := congrArg List.length (lexeme?_gap_append_text h)
  have := List.length_pos_iff.mpr (lexeme?_text_ne_nil h)
  simp only [List.length_append] at hlength
  omega

/-! ### All tokens -/

/-- The lexemes of a text. -/
def lexemes (state : LexState) (s : Text) : List Lexeme :=
  match h : lexeme? state s with
  | none => []
  | some (l, rest) =>
    have := lexeme?_length h
    l :: lexemes (state.next l.kind) rest
termination_by s.length

/-- The trivia behind the last lexeme of a text. -/
def trailingTrivia (state : LexState) (s : Text) : Text :=
  match h : lexeme? state s with
  | none => s
  | some (l, rest) =>
    have := lexeme?_length h
    trailingTrivia (state.next l.kind) rest
termination_by s.length

/-- The lexemes and the trivia behind the last one make up the text. -/
theorem lexemes_flatten (state : LexState) (s : Text) :
    (lexemes state s).flatMap (fun l => l.gap ++ l.text) ++ trailingTrivia state s = s := by
  fun_induction lexemes state s with
  | case1 state s h =>
    rw [trailingTrivia]
    split
    · simp
    · next h' => simp [h] at h'
  | case2 state s l rest h _ ih =>
    rw [trailingTrivia]
    split
    · next h' => simp [h] at h'
    · next h' =>
      obtain ⟨rfl, rfl⟩ : l = _ ∧ rest = _ := by simpa [h] using h'
      rw [List.flatMap_cons, List.append_assoc, ih, lexeme?_gap_append_text h]

/-- The line that a text starts with if it opens with a number sign and an exclamation mark.
Such a line is read by no one. -/
def hashbang : Text → Text
  | '#' :: '!' :: rest => '#' :: '!' :: rest.takeWhile (· ≠ '\n')
  | _ => []

/-- A text without the line that `hashbang` finds. -/
def afterHashbang : Text → Text
  | '#' :: '!' :: rest => rest.dropWhile (· ≠ '\n')
  | s => s

/-- The two parts of a text around the end of such a line. -/
theorem hashbang_append_afterHashbang (s : Text) : hashbang s ++ afterHashbang s = s := by
  unfold hashbang afterHashbang
  split <;> simp_all

/-- The **tokens** of a source text. -/
def tokenize (source : Text) : List Token :=
  Token.place (Text.size (hashbang source)) (lexemes .initial (afterHashbang source))

end ScriptBundle
