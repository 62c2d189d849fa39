import ScriptBundle.Text.Blank
import ScriptBundle.Token.Basic

/-!
# Scanners

Each scanner reads one thing from the front of a text, such as a comment or the rest of a
string, and says what it has taken and what is left. A scanner never fails: a literal that is
not closed is a value like any other.

## Main definitions

* `Scan`: the value that a scanner found, the text it took and the rest;
* `scanTrivia`: white space and comments;
* `scanString`, `scanTemplate`, `scanRegex`: literals, after their first character.

## Main statements

* `scanTrivia_taken_append_rest` and its companions: what a scanner took, followed by what it
  left, is the text it was given.
-/

namespace ScriptBundle

/-- A **scan** is what a scanner found at the front of a text. -/
structure Scan (α : Type) where
  value : α
  taken : Text
  rest : Text
  deriving Repr

namespace Scan

/-- Puts characters that were read before in front of a scan. -/
def after (front : Text) (s : Scan α) : Scan α := { s with taken := front ++ s.taken }

/-- Changes the value of a scan. -/
def map (f : α → β) (s : Scan α) : Scan β := ⟨f s.value, s.taken, s.rest⟩

@[simp] theorem after_value (front : Text) (s : Scan α) : (s.after front).value = s.value := rfl

@[simp] theorem after_taken (front : Text) (s : Scan α) :
    (s.after front).taken = front ++ s.taken := rfl

@[simp] theorem after_rest (front : Text) (s : Scan α) : (s.after front).rest = s.rest := rfl

@[simp] theorem map_value (f : α → β) (s : Scan α) : (s.map f).value = f s.value := rfl

@[simp] theorem map_taken (f : α → β) (s : Scan α) : (s.map f).taken = s.taken := rfl

@[simp] theorem map_rest (f : α → β) (s : Scan α) : (s.map f).rest = s.rest := rfl

end Scan

/-! ### Comments -/

/-- The rest of a line, up to its line feed and without it. -/
def scanLine (s : Text) : Scan Unit :=
  ⟨(), s.takeWhile (· ≠ '\n'), s.dropWhile (· ≠ '\n')⟩

/-- What a block comment says about the text around it. -/
structure BlockComment where
  /-- A line feed stands inside. -/
  crossesLine : Bool
  /-- The comment ends before the text does. -/
  closed : Bool
  deriving DecidableEq, Repr

/-- The rest of a block comment after its first two characters. A comment that is not closed
takes the whole text. -/
def scanBlockComment : Text → Scan BlockComment
  | [] => ⟨⟨false, false⟩, [], []⟩
  | '*' :: '/' :: rest => ⟨⟨false, true⟩, ['*', '/'], rest⟩
  | c :: rest =>
    let s := scanBlockComment rest
    (s.map fun b => { b with crossesLine := c == '\n' || b.crossesLine }).after [c]

theorem scanLine_taken_append_rest (s : Text) : (scanLine s).taken ++ (scanLine s).rest = s :=
  List.takeWhile_append_dropWhile

theorem scanBlockComment_taken_append_rest (s : Text) :
    (scanBlockComment s).taken ++ (scanBlockComment s).rest = s := by
  fun_induction scanBlockComment s with
  | case1 => rfl
  | case2 => rfl
  | case3 c rest _ s ih => simpa using ih

/-! ### Strings -/

/-- The characters that a backslash and the character after it stand for. A line feed stands
for nothing, and a character without a meaning of its own for itself. -/
def escapedText (c : Char) : Text :=
  if c = 'n' then ['\n']
  else if c = 't' then ['\t']
  else if c = 'r' then ['\r']
  else if c = '0' then ['\x00']
  else if c = '\n' then []
  else [c]

/-- The rest of a quoted literal after its opening quote, with the value it stands for. A line
feed or the end of the text leaves it without one. -/
def scanString (quote : Char) : Text → Scan (Option Text)
  | [] => ⟨none, [], []⟩
  | '\\' :: [] => ⟨none, ['\\'], []⟩
  | '\\' :: c :: rest =>
    ((scanString quote rest).map fun value => value.map (escapedText c ++ ·)).after ['\\', c]
  | c :: rest =>
    if c = '\n' then ⟨none, ['\n'], rest⟩
    else if c = quote then ⟨some [], [c], rest⟩
    else ((scanString quote rest).map fun value => value.map (c :: ·)).after [c]

theorem scanString_taken_append_rest (quote : Char) (s : Text) :
    (scanString quote s).taken ++ (scanString quote s).rest = s := by
  fun_induction scanString quote s with
  | case1 => rfl
  | case2 => rfl
  | case3 c rest ih => simpa using ih
  | case4 => simp
  | case5 => simp
  | case6 c rest _ _ _ _ ih => simpa using ih

/-! ### Regular expressions -/

/-- The body of a regular expression after its opening slash, with whether it is closed. A
slash closes it outside of a character class, a line feed ends it, and a backslash takes the
character after it along, even a line feed. -/
def scanRegexBody (inClass : Bool) : Text → Scan Bool
  | [] => ⟨false, [], []⟩
  | '\\' :: [] => ⟨false, ['\\'], []⟩
  | '\\' :: c :: rest => (scanRegexBody inClass rest).after ['\\', c]
  | c :: rest =>
    if c = '\n' then ⟨false, ['\n'], rest⟩
    else if c = '/' && !inClass then ⟨true, ['/'], rest⟩
    else if c = '[' then (scanRegexBody true rest).after [c]
    else if c = ']' then (scanRegexBody false rest).after [c]
    else (scanRegexBody inClass rest).after [c]

/-- The rest of a regular expression after its opening slash: its body and, if that is closed,
its flags. -/
def scanRegex (s : Text) : Scan Bool :=
  let body := scanRegexBody false s
  if body.value then
    ⟨true, body.taken ++ body.rest.takeWhile isIdentifierPart, body.rest.dropWhile isIdentifierPart⟩
  else body

theorem scanRegexBody_taken_append_rest (inClass : Bool) (s : Text) :
    (scanRegexBody inClass s).taken ++ (scanRegexBody inClass s).rest = s := by
  fun_induction scanRegexBody inClass s <;> simp_all

theorem scanRegex_taken_append_rest (s : Text) :
    (scanRegex s).taken ++ (scanRegex s).rest = s := by
  rw [scanRegex]
  split
  · simpa using scanRegexBody_taken_append_rest false s
  · exact scanRegexBody_taken_append_rest false s

/-! ### Templates -/

/-- What a template literal says about the text around it. -/
structure Template where
  /-- Its closing backquote was found. -/
  closed : Bool
  /-- A block comment inside one of its substitutions holds a line feed. -/
  crossesLine : Bool
  deriving DecidableEq, Repr

/-- Where the scanner of a template stands. Each number is the count of braces open in a
substitution, its own brace included; `outer` lists the substitutions around the innermost
template, innermost first. -/
inductive TemplateState where
  /-- In the characters of a template. -/
  | text (outer : List Nat)
  /-- In the code of a substitution. -/
  | code (depth : Nat) (outer : List Nat)
  deriving DecidableEq, Repr

theorem scanLine_length (s : Text) : (scanLine s).rest.length ≤ s.length := by
  have := congrArg List.length (scanLine_taken_append_rest s)
  simp only [List.length_append] at this
  omega

theorem scanBlockComment_length (s : Text) : (scanBlockComment s).rest.length ≤ s.length := by
  have := congrArg List.length (scanBlockComment_taken_append_rest s)
  simp only [List.length_append] at this
  omega

theorem scanString_length (quote : Char) (s : Text) :
    (scanString quote s).rest.length ≤ s.length := by
  have := congrArg List.length (scanString_taken_append_rest quote s)
  simp only [List.length_append] at this
  omega

/-- The rest of a template literal after its opening backquote. Substitutions may hold strings,
comments and further templates, but a slash in them never starts a regular expression. -/
def scanTemplate : TemplateState → Text → Scan Template
  | _, [] => ⟨⟨false, false⟩, [], []⟩
  | .text [], '\x60' :: rest => ⟨⟨true, false⟩, ['\x60'], rest⟩
  | .text (depth :: outer), '\x60' :: rest => (scanTemplate (.code depth outer) rest).after ['\x60']
  | .text _, '\\' :: [] => ⟨⟨false, false⟩, ['\\'], []⟩
  | .text outer, '\\' :: c :: rest => (scanTemplate (.text outer) rest).after ['\\', c]
  | .text outer, '$' :: '{' :: rest => (scanTemplate (.code 1 outer) rest).after ['$', '{']
  | .text outer, c :: rest => (scanTemplate (.text outer) rest).after [c]
  | .code depth outer, '\x60' :: rest => (scanTemplate (.text (depth :: outer)) rest).after ['\x60']
  | .code depth outer, '/' :: '/' :: rest =>
    let line := scanLine rest
    have := scanLine_length rest
    (scanTemplate (.code depth outer) line.rest).after ('/' :: '/' :: line.taken)
  | .code depth outer, '/' :: '*' :: rest =>
    let comment := scanBlockComment rest
    have := scanBlockComment_length rest
    ((scanTemplate (.code depth outer) comment.rest).map fun t =>
      { t with crossesLine := comment.value.crossesLine || t.crossesLine }).after
        ('/' :: '*' :: comment.taken)
  | .code depth outer, c :: rest =>
    if c = '\'' ∨ c = '"' then
      let literal := scanString c rest
      have := scanString_length c rest
      (scanTemplate (.code depth outer) literal.rest).after (c :: literal.taken)
    else if c = '{' then (scanTemplate (.code (depth + 1) outer) rest).after [c]
    else if c = '}' then
      if depth ≤ 1 then (scanTemplate (.text outer) rest).after [c]
      else (scanTemplate (.code (depth - 1) outer) rest).after [c]
    else (scanTemplate (.code depth outer) rest).after [c]
termination_by _ s => s.length

theorem scanTemplate_taken_append_rest (state : TemplateState) (s : Text) :
    (scanTemplate state s).taken ++ (scanTemplate state s).rest = s := by
  fun_induction scanTemplate state s <;> simp_all
  case case9 rest line _ _ => exact scanLine_taken_append_rest rest
  case case10 rest comment _ _ => exact scanBlockComment_taken_append_rest rest
  case case11 c rest literal _ _ _ _ _ _ => exact scanString_taken_append_rest c rest

/-! ### Trivia -/

/-- Whether a character ends a line where it stands between tokens. -/
def isLineEnd (c : Char) : Bool := c == '\n' || c == '\u2028' || c == '\u2029'

/-- White space, byte order marks and comments, with whether a line ends among them: at a line
feed, in a block comment too, or at a line or paragraph separator outside of comments. -/
def scanTrivia : Text → Scan Bool
  | [] => ⟨false, [], []⟩
  | '/' :: '/' :: rest =>
    let line := scanLine rest
    have := scanLine_length rest
    (scanTrivia line.rest).after ('/' :: '/' :: line.taken)
  | '/' :: '*' :: rest =>
    let comment := scanBlockComment rest
    have := scanBlockComment_length rest
    ((scanTrivia comment.rest).map (comment.value.crossesLine || ·)).after
      ('/' :: '*' :: comment.taken)
  | c :: rest =>
    if isLineEnd c then ((scanTrivia rest).map fun _ => true).after [c]
    else if isBlank c || c == '\ufeff' then (scanTrivia rest).after [c]
    else ⟨false, [], c :: rest⟩
termination_by s => s.length

theorem scanTrivia_taken_append_rest (s : Text) :
    (scanTrivia s).taken ++ (scanTrivia s).rest = s := by
  fun_induction scanTrivia s <;> simp_all
  case case2 rest line _ _ => exact scanLine_taken_append_rest rest
  case case3 rest comment _ _ => exact scanBlockComment_taken_append_rest rest

theorem scanTrivia_length (s : Text) : (scanTrivia s).rest.length ≤ s.length := by
  have := congrArg List.length (scanTrivia_taken_append_rest s)
  simp only [List.length_append] at this
  omega

end ScriptBundle
