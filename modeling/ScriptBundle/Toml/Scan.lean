import ScriptBundle.Text.Numeral
import ScriptBundle.Text.Taken

/-!
# Scanning TOML

The parts of a TOML document that stand on their own: white space with comments, the four kinds
of strings, and keys.

## Main definitions

* `skipTrivia`: passes white space, line ends and comments;
* `stringLiteral?`: reads a string of any kind;
* `key?`: reads a key.
-/

namespace ScriptBundle.Toml

/-! ### White space and comments -/

/-- Whether a character separates words within a line. -/
def isSpace (c : Char) : Bool := c == ' ' || c == '\t'

/-- Whether a character may stand in a comment, and in a string without an escape. -/
def isPlain (c : Char) : Bool := c == '\t' || (' ' ≤ c && c != '\x7f')

/-- Passes the spaces in front of a text. -/
def skipSpaces (s : Text) : Text := s.dropWhile isSpace

theorem length_skipSpaces_le (s : Text) : (skipSpaces s).length ≤ s.length :=
  (List.dropWhile_suffix isSpace).length_le

/-- Passes white space, line ends and comments. A comment may hold no control character. -/
def skipTrivia (inComment : Bool) : Text → Option Text
  | [] => some []
  | '\n' :: rest => skipTrivia false rest
  | '\r' :: '\n' :: rest => skipTrivia false rest
  | c :: rest =>
    if inComment then (if isPlain c then skipTrivia true rest else none)
    else if c = '#' then skipTrivia true rest
    else if isSpace c then skipTrivia false rest
    else some (c :: rest)

/-- Whether nothing but a comment is left of the line that a text starts in. -/
def endsLine (s : Text) : Bool :=
  match skipSpaces s with
  | [] => true
  | '#' :: _ => true
  | '\n' :: _ => true
  | '\r' :: '\n' :: _ => true
  | _ => false

/-! ### Escapes -/

/-- The character with a number. Surrogates are no characters. -/
def character? (n : Nat) : Option Char :=
  if n < 0xD800 ∨ (0xDFFF < n ∧ n < 0x110000) then some (Char.ofNat n) else none

/-- The character that an escape of one letter stands for. -/
def letterEscape? : Char → Option Char
  | 'b' => some '\x08'
  | 't' => some '\t'
  | 'n' => some '\n'
  | 'f' => some '\x0c'
  | 'r' => some '\r'
  | 'e' => some '\x1b'
  | '"' => some '"'
  | '\\' => some '\\'
  | _ => none

/-- The number of digits of an escape by number. -/
def escapeWidth? : Char → Option Nat
  | 'x' => some 2
  | 'u' => some 4
  | 'U' => some 8
  | _ => none

/-- Reads an escape behind its backslash. -/
def escape? : (s : Text) → Option (Taken s Char)
  | [] => none
  | c :: rest =>
    match letterEscape? c, escapeWidth? c with
    | some escaped, _ => some (.first escaped)
    | none, some width =>
      if (rest.take width).length < width then none
      else
        ((Text.number? 16 (rest.take width)).bind character?).map fun escaped =>
          .dropping width escaped
    | none, none => none

/-! ### Strings -/

/-- Reads a string with escapes behind its opening quote. It ends on its line. -/
def basicString? : (s : Text) → Option (Taken s Text)
  | [] => none
  | c :: rest =>
    if c = '"' then some (.first [])
    else if c = '\\' then
      match escape? rest with
      | none => none
      | some escaped =>
        (basicString? escaped.rest).map fun t => (escaped.andThen (· :: ·) t).behind
    else if isPlain c then (basicString? rest).map fun t => (t.map (c :: ·)).behind
    else none
termination_by s => s.length
decreasing_by
  · exact Nat.lt_succ_of_lt escaped.shorter
  · exact Nat.lt_succ_self _

/-- Reads a string without escapes behind its opening quote. It ends on its line. -/
def literalString? : (s : Text) → Option (Taken s Text)
  | [] => none
  | c :: rest =>
    if c = '\'' then some (.first [])
    else if isPlain c then (literalString? rest).map fun t => (t.map (c :: ·)).behind
    else none

/-- The white space and line ends in front of a text, passed. -/
def skipBlankLines : Text → Text
  | '\n' :: rest => skipBlankLines rest
  | '\r' :: '\n' :: rest => skipBlankLines rest
  | c :: rest => if isSpace c then skipBlankLines rest else c :: rest
  | [] => []

theorem length_skipBlankLines_le (s : Text) : (skipBlankLines s).length ≤ s.length := by
  fun_induction skipBlankLines s with
  | case1 rest ih => simp only [List.length_cons]; omega
  | case2 rest ih => simp only [List.length_cons]; omega
  | case3 c rest _ _ h ih => simp only [List.length_cons]; omega
  | case4 => simp
  | case5 => simp

/-- Whether a text starts with a line end. -/
def atLineEnd : Text → Bool
  | '\n' :: _ => true
  | '\r' :: '\n' :: _ => true
  | _ => false

/-- A text without the line end that it starts with. -/
def dropLineEnd : Text → Text
  | '\n' :: rest => rest
  | '\r' :: '\n' :: rest => rest
  | s => s

theorem length_dropLineEnd_le (s : Text) : (dropLineEnd s).length ≤ s.length := by
  fun_cases dropLineEnd s with
  | case1 rest => exact Nat.le_succ _
  | case2 rest => exact Nat.le_add_right _ 2
  | case3 => exact Nat.le_refl _

/-- Reads a string that may span lines, behind its opening quotes. Three quotes close it, and up
to two that stand in front of them belong to it. With escapes, a backslash at the end of a line
takes the line end and all white space behind it out of the string. -/
def longString? (quote : Char) (escapes : Bool) : (s : Text) → Option (Taken s Text)
  | [] => none
  | c :: rest =>
    if c = quote then
      let run := rest.takeWhile (· = quote)
      if run.length < 2 then
        (longString? quote escapes rest).map fun t => (t.map (c :: ·)).behind
      else if run.length < 5 then some (.dropping run.length (run.drop 2))
      else none
    else if c = '\\' && escapes then
      if atLineEnd (skipSpaces rest) then
        (longString? quote escapes (skipBlankLines rest)).map fun t =>
          (t.within (length_skipBlankLines_le rest)).behind
      else
        match escape? rest with
        | none => none
        | some escaped =>
          (longString? quote escapes escaped.rest).map fun t =>
            (escaped.andThen (· :: ·) t).behind
    else if isPlain c || atLineEnd (c :: rest) then
      (longString? quote escapes rest).map fun t => (t.map (c :: ·)).behind
    else none
termination_by s => s.length
decreasing_by
  · exact Nat.lt_succ_self _
  · exact Nat.lt_succ_of_le (length_skipBlankLines_le rest)
  · exact Nat.lt_succ_of_lt escaped.shorter
  · exact Nat.lt_succ_self _

/-- Reads a string of any kind. A line end right behind three opening quotes does not count. -/
def stringLiteral? : (s : Text) → Option (Taken s Text)
  | '"' :: '"' :: '"' :: rest =>
    (longString? '"' true (dropLineEnd rest)).map fun t =>
      (t.within (length_dropLineEnd_le rest)).behind.behind.behind
  | '\'' :: '\'' :: '\'' :: rest =>
    (longString? '\'' false (dropLineEnd rest)).map fun t =>
      (t.within (length_dropLineEnd_le rest)).behind.behind.behind
  | '"' :: rest => (basicString? rest).map .behind
  | '\'' :: rest => (literalString? rest).map .behind
  | _ => none

/-! ### Keys -/

/-- Whether a character may stand in a key without quotes. -/
def isBareKey (c : Char) : Bool := c.isAlphanum || c == '_' || c == '-'

/-- Reads a key, which is a word or a string on one line. -/
def key? : (s : Text) → Option (Taken s Text)
  | [] => none
  | c :: rest =>
    if c = '"' then (basicString? rest).map .behind
    else if c = '\'' then (literalString? rest).map .behind
    else if isBareKey c then
      let others := rest.takeWhile isBareKey
      some (.dropping others.length (c :: others))
    else none

end ScriptBundle.Toml
