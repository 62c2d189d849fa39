import ScriptBundle.Token.Cursor

/-!
# Declarators

The names that a variable declaration binds. Destructuring patterns are read to any depth, and
initialisers, default values and computed keys are passed over.

## Main definitions

* `skipBalanced`: to behind the bracket that closes an open one;
* `skipExpression`: to the end of an initialiser or a default value;
* `bindingPattern`: the names in one pattern;
* `declaratorNames`: the names of all declarators.
-/

namespace ScriptBundle

/-! ### Passing over expressions -/

/-- Whether an expression may end with this token where a line ends. -/
def endsExpression : TokenKind → Bool
  | .identifier word =>
    !(["in", "instanceof", "of", "typeof", "new", "delete", "void", "await", "yield"].contains word)
  | .punctuator c => c == ')' || c == ']' || c == '}'
  | .string _ | .template | .number | .regex => true
  | .unterminated => false

/-- Whether a statement may start with this token behind the end of a line. -/
def startsStatement : TokenKind → Bool
  | .identifier word => !(["in", "instanceof", "of"].contains word)
  | .number => true
  | .string _ => true
  | _ => false

/-- The number of brackets open behind a token, if `depth` of them are open before it. -/
def depthAfter (depth : Nat) (kind : TokenKind) : Nat :=
  if kind.isOpening then depth + 1 else if kind.isClosing then depth - 1 else depth

/-- Passes tokens until `depth` brackets have been closed again. -/
def skipBalanced (depth : Nat) (previous : Option Token) : List Token → Cursor
  | [] => ⟨previous, []⟩
  | t :: rest =>
    let inside := depthAfter depth t.kind
    if inside = 0 then ⟨some t, rest⟩ else skipBalanced inside (some t) rest

/-- Whether an expression ends in front of a token outside of all brackets: at a comma, a
semicolon or a closing bracket and, if it is part of a statement, where a line break ends the
statement. -/
def endsBefore (inStatement : Bool) (previous : Option Token) (t : Token) : Bool :=
  t.kind.isClosing || t.isPunctuator ',' || t.isPunctuator ';' ||
    (inStatement && t.newlineBefore && startsStatement t.kind &&
      previous.any (endsExpression ·.kind))

/-- Passes an expression of which `depth` brackets are open. -/
def skipExpression (inStatement : Bool) (depth : Nat) (previous : Option Token) :
    List Token → Cursor
  | [] => ⟨previous, []⟩
  | t :: rest =>
    if depth = 0 ∧ endsBefore inStatement previous t then ⟨previous, t :: rest⟩
    else skipExpression inStatement (depthAfter depth t.kind) (some t) rest

theorem skipBalanced_length (depth : Nat) (previous : Option Token) (ts : List Token) :
    (skipBalanced depth previous ts).rest.length ≤ ts.length := by
  fun_induction skipBalanced depth previous ts with
  | case1 => simp
  | case2 => simp
  | case3 depth previous t rest inside _ ih => simpa using Nat.le_succ_of_le ih

theorem skipExpression_length (inStatement : Bool) (depth : Nat) (previous : Option Token)
    (ts : List Token) : (skipExpression inStatement depth previous ts).rest.length ≤ ts.length := by
  fun_induction skipExpression inStatement depth previous ts with
  | case1 => simp
  | case2 => simp
  | case3 depth previous t rest _ ih => simpa using Nat.le_succ_of_le ih

/-- Passes an equals sign and the expression behind it, if the next token is one. -/
def skipInitialiser (inStatement : Bool) (c : Cursor) : Cursor :=
  match c.eatPunctuator '=' with
  | some a => skipExpression inStatement 0 a.cursor.previous a.cursor.rest
  | none => c

theorem skipInitialiser_length (inStatement : Bool) (c : Cursor) :
    (skipInitialiser inStatement c).rest.length ≤ c.rest.length := by
  unfold skipInitialiser
  split
  · next a _ =>
    exact Nat.le_trans (skipExpression_length _ _ _ _) (Nat.le_of_lt a.shorter)
  · exact Nat.le_refl _

/-! ### Patterns -/

/-- Passes the three points of a rest element. -/
def eatSpread (c : Cursor) : Option (Advance c Unit) := do
  let first ← c.eatPunctuator '.'
  let second ← first.cursor.eatPunctuator '.'
  let third ← second.cursor.eatPunctuator '.'
  return (first.trans (second.trans third)).map fun _ => ()

/-- The key of a property in an object pattern, with the name that it binds if no pattern
follows. Strings, numbers and computed keys bind none. -/
def patternKey (c : Cursor) : Except SyntaxError (Advance c (Option String)) :=
  match c.bump with
  | none => c.fail .unknownPatternKey
  | some a =>
    match a.value.kind with
    | .identifier name => .ok (a.map fun _ => some name)
    | .string _ => .ok (a.map fun _ => none)
    | .number => .ok (a.map fun _ => none)
    | .punctuator '[' =>
      .ok ((a.map fun _ => none).moveTo (skipBalanced 1 a.cursor.previous a.cursor.rest)
        (skipBalanced_length _ _ _))
    | _ => c.fail .unknownPatternKey

/-- Passes the bracket that closes a pattern. -/
def closePattern (c : Cursor) (closing : Char) : Except SyntaxError (Advance c (List String)) :=
  match c.eatPunctuator closing with
  | some a => .ok (a.map fun _ => [])
  | none => c.fail (.missingPatternSeparator closing)

mutual

/-- The names in a binding pattern, from left to right. -/
def bindingPattern (c : Cursor) : Except SyntaxError (Advance c (List String)) :=
  match c.bump with
  | none => c.fail .missingPattern
  | some a =>
    have := a.shorter
    match a.value.kind with
    | .identifier name => .ok (a.map fun _ => [name])
    | .punctuator '{' => (objectPattern a.cursor).map a.trans
    | .punctuator '[' => (arrayPattern a.cursor).map a.trans
    | _ => c.fail .missingPattern
termination_by 3 * c.rest.length

/-- The names in the rest of an object pattern behind its opening brace or behind a comma. -/
def objectPattern (c : Cursor) : Except SyntaxError (Advance c (List String)) :=
  match c.eatPunctuator '}' with
  | some a => .ok (a.map fun _ => [])
  | none =>
    match objectEntry c with
    | .error e => .error e
    | .ok entry =>
      let front := entry.moveTo (skipInitialiser false entry.cursor) (skipInitialiser_length _ _)
      have := front.shorter
      match front.cursor.eatPunctuator ',' with
      | some comma =>
        have := comma.shorter
        (objectPattern comma.cursor).map fun others =>
          (front.trans (comma.trans others)).map (front.value ++ ·)
      | none => (closePattern front.cursor '}').map fun a => (front.trans a).map (front.value ++ ·)
termination_by 3 * c.rest.length + 1

/-- The names in one entry of an object pattern, which is a rest element or a property. -/
def objectEntry (c : Cursor) : Except SyntaxError (Advance c (List String)) :=
  match eatSpread c with
  | some a =>
    have := a.shorter
    (bindingPattern a.cursor).map a.trans
  | none =>
    match patternKey c with
    | .error e => .error e
    | .ok key =>
      have := key.shorter
      match key.cursor.eatPunctuator ':' with
      | some a =>
        have := a.shorter
        (bindingPattern a.cursor).map fun names => key.trans (a.trans names)
      | none =>
        match key.value with
        | some name => .ok (key.map fun _ => [name])
        | none => key.cursor.fail .missingPatternColon
termination_by 3 * c.rest.length

/-- The names in the rest of an array pattern behind its opening bracket or behind a comma. -/
def arrayPattern (c : Cursor) : Except SyntaxError (Advance c (List String)) :=
  match c.eatPunctuator ']' with
  | some a => .ok (a.map fun _ => [])
  | none =>
    match c.eatPunctuator ',' with
    | some hole =>
      have := hole.shorter
      (arrayPattern hole.cursor).map hole.trans
    | none =>
      match arrayEntry c with
      | .error e => .error e
      | .ok entry =>
        let front := entry.moveTo (skipInitialiser false entry.cursor) (skipInitialiser_length _ _)
        have := front.shorter
        match front.cursor.eatPunctuator ',' with
        | some comma =>
          have := comma.shorter
          (arrayPattern comma.cursor).map fun others =>
            (front.trans (comma.trans others)).map (front.value ++ ·)
        | none =>
          (closePattern front.cursor ']').map fun a => (front.trans a).map (front.value ++ ·)
termination_by 3 * c.rest.length + 2

/-- The names in one element of an array pattern, which may be a rest element. -/
def arrayEntry (c : Cursor) : Except SyntaxError (Advance c (List String)) :=
  match eatSpread c with
  | some a =>
    have := a.shorter
    (bindingPattern a.cursor).map a.trans
  | none => bindingPattern c
termination_by 3 * c.rest.length + 1

end

/-! ### Declarators -/

/-- The names of the declarators behind `const`, `let` or `var`, from left to right. -/
def declaratorNames (c : Cursor) : Except SyntaxError (Advance c (List String)) :=
  match bindingPattern c with
  | .error e => .error e
  | .ok pattern =>
    let front := pattern.moveTo (skipInitialiser true pattern.cursor) (skipInitialiser_length _ _)
    have := front.shorter
    match front.cursor.eatPunctuator ',' with
    | none => .ok front
    | some comma =>
      have := comma.shorter
      (declaratorNames comma.cursor).map fun others =>
        (front.trans (comma.trans others)).map (front.value ++ ·)
termination_by c.rest.length

end ScriptBundle
