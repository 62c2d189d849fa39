import ScriptBundle.Proofs.Token.Bounded
import ScriptBundle.Proofs.Token.Relexing

/-!
# Slashes

Whether a slash divides or starts a regular expression is answered by the token before it and,
behind a closing bracket, by what stood in front of the bracket that it closes. The lexer finds that
out with two stacks, one for each shape of bracket that matters. Neither takes notice of the other,
of square brackets, or of what stands inside of literals.

## Main definitions

* `Lexeme.IsRegexLike`: whether a token is read as a regular expression, closed or not;
* `IsNested`: whether the brackets of one shape among tokens close one another;
* `IsMatchedBehind`: where the bracket stands that a closing one behind tokens matches;
* `BracketStack`: a stack of the lexer.

## Main statements

* `kind_of_slash`: what decides about a token that starts with a slash;
* `BracketStack.entries_of_matched`, `BracketStack.exists_matched`: on top of the stack there is the
  entry of the bracket that is matched;
* `slash_behind_bracket`: what a slash behind a closing bracket is.
-/

namespace ScriptBundle

/-! ### Slashes -/

/-- Whether a token that starts with a slash is **read as a regular expression**, closed or not. -/
def Lexeme.IsRegexLike (l : Lexeme) : Prop := l.kind = .regex ∨ l.kind = .unterminated

/-- A slash starts a regular expression where the state allows it, and stands for itself where it
does not. -/
theorem lexeme?_slash {state : LexState} {s rest : Text} {l : Lexeme}
    (h : lexeme? state s = some (l, rest)) (hslash : l.text.head? = some '/') :
    (l.IsRegexLike ↔ state.regexAllowed = true) ∧ (¬l.IsRegexLike → l.kind = .punctuator '/') := by
  obtain ⟨c, tail, htext, -, -, crosses, htoken⟩ := exists_cons_of_lexeme? h
  obtain rfl : c = '/' := by simpa [htext] using hslash
  cases hallowed : state.regexAllowed with
  | true =>
    have hkind := congrArg (·.value.1) htoken
    have hregex : l.IsRegexLike := by
      rw [hallowed, scanToken_slash] at hkind
      cases hclosed : (scanRegex (tail ++ rest)).value with
      | true => exact .inl (by simpa [hclosed] using hkind.symm)
      | false => exact .inr (by simpa [hclosed] using hkind.symm)
    exact ⟨iff_of_true hregex rfl, fun hnot => absurd hregex hnot⟩
  | false =>
    rw [hallowed, scanToken_other (by decide) (by decide) (by decide) (by decide) fun _ => rfl]
      at htoken
    have hkind : l.kind = .punctuator '/' := (congrArg (·.value.1) htoken).symm
    refine ⟨iff_of_false ?_ Bool.false_ne_true, fun _ => hkind⟩
    rw [Lexeme.IsRegexLike, hkind]
    simp

/-- So does one among the tokens of a source, behind the state that the tokens before it lead to. -/
theorem kind_of_slash {source : Text} {front behind : List Token} {slash : Token}
    (htokens : tokenize source = front ++ slash :: behind) (hslash : slash.text.head? = some '/') :
    (slash.IsRegexLike ↔ (LexState.initial.behind (front.map (·.kind))).regexAllowed = true) ∧
      (¬slash.IsRegexLike → slash.kind = .punctuator '/') := by
  have hlexemes : lexemes .initial (afterHashbang source) =
      front.map Token.toLexeme ++ slash.toLexeme :: behind.map Token.toLexeme := by
    rw [← tokenize_map_toLexeme, htokens, List.map_append, List.map_cons]
  obtain ⟨rest, hrest, -⟩ := exists_of_lexemes_append hlexemes
  obtain ⟨further, hfirst, -⟩ := lexeme?_of_lexemes_cons hrest
  rw [List.map_map] at hfirst
  exact lexeme?_slash hfirst hslash

/-- The last token is the one before the next. -/
theorem LexState.behind_previous (state : LexState) (kinds : List TokenKind) :
    (state.behind kinds).previous = kinds.getLast?.or state.previous := by
  rcases List.eq_nil_or_concat kinds with rfl | ⟨front, kind, rfl⟩
  · rfl
  · simp [List.concat_eq_append]

/-! ### Matching brackets -/

/-- Whether the brackets of one shape among tokens are **nested**: each one that is opened is
closed, and the other way round. No other tokens count. -/
inductive IsNested (opening closing : Char) : List TokenKind → Prop
  | nil : IsNested opening closing []
  | other {kind : TokenKind} {kinds : List TokenKind} (hopening : kind ≠ .punctuator opening)
      (hclosing : kind ≠ .punctuator closing) (h : IsNested opening closing kinds) :
      IsNested opening closing (kind :: kinds)
  | bracketed {inside kinds : List TokenKind} (hinside : IsNested opening closing inside)
      (h : IsNested opening closing kinds) :
      IsNested opening closing (.punctuator opening :: (inside ++ .punctuator closing :: kinds))

/-- Nested brackets behind others. -/
theorem IsNested.append {opening closing : Char} {kinds others : List TokenKind}
    (h : IsNested opening closing kinds) (hothers : IsNested opening closing others) :
    IsNested opening closing (kinds ++ others) := by
  induction h with
  | nil => exact hothers
  | other hopening hclosing _ ih => exact .other hopening hclosing ih
  | bracketed hinside _ _ ih =>
    rw [List.cons_append, List.append_assoc, List.cons_append]
    exact .bracketed hinside ih

/-- Whether a closing bracket behind tokens **matches** an opening one that stands behind the first
few of them. -/
def IsMatchedBehind (opening closing : Char) (kinds before : List TokenKind) : Prop :=
  ∃ inside, kinds = before ++ .punctuator opening :: inside ∧ IsNested opening closing inside

/-! ### Stacks of the lexer -/

/-- A **stack** of the lexer: what it keeps of each open bracket of one shape. -/
structure BracketStack where
  opening : Char
  closing : Char
  /-- What is kept of an opening bracket, by the token before it. -/
  entry : Option TokenKind → Bool
  entries : LexState → List Bool
  entries_initial : entries .initial = []
  entries_next (state : LexState) (kind : TokenKind) :
    entries (state.next kind) =
      if kind = .punctuator opening then entry state.previous :: entries state
      else if kind = .punctuator closing then (entries state).tail
      else entries state
  closing_ne_opening : closing ≠ opening

namespace BracketStack

/-- The stack of parentheses. -/
def parentheses : BracketStack where
  opening := '('
  closing := ')'
  entry := opensHead
  entries := LexState.heads
  entries_initial := rfl
  entries_next := LexState.next_heads
  closing_ne_opening := by decide

/-- The stack of braces. -/
def braces : BracketStack where
  opening := '{'
  closing := '}'
  entry := opensBlock
  entries := LexState.blocks
  entries_initial := rfl
  entries_next := LexState.next_blocks
  closing_ne_opening := by decide

variable (stack : BracketStack) {kinds before : List TokenKind}

theorem entries_opening (state : LexState) :
    stack.entries (state.next (.punctuator stack.opening)) =
      stack.entry state.previous :: stack.entries state := by
  rw [stack.entries_next, if_pos rfl]

theorem entries_closing (state : LexState) :
    stack.entries (state.next (.punctuator stack.closing)) = (stack.entries state).tail := by
  rw [stack.entries_next, if_neg (by simpa using stack.closing_ne_opening), if_pos rfl]

/-- Nested brackets leave the stack as it is. -/
theorem entries_nested (h : IsNested stack.opening stack.closing kinds) (state : LexState) :
    stack.entries (state.behind kinds) = stack.entries state := by
  induction h generalizing state with
  | nil => rfl
  | other hopening hclosing _ ih =>
    rw [LexState.behind_cons, ih, stack.entries_next, if_neg hopening, if_neg hclosing]
  | bracketed _ _ ihInside ih =>
    rw [LexState.behind_cons, LexState.behind_append, LexState.behind_cons, ih, entries_closing,
      ihInside, entries_opening, List.tail_cons]

/-- On top of the stack there is the entry of the bracket that a closing one would match. -/
theorem entries_of_matched (h : IsMatchedBehind stack.opening stack.closing kinds before)
    (state : LexState) :
    stack.entries (state.behind kinds) =
      stack.entry (state.behind before).previous :: stack.entries (state.behind before) := by
  obtain ⟨inside, rfl, hinside⟩ := h
  rw [LexState.behind_append, LexState.behind_cons, stack.entries_nested hinside, entries_opening]

/-- If there is an entry on the stack, then a closing bracket would match. -/
theorem exists_matched {e : Bool} {others : List Bool}
    (h : stack.entries (LexState.initial.behind kinds) = e :: others) :
    ∃ before, IsMatchedBehind stack.opening stack.closing kinds before := by
  induction hlength : kinds.length using Nat.strongRecOn generalizing kinds e others with
  | _ n ih =>
    rcases List.eq_nil_or_concat kinds with rfl | ⟨front, kind, rfl⟩
    · rw [LexState.behind_nil, stack.entries_initial] at h
      cases h
    have hfront : front.length < n := by simp [← hlength]
    rw [List.concat_eq_append, LexState.behind_append, LexState.behind_cons, LexState.behind_nil,
      stack.entries_next] at h
    split at h
    · next hopening => exact ⟨front, [], by simp [hopening], .nil⟩
    · next hopening =>
      split at h
      · next hclosing =>
        -- The entry below the one that is taken off is that of a bracket further in front.
        rcases hentries : stack.entries (LexState.initial.behind front) with - | ⟨top, below⟩
        · rw [hentries] at h
          cases h
        obtain ⟨between, last, rfl, hlast⟩ := ih _ hfront hentries rfl
        rw [stack.entries_of_matched ⟨last, rfl, hlast⟩, List.tail_cons] at h
        obtain ⟨before, inside, rfl, hinside⟩ := ih _ (by simp at hfront; omega) h rfl
        refine ⟨before, inside ++ .punctuator stack.opening ::
          (last ++ [.punctuator stack.closing]),
          by simp [hclosing], hinside.append (.bracketed hlast .nil)⟩
      · next hclosing =>
        obtain ⟨before, inside, rfl, hinside⟩ := ih _ hfront h rfl
        refine ⟨before, inside ++ [kind], by simp, hinside.append (.other hopening hclosing .nil)⟩

/-- What is on top of the stack is the entry of the bracket that a closing one would match, and
there is nothing if it would match none. -/
theorem head?_entries_iff (kinds : List TokenKind) (e : Bool) :
    (stack.entries (LexState.initial.behind kinds)).head? = some e ↔
      ∃ before, IsMatchedBehind stack.opening stack.closing kinds before ∧
        stack.entry before.getLast? = e := by
  have hprevious (before : List TokenKind) :
      (LexState.initial.behind before).previous = before.getLast? := by
    rw [LexState.behind_previous]
    exact Option.or_none
  constructor
  · intro hhead
    obtain ⟨others, hentries⟩ := List.head?_eq_some_iff.mp hhead
    obtain ⟨before, hmatched⟩ := stack.exists_matched hentries
    rw [stack.entries_of_matched hmatched, List.head?_cons, hprevious, Option.some.injEq] at hhead
    exact ⟨before, hmatched, hhead⟩
  · rintro ⟨before, hmatched, rfl⟩
    rw [stack.entries_of_matched hmatched, List.head?_cons, hprevious]

theorem head?_entries_eq_none_iff (kinds : List TokenKind) :
    (stack.entries (LexState.initial.behind kinds)).head? = none ↔
      ¬∃ before, IsMatchedBehind stack.opening stack.closing kinds before := by
  rw [Option.eq_none_iff_forall_ne_some]
  simp only [ne_eq, head?_entries_iff]
  refine ⟨?_, ?_⟩
  · rintro hnone ⟨before, hmatched⟩
    exact hnone _ ⟨before, hmatched, rfl⟩
  · rintro hnone e ⟨before, hmatched, -⟩
    exact hnone ⟨before, hmatched⟩

end BracketStack

/-! ### Slashes behind names -/

/-- Behind a name a slash starts a regular expression if the name is spelled like a word that an
operand follows. -/
theorem slash_behind_name {source : Text} {front behind : List Token} {word slash : Token}
    {name : String} (htokens : tokenize source = front ++ word :: slash :: behind)
    (hword : word.kind = .identifier name) (hslash : slash.text.head? = some '/') :
    (slash.kind = .punctuator '/' ↔ expectsOperand name = false) ∧
      (slash.IsRegexLike ↔ expectsOperand name = true) := by
  rw [← List.singleton_append, ← List.append_assoc] at htokens
  obtain ⟨hregex, hother⟩ := kind_of_slash htokens hslash
  rw [List.map_append, LexState.behind_append, List.map_singleton, LexState.behind_cons,
    LexState.behind_nil, LexState.next_regexAllowed, hword, if_neg (by simp), if_neg (by simp)]
    at hregex
  refine ⟨⟨fun hkind => ?_, fun hname => hother ?_⟩, hregex⟩
  · rw [← Bool.not_eq_true]
    refine mt hregex.mpr ?_
    simp [Lexeme.IsRegexLike, hkind]
  · refine mt hregex.mp ?_
    simp [LexState.allowsRegexAfter, hname]

/-! ### Slashes behind brackets -/

/-- A parenthesis opens a head behind one of four words. -/
theorem opensHead_iff {previous : Option TokenKind} :
    opensHead previous = true ↔
      ∃ word ∈ ["if", "while", "for", "with"], previous = some (.identifier word) := by
  unfold opensHead
  split
  · next word => simp [hasHead]
  · next hother =>
    refine iff_of_false Bool.false_ne_true ?_
    rintro ⟨word, -, hword⟩
    exact hother word hword

/-- Behind a closing parenthesis a slash **starts a regular expression** if that parenthesis matches
one that stands behind a word with a head. Behind a closing brace it does so unless the brace
matches one that opened an object. Elsewhere behind them it stands for itself. -/
theorem slash_behind_bracket {source : Text} {front behind : List Token} {bracket slash : Token}
    (htokens : tokenize source = front ++ bracket :: slash :: behind)
    (hslash : slash.text.head? = some '/') :
    (bracket.kind = .punctuator ')' →
        (slash.IsRegexLike ↔ ∃ before, IsMatchedBehind '(' ')' (front.map (·.kind)) before ∧
          ∃ word ∈ ["if", "while", "for", "with"], before.getLast? = some (.identifier word))) ∧
      (bracket.kind = .punctuator '\x7d' →
        (slash.IsRegexLike ↔
          (¬∃ before, IsMatchedBehind '\x7b' '\x7d' (front.map (·.kind)) before) ∨
          ∃ before, IsMatchedBehind '\x7b' '\x7d' (front.map (·.kind)) before ∧
            opensBlock before.getLast? = true)) ∧
      (¬slash.IsRegexLike → slash.kind = .punctuator '/') := by
  rw [← List.singleton_append, ← List.append_assoc] at htokens
  obtain ⟨hregex, hother⟩ := kind_of_slash htokens hslash
  rw [List.map_append, LexState.behind_append, List.map_singleton, LexState.behind_cons,
    LexState.behind_nil, LexState.next_regexAllowed] at hregex
  refine ⟨fun hbracket => ?_, fun hbracket => ?_, hother⟩
  · rw [hregex, if_pos hbracket]
    have htop := BracketStack.parentheses.head?_entries_iff (front.map (·.kind)) true
    simp only [BracketStack.parentheses, opensHead_iff] at htop
    rw [← htop]
    cases (LexState.initial.behind (front.map (·.kind))).heads.head? <;> simp
  · rw [hregex, if_neg (by simp [hbracket]), if_pos hbracket]
    have htop := BracketStack.braces.head?_entries_iff (front.map (·.kind)) true
    have hnone := BracketStack.braces.head?_entries_eq_none_iff (front.map (·.kind))
    simp only [BracketStack.braces] at htop hnone
    rw [← htop, ← hnone]
    cases (LexState.initial.behind (front.map (·.kind))).blocks.head? <;> simp

/-- The tokens in front of the last parenthesis of a head that holds a call. -/
def headTokens : List Token :=
  [⟨⟨[], "if".toList, .identifier "if", false⟩, 0⟩, ⟨⟨[' '], ['('], .punctuator '(', false⟩, 3⟩,
    ⟨⟨[], ['f'], .identifier "f", false⟩, 4⟩, ⟨⟨[], ['('], .punctuator '(', false⟩, 5⟩,
    ⟨⟨[], "')'".toList, .string ")", false⟩, 6⟩, ⟨⟨[], [')'], .punctuator ')', false⟩, 9⟩]

/-- Behind such a head a regular expression follows. -/
theorem slash_behind_bracket_of_head :
    let bracket : Token := ⟨⟨[], [')'], .punctuator ')', false⟩, 10⟩
    let slash : Token := ⟨⟨[' '], "/b/g".toList, .regex, false⟩, 12⟩
    tokenize "if (f(')')) /b/g".toList = headTokens ++ bracket :: slash :: [] ∧
      slash.text.head? = some '/' ∧ bracket.kind = .punctuator ')' ∧ slash.IsRegexLike ∧
      ∃ before, IsMatchedBehind '(' ')' (headTokens.map (·.kind)) before ∧
        ∃ word ∈ ["if", "while", "for", "with"], before.getLast? = some (.identifier word) := by
  intro bracket slash
  have htokens : tokenize "if (f(')')) /b/g".toList = headTokens ++ bracket :: slash :: [] := by
    rw [tokenize_eq_upTo]
    cbv
  have hregex : slash.IsRegexLike := .inl rfl
  obtain ⟨hhead, -⟩ := slash_behind_bracket htokens rfl
  exact ⟨htokens, rfl, rfl, hregex, (hhead rfl).mp hregex⟩

end ScriptBundle
