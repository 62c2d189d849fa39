import ScriptBundle.Module.Pattern
import ScriptBundle.Proofs.Token.State

/-!
# Operands

Expressions are passed over without being read: the brackets in them are counted, and outside of all
brackets a comma, a semicolon or, in a statement, the end of a line ends them. Tokens whose brackets
close one another are passed as a whole.

## Main definitions

* `IsOperand`: whether tokens may be passed over as one expression;
* `startsLine`: whether a token outside of all brackets starts a line.

## Main statements

* `depthAfter_of_expectedAfter`: the number of open brackets is that of those which are due;
* `skipBalanced_append`: tokens in brackets are passed with the bracket that closes them;
* `skipExpression_operand`, `skipExpression_line`: an operand is passed up to what ends it.
-/

namespace ScriptBundle

/-! ### Open brackets -/

/-- A token that closes a bracket is one of three characters. -/
theorem TokenKind.eq_of_isClosing {kind : TokenKind} (h : kind.isClosing = true) :
    ∃ c, kind = .punctuator c ∧ (c = ')' ∨ c = ']' ∨ c = '}') := by
  cases kind with
  | punctuator c =>
    simp only [isClosing, Bool.or_eq_true, beq_iff_eq] at h
    rcases h with (rfl | rfl) | rfl <;> exact ⟨_, rfl, by simp⟩
  | _ => cases h

/-- A token that opens a bracket is one that another character closes. -/
theorem TokenKind.eq_of_isOpening {kind : TokenKind} (h : kind.isOpening = true) :
    ∃ c closing, kind = .punctuator c ∧ closingOf c = some closing := by
  cases kind with
  | punctuator c =>
    simp only [isOpening, Bool.or_eq_true, beq_iff_eq] at h
    rcases h with (rfl | rfl) | rfl <;> exact ⟨_, _, rfl, rfl⟩
  | _ => cases h

/-- Tokens that close their own brackets only leave as many brackets open as are due. -/
theorem depthAfter_of_expectedAfter {expected due : List Char} {kind : TokenKind}
    (h : expectedAfter expected kind = some due) (around : Nat) :
    depthAfter (around + expected.length) kind = around + due.length := by
  unfold depthAfter
  split
  · next hopening =>
    obtain ⟨c, closing, rfl, hclosing⟩ := TokenKind.eq_of_isOpening hopening
    obtain rfl := Option.some.inj ((expectedAfter_of_opening hclosing expected).symm.trans h)
    rw [List.length_cons, Nat.add_assoc]
  · next hopening =>
    split
    · next hclosing =>
      obtain ⟨c, rfl, hchar⟩ := TokenKind.eq_of_isClosing hclosing
      rw [expectedAfter_of_closing hchar h, List.length_cons]
      omega
    · next hclosing =>
      rw [expectedAfter_of_other (by simpa using hopening) (by simpa using hclosing)] at h
      rw [Option.some.inj h]

/-! ### Operands -/

/-- Whether a comma or a semicolon stands outside of all brackets. -/
def hasSeparator (depth : Nat) : List TokenKind → Bool
  | [] => false
  | kind :: rest =>
    depth == 0 && (kind == .punctuator ',' || kind == .punctuator ';') ||
      hasSeparator (depthAfter depth kind) rest

/-- Whether tokens may be an **operand**: there are some, their brackets close one another, and none
of them outside of all brackets separates two operands. -/
structure IsOperand (kinds : List TokenKind) : Prop where
  nonempty : kinds ≠ []
  balanced : isBalanced [] kinds = true
  whole : hasSeparator 0 kinds = false

/-- Whether a token outside of all brackets **starts a line**. -/
def startsLine (depth : Nat) : List Token → Bool
  | [] => false
  | t :: rest => depth == 0 && t.newlineBefore || startsLine (depthAfter depth t.kind) rest

/-! ### Passing over them -/

/-- Tokens whose brackets close one another are passed with the bracket behind them, which closes
the one in front of them. -/
theorem skipBalanced_append {expected : List Char} {ts : List Token}
    (h : dueAfter expected (ts.map (·.kind)) = some []) {closing : Token}
    (hclosing : depthAfter 1 closing.kind = 0) (previous : Option Token) (rest : List Token) :
    skipBalanced (1 + expected.length) previous (ts ++ closing :: rest) =
      ⟨some closing, rest⟩ := by
  -- `expected` are the brackets open among the tokens; the one around them stays open throughout.
  induction ts generalizing expected previous with
  | nil =>
    obtain rfl : expected = [] := by simpa using h
    rw [List.nil_append, skipBalanced, List.length_nil, Nat.add_zero]
    simp only [hclosing, if_true]
  | cons t ts ih =>
    obtain ⟨due, hdue, hrest⟩ := exists_dueAfter h
    have hdepth := depthAfter_of_expectedAfter hdue 1
    have hopen : ¬1 + due.length = 0 := by omega
    rw [List.cons_append, skipBalanced]
    simp only [hdepth, if_neg hopen]
    exact ih hrest (some t)

/-- A token that closes no bracket but its own and does not separate operands goes on with an
expression, unless it stands on a line where a statement may start. -/
theorem not_endsBefore {expected due : List Char} {t : Token} {inStatement : Bool}
    {previous : Option Token} (h : expectedAfter expected t.kind = some due)
    (hseparator : (expected.length == 0 &&
      (t.kind == .punctuator ',' || t.kind == .punctuator ';')) = false)
    (hline : expected = [] → (inStatement && t.newlineBefore && startsStatement t.kind &&
      previous.any (endsExpression ·.kind)) = false) :
    ¬(expected.length = 0 ∧ endsBefore inStatement previous t = true) := by
  rintro ⟨hdepth, hends⟩
  obtain rfl := List.length_eq_zero_iff.mp hdepth
  have hclosing : t.kind.isClosing = false := by
    rw [← Bool.not_eq_true]
    intro hclosing
    obtain ⟨c, hkind, hchar⟩ := TokenKind.eq_of_isClosing hclosing
    rw [hkind] at h
    exact absurd (expectedAfter_of_closing hchar h) (by simp)
  rw [endsBefore, hline rfl, hclosing] at hends
  rw [List.length_nil, beq_self_eq_true, Bool.true_and] at hseparator
  rw [Bool.false_or, Bool.or_false, Token.isPunctuator, Token.isPunctuator, hseparator] at hends
  cases hends

/-- An expression goes on over tokens that close their own brackets only, do not separate operands
and, in a statement, start no line. -/
theorem skipExpression_append {expected : List Char} {ts : List Token} {inStatement : Bool}
    (h : dueAfter expected (ts.map (·.kind)) = some [])
    (hwhole : hasSeparator expected.length (ts.map (·.kind)) = false)
    (hline : inStatement = true → startsLine expected.length ts = false)
    (previous : Option Token) (rest : List Token) :
    ∃ last, skipExpression inStatement expected.length previous (ts ++ rest) =
      skipExpression inStatement 0 last rest := by
  induction ts generalizing expected previous with
  | nil =>
    obtain rfl : expected = [] := by simpa using h
    exact ⟨previous, rfl⟩
  | cons t ts ih =>
    obtain ⟨due, hdue, hrest⟩ := exists_dueAfter h
    have hdepth := depthAfter_of_expectedAfter hdue 0
    rw [Nat.zero_add, Nat.zero_add] at hdepth
    rw [List.map_cons, hasSeparator, hdepth, Bool.or_eq_false_iff] at hwhole
    have hgoes : ¬(expected.length = 0 ∧ endsBefore inStatement previous t = true) := by
      refine not_endsBefore hdue hwhole.1 ?_
      rintro rfl
      cases inStatement with
      | false => rfl
      | true =>
        have hfirst := hline rfl
        rw [startsLine, Bool.or_eq_false_iff] at hfirst
        have hnewline : t.newlineBefore = false := by simpa using hfirst.1
        rw [hnewline]
        rfl
    rw [List.cons_append, skipExpression, if_neg hgoes, hdepth]
    refine ih hrest hwhole.2 (fun hstatement => ?_) (some t)
    have hlines := hline hstatement
    rw [startsLine, hdepth, Bool.or_eq_false_iff] at hlines
    exact hlines.2

/-- Whether a token ends every expression that stands in front of it outside of all brackets. -/
def TokenKind.endsOperand (kind : TokenKind) : Bool :=
  kind.isClosing || kind == .punctuator ',' || kind == .punctuator ';'

/-- An expression ends in front of such a token. -/
theorem skipExpression_end {t : Token} (h : t.kind.endsOperand = true) (inStatement : Bool)
    (previous : Option Token) (rest : List Token) :
    skipExpression inStatement 0 previous (t :: rest) = ⟨previous, t :: rest⟩ := by
  have hends : endsBefore inStatement previous t = true := by
    rw [TokenKind.endsOperand] at h
    rw [endsBefore, Bool.or_eq_true]
    exact .inl h
  rw [skipExpression, if_pos ⟨rfl, hends⟩]

/-- A default value is passed up to what ends it, on however many lines it is written. -/
theorem skipExpression_operand {ts : List Token} (h : IsOperand (ts.map (·.kind))) {stop : Token}
    (hstop : stop.kind.endsOperand = true) (previous : Option Token) (rest : List Token) :
    (skipExpression false 0 previous (ts ++ stop :: rest)).rest = stop :: rest := by
  have hdue := isBalanced_iff.mp h.balanced
  obtain ⟨last, hskip⟩ := skipExpression_append hdue h.whole
    (fun hstatement => absurd hstatement Bool.false_ne_true) previous (stop :: rest)
  rw [List.length_nil] at hskip
  rw [hskip, skipExpression_end hstop]

/-- An operand of a statement is passed up to what ends it, if behind its first token no line starts
outside of all brackets. -/
theorem skipExpression_line {first : Token} {others : List Token}
    (h : IsOperand ((first :: others).map (·.kind)))
    (hline : startsLine (depthAfter 0 first.kind) others = false) {stop : Token}
    (hstop : stop.kind.endsOperand = true) {previous : Option Token}
    (hprevious : previous.any (endsExpression ·.kind) = false) (rest : List Token) :
    (skipExpression true 0 previous (first :: others ++ stop :: rest)).rest = stop :: rest := by
  obtain ⟨due, hdue, hothers⟩ := exists_dueAfter (isBalanced_iff.mp h.balanced)
  have hwhole := h.whole
  have hdepth := depthAfter_of_expectedAfter hdue 0
  rw [List.length_nil, Nat.zero_add] at hdepth
  rw [List.map_cons, hasSeparator, hdepth, Bool.or_eq_false_iff] at hwhole
  have hgoes : ¬(0 = 0 ∧ endsBefore true previous first = true) :=
    @not_endsBefore [] due first true previous hdue hwhole.1 fun _ => by simp [hprevious]
  rw [List.cons_append, skipExpression, if_neg hgoes, hdepth, Nat.zero_add]
  rw [hdepth, Nat.zero_add] at hline
  rw [Nat.zero_add] at hwhole
  obtain ⟨last, hskip⟩ := skipExpression_append hothers hwhole.2 (fun _ => hline) (some first)
    (stop :: rest)
  rw [hskip, skipExpression_end hstop]

end ScriptBundle
