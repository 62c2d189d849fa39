import Mathlib
import ScriptBundle.Proofs.Token.Extension

/-!
# Reading a Given Text

The lexer ends because every token shortens its text. Where a text is given, a bound on the number
of tokens does as well, and the recursion on it can be computed.

## Main definitions

* `lexemesUpTo`: at most so many lexemes of a text, with what is left behind them.

## Main statements

* `lexemesUpTo_eq`: a bound that is not below the length of the text leaves no lexeme out;
* `tokenize_eq_upTo`: the tokens of a text in this form.
-/

namespace ScriptBundle

/-- At most `n` lexemes of a text, and the text behind them. -/
def lexemesUpTo : (n : Nat) → LexState → Text → List Lexeme × Text
  | 0, _, s => ([], s)
  | n + 1, state, s =>
    match lexeme? state s with
    | none => ([], s)
    | some (l, rest) =>
      let found := lexemesUpTo n (state.next l.kind) rest
      (l :: found.1, found.2)

/-- A bound that is not below the length of the text leaves no lexeme out. -/
theorem lexemesUpTo_eq {n : Nat} {state : LexState} {s : Text} (h : s.length ≤ n) :
    lexemesUpTo n state s = (lexemes state s, trailingTrivia state s) := by
  induction n generalizing state s with
  | zero =>
    obtain rfl : s = [] := List.length_eq_zero_iff.mp (Nat.le_zero.mp h)
    simp [lexemesUpTo]
  | succ n ih =>
    rw [lexemesUpTo]
    cases hfirst : lexeme? state s with
    | none => rw [(lexemes_of_none hfirst).1, (lexemes_of_none hfirst).2]
    | some found =>
      obtain ⟨l, rest⟩ := found
      have hlt := lexeme?_length hfirst
      rw [(lexemes_of_some hfirst).1, (lexemes_of_some hfirst).2]
      simp only
      rw [ih (by omega)]

/-- What stands behind the last lexeme of a given text can be computed. -/
theorem trailingTrivia_eq_upTo (state : LexState) (s : Text) :
    trailingTrivia state s = (lexemesUpTo s.length state s).2 := by
  rw [lexemesUpTo_eq (Nat.le_refl _)]

/-- The tokens of a given text can be computed. -/
theorem tokenize_eq_upTo (s : Text) :
    tokenize s = Token.place (Text.size (hashbang s))
      (lexemesUpTo (afterHashbang s).length .initial (afterHashbang s)).1 := by
  rw [lexemesUpTo_eq (Nat.le_refl _)]
  rfl

end ScriptBundle
