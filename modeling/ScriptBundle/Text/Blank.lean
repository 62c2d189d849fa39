import ScriptBundle.Text.Basic

/-!
# White Space

The Unicode property *White_Space*, which decides what separates two tokens and what is cut
off at the ends of a text.

## Main definitions

* `isBlank`: the property White_Space;
* `Text.trim`: a text without the white space at its two ends.

## Main statements

* `isBlank_of_isWhitespace`: the four ASCII blanks are white space;
* `Text.trim_eq_nil_iff`: a text of white space alone is trimmed to nothing.
-/

namespace ScriptBundle

/-- Whether a character is **white space**: tab to carriage return, the space, the next-line
control, the no-break space, and the spaces and separators of the higher blocks. -/
def isBlank (c : Char) : Bool :=
  let n := c.toNat
  (0x09 ≤ n && n ≤ 0x0D) || n == 0x20 || n == 0x85 || n == 0xA0 || n == 0x1680 ||
    (0x2000 ≤ n && n ≤ 0x200A) || n == 0x2028 || n == 0x2029 || n == 0x202F || n == 0x205F ||
    n == 0x3000

/-- A text without the white space at its start. -/
def Text.trimStart (s : Text) : Text := s.dropWhile isBlank

/-- A text without the white space at its end. -/
def Text.trimEnd (s : Text) : Text := (s.reverse.dropWhile isBlank).reverse

/-- A text without the white space at its two ends. -/
def Text.trim (s : Text) : Text := (Text.trimStart s).trimEnd

/-- A text without the given character at its end. -/
def Text.trimEndOf (c : Char) (s : Text) : Text := (s.reverse.dropWhile (· == c)).reverse

/-- The space, the tab, the line feed and the carriage return are white space. -/
theorem isBlank_of_isWhitespace {c : Char} (h : c.isWhitespace = true) : isBlank c = true := by
  have : c = ' ' ∨ c = '\t' ∨ c = '\r' ∨ c = '\n' := by
    simpa [Char.isWhitespace, or_assoc] using h
  rcases this with rfl | rfl | rfl | rfl <;> decide

/-- Nothing is left of a text exactly when it holds white space alone. -/
theorem Text.trim_eq_nil_iff {s : Text} : Text.trim s = [] ↔ ∀ c ∈ s, isBlank c = true := by
  induction s with
  | nil => simp [Text.trim, Text.trimStart, Text.trimEnd]
  | cons c s ih =>
    by_cases hc : isBlank c = true
    · simpa [Text.trim, Text.trimStart, hc] using ih
    · simp [Text.trim, Text.trimStart, Text.trimEnd, hc, List.dropWhile_append]
      intro h
      split at h
      · simp_all
      · simp_all

end ScriptBundle
