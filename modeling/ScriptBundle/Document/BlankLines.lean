import ScriptBundle.Text.Basic

/-!
# Blank Lines

A run of two or more blank lines is cut down to one. A line counts as blank if it holds spaces
and tabs alone and a line feed stands on either side of it.

## Main definitions

* `dropBlankLines`: a text behind the blank lines at its front, with their number;
* `collapseBlankLines`: a text with every run of blank lines cut down.
-/

namespace ScriptBundle

/-- Whether a character may stand on a blank line. -/
def isIndent (c : Char) : Bool := c == ' ' || c == '\t'

/-- A text behind the blank line at its front, if there is one. -/
def afterBlankLine? (s : Text) : Option Text :=
  match s.dropWhile isIndent with
  | '\n' :: rest => some rest
  | _ => none

theorem afterBlankLine?_length {s rest : Text} (h : afterBlankLine? s = some rest) :
    rest.length < s.length := by
  unfold afterBlankLine? at h
  split at h
  · next tail htail =>
    have hle := (List.dropWhile_suffix isIndent (l := s)).length_le
    simp only [Option.some.injEq] at h
    subst h
    rw [htail, List.length_cons] at hle
    omega
  · simp at h

/-- The number of blank lines at the front of a text, and the text behind them. -/
def dropBlankLines (s : Text) : Nat × Text :=
  match h : afterBlankLine? s with
  | none => (0, s)
  | some rest =>
    have := afterBlankLine?_length h
    let (n, behind) := dropBlankLines rest
    (n + 1, behind)
termination_by s.length

theorem dropBlankLines_length (s : Text) : (dropBlankLines s).2.length ≤ s.length := by
  fun_induction dropBlankLines s with
  | case1 => exact Nat.le_refl _
  | case2 s rest h hlt n behind hrun ih =>
    simp only [hrun] at ih
    exact Nat.le_of_lt (Nat.lt_of_le_of_lt ih hlt)

/-- Cuts every run of two or more blank lines down to one empty line. -/
def collapseBlankLines : Text → Text
  | [] => []
  | c :: rest =>
    if c = '\n' then
      let run := dropBlankLines rest
      have := dropBlankLines_length rest
      if 2 ≤ run.1 then '\n' :: '\n' :: collapseBlankLines run.2
      else '\n' :: collapseBlankLines rest
    else c :: collapseBlankLines rest
termination_by s => s.length

end ScriptBundle
