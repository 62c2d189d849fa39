import ScriptBundle.Text.Basic

/-!
# Searching and Replacing

## Main definitions

* `Text.contains`: whether a text holds another one as a contiguous part;
* `Text.replaceAll`: every occurrence of a text replaced, from left to right and without overlap;
* `Text.lines`: the parts between line feeds;
* `Text.lineCount`: the number of lines, where a final line feed opens no further line.

## Main statements

* `Text.contains_iff`: a text contains another one exactly when it is that text between two others;
* `Text.join_lines`: the lines, joined by line feeds, make up the text.
-/

namespace ScriptBundle.Text

/-- Whether `pattern` occurs in a text. -/
def contains (pattern : Text) : Text → Bool
  | [] => pattern.isEmpty
  | c :: rest => pattern.isPrefixOf (c :: rest) || contains pattern rest

/-- Replaces the occurrences of a pattern that is not empty, after `skip` characters that belong
to an occurrence already replaced. -/
def replaceFrom (pattern replacement : Text) : (skip : Nat) → Text → Text
  | _, [] => []
  | skip + 1, _ :: rest => replaceFrom pattern replacement skip rest
  | 0, c :: rest =>
    if pattern.isPrefixOf (c :: rest) then
      replacement ++ replaceFrom pattern replacement (pattern.length - 1) rest
    else c :: replaceFrom pattern replacement 0 rest

/-- Replaces every occurrence of `pattern`, from left to right. The empty pattern occurs before
every character and at the end. -/
def replaceAll (pattern replacement s : Text) : Text :=
  if pattern.isEmpty then replacement ++ s.flatMap fun c => c :: replacement
  else replaceFrom pattern replacement 0 s

/-- The parts of a text between its line feeds, of which there is at least one. -/
def lines : Text → List Text
  | [] => [[]]
  | c :: rest =>
    if c = '\n' then [] :: lines rest
    else
      match lines rest with
      | [] => [[c]]
      | line :: others => (c :: line) :: others

/-- Lines joined by line feeds. -/
def joinLines (parts : List Text) : Text := List.intercalate ['\n'] parts

/-- The number of lines of a text. A line feed ends a line, so a final one opens no other. -/
def lineCount (s : Text) : Nat :=
  s.count '\n' + if s.getLast?.any (· ≠ '\n') then 1 else 0

/-- A text contains another one exactly when it is that text between two others. -/
theorem contains_iff {pattern s : Text} :
    contains pattern s = true ↔ ∃ before after, s = before ++ pattern ++ after := by
  induction s with
  | nil => simp [contains, and_comm]
  | cons c s ih =>
    rw [contains, Bool.or_eq_true, ih, List.isPrefixOf_iff_prefix]
    constructor
    · rintro (⟨after, h⟩ | ⟨before, after, rfl⟩)
      · exact ⟨[], after, by simpa using h.symm⟩
      · exact ⟨c :: before, after, by simp⟩
    · rintro ⟨before, after, h⟩
      cases before with
      | nil => exact .inl ⟨after, by simpa using h.symm⟩
      | cons b before =>
        simp only [List.cons_append, List.cons.injEq] at h
        exact .inr ⟨before, after, h.2⟩

theorem lines_ne_nil (s : Text) : lines s ≠ [] := by
  cases s with
  | nil => simp [lines]
  | cons c s =>
    rw [lines]
    split
    · simp
    · split <;> simp

/-- The lines of a text, joined by line feeds, make up the text. -/
theorem join_lines (s : Text) : joinLines (lines s) = s := by
  induction s with
  | nil => rfl
  | cons c s ih =>
    rw [lines]
    split
    · next h =>
      subst h
      rcases hl : lines s with _ | ⟨line, others⟩
      · exact absurd hl (lines_ne_nil s)
      · simpa [joinLines, hl, List.intercalate] using ih
    · split
      · next hl => exact absurd hl (lines_ne_nil s)
      · next line others hl =>
        cases others <;> simpa [joinLines, hl, List.intercalate] using ih

end ScriptBundle.Text
