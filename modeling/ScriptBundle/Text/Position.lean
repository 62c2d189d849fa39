import ScriptBundle.Text.Basic

/-!
# Lines and Columns

A place in a text as a reader sees it. Lines and columns count from one, and a column counts
the bytes since the last line feed.

## Main definitions

* `Position`: a line and a column;
* `Position.after`: where a text that has been read through ends;
* `Text.position?`: the position of a byte offset.
-/

namespace ScriptBundle

/-- A **position** is a line and a column, both counted from one, the column in bytes. -/
structure Position where
  line : Nat
  column : Nat
  deriving DecidableEq, Repr

/-- The last line of a text, without the line feed before it. -/
def Text.lastLine (s : Text) : Text :=
  (s.reverse.takeWhile (· ≠ '\n')).reverse

/-- The position just behind a text: one line for every line feed, and one column for every
byte of its last line. -/
def Position.after (before : Text) : Position :=
  ⟨before.count '\n' + 1, Text.size before.lastLine + 1⟩

/-- The position of a byte offset. An offset beyond the text stands for its end, and an offset
inside a character has no position. -/
def Text.position? (s : Text) (offset : Nat) : Option Position :=
  (Text.cut? (min offset (Text.size s)) s).map fun (before, _) => Position.after before

/-- The line of a byte offset, for the offsets that have a position. -/
def Text.line? (s : Text) (offset : Nat) : Option Nat :=
  (s.position? offset).map Position.line

/-- Where a part of a text ends, there is a position. -/
theorem Text.position?_size (s t : Text) :
    Text.position? (s ++ t) (Text.size s) = some (Position.after s) := by
  simp [Text.position?, Text.cut?_size]

end ScriptBundle
