import ScriptBundle.Text.Basic

/-!
# Taking from the Front of a Text

What a scanner reads from the front of a text, with a proof that the text behind it is shorter.
The proof ends the recursion of every scanner built from others.

## Main definitions

* `Taken`: something that was read, and the text behind it;
* `Taken.first`, `Taken.dropping`: one character, or several, are read;
* `Taken.behind`, `Taken.andThen`: something is read behind something else.
-/

namespace ScriptBundle

/-- What was **taken** from the front of a text, and the text that is left. -/
structure Taken (s : Text) (α : Type) where
  value : α
  rest : Text
  shorter : rest.length < s.length

namespace Taken

/-- Takes the first character. -/
def first {c : Char} {s : Text} (value : α) : Taken (c :: s) α := ⟨value, s, Nat.lt_succ_self _⟩

/-- Takes the first character and the next `n`. -/
def dropping {c : Char} {s : Text} (n : Nat) (value : α) : Taken (c :: s) α :=
  ⟨value, s.drop n, by simp only [List.length_drop, List.length_cons]; omega⟩

/-- Changes the value. -/
def map {s : Text} (f : α → β) (t : Taken s α) : Taken s β := ⟨f t.value, t.rest, t.shorter⟩

/-- Takes one character more, in front. -/
def behind {c : Char} {s : Text} (t : Taken s α) : Taken (c :: s) α :=
  ⟨t.value, t.rest, Nat.lt_succ_of_lt t.shorter⟩

/-- Takes something, and then something else. -/
def andThen {s : Text} (f : α → β → γ) (t : Taken s α) (u : Taken t.rest β) : Taken s γ :=
  ⟨f t.value u.value, u.rest, Nat.lt_trans u.shorter t.shorter⟩

/-- Takes from a text what was taken from the part behind its front. -/
def within {s whole : Text} (h : s.length ≤ whole.length) (t : Taken s α) : Taken whole α :=
  ⟨t.value, t.rest, Nat.lt_of_lt_of_le t.shorter h⟩

@[simp] theorem first_value {c : Char} {s : Text} (value : α) :
    (first value : Taken (c :: s) α).value = value := rfl

@[simp] theorem first_rest {c : Char} {s : Text} (value : α) :
    (first value : Taken (c :: s) α).rest = s := rfl

@[simp] theorem behind_value {c : Char} {s : Text} (t : Taken s α) :
    (t.behind : Taken (c :: s) α).value = t.value := rfl

@[simp] theorem behind_rest {c : Char} {s : Text} (t : Taken s α) :
    (t.behind : Taken (c :: s) α).rest = t.rest := rfl

@[simp] theorem andThen_value {s : Text} (f : α → β → γ) (t : Taken s α) (u : Taken t.rest β) :
    (t.andThen f u).value = f t.value u.value := rfl

@[simp] theorem andThen_rest {s : Text} (f : α → β → γ) (t : Taken s α) (u : Taken t.rest β) :
    (t.andThen f u).rest = u.rest := rfl

end Taken

end ScriptBundle
