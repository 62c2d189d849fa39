/-!
# Texts and Byte Offsets

Everything the bundler reads or writes is a list of characters. Places in a text are counted
in bytes of its UTF-8 form, so a character takes between one and four units and an offset may
fall inside one.

## Main definitions

* `Text.size`: the length of a text in bytes;
* `Text.takeBytes`, `Text.dropBytes`: the two parts of a text around an offset;
* `Text.cut?`: the same two parts, only for an offset that is a character boundary.

## Main statements

* `Text.takeBytes_append_dropBytes`: the two parts make up the text again;
* `Text.cut?_size`: a text cut where a known part of it ends gives back that part.
-/

namespace ScriptBundle

/-- A **text** is a list of characters. -/
abbrev Text := List Char

namespace Text

/-- The **size** of a text is the number of bytes of its UTF-8 form. -/
def size : Text → Nat
  | [] => 0
  | c :: rest => c.utf8Size + size rest

/-- The characters that start before byte `n`. -/
def takeBytes : Nat → Text → Text
  | _, [] => []
  | n, c :: rest => if n = 0 then [] else c :: takeBytes (n - c.utf8Size) rest

/-- The characters that start at byte `n` or later. -/
def dropBytes : Nat → Text → Text
  | _, [] => []
  | n, c :: rest => if n = 0 then c :: rest else dropBytes (n - c.utf8Size) rest

/-- Cuts a text at byte `n`. There is no cut inside a character and none beyond the end. -/
def cut? : Nat → Text → Option (Text × Text)
  | n, [] => if n = 0 then some ([], []) else none
  | n, c :: rest =>
    if n = 0 then some ([], c :: rest)
    else if c.utf8Size ≤ n then
      (cut? (n - c.utf8Size) rest).map fun (before, after) => (c :: before, after)
    else none

/-! ### Sizes -/

@[simp] theorem size_nil : size [] = 0 := rfl

@[simp] theorem size_cons (c : Char) (s : Text) : size (c :: s) = c.utf8Size + size s := rfl

@[simp] theorem size_append (s t : Text) : size (s ++ t) = size s + size t := by
  induction s with
  | nil => simp
  | cons c s ih => simp [ih, Nat.add_assoc]

/-- A text without bytes has no characters. -/
theorem size_eq_zero_iff {s : Text} : size s = 0 ↔ s = [] := by
  cases s with
  | nil => simp
  | cons c s =>
    have := c.utf8Size_pos
    simp only [size_cons, reduceCtorEq, iff_false]
    omega

/-! ### Cutting -/

/-- No character is lost or doubled at an offset. -/
theorem takeBytes_append_dropBytes (n : Nat) (s : Text) : takeBytes n s ++ dropBytes n s = s := by
  induction s generalizing n with
  | nil => simp [takeBytes, dropBytes]
  | cons c s ih =>
    by_cases h : n = 0
    · simp [takeBytes, dropBytes, h]
    · simp [takeBytes, dropBytes, h, ih]

@[simp] theorem takeBytes_zero (s : Text) : takeBytes 0 s = [] := by
  cases s <;> simp [takeBytes]

@[simp] theorem dropBytes_zero (s : Text) : dropBytes 0 s = s := by
  cases s <;> simp [dropBytes]

/-- The characters up to a place behind the front of a text. -/
theorem takeBytes_append (s t : Text) (n : Nat) :
    takeBytes (size s + n) (s ++ t) = s ++ takeBytes n t := by
  induction s with
  | nil => simp
  | cons c s ih =>
    have hne : c.utf8Size + size s + n ≠ 0 := by
      have := c.utf8Size_pos
      omega
    have hsub : c.utf8Size + size s + n - c.utf8Size = size s + n := by omega
    rw [size_cons, List.cons_append, takeBytes, if_neg hne, hsub, ih, List.cons_append]

/-- The characters from a place behind the front of a text on. -/
theorem dropBytes_append (s t : Text) (n : Nat) :
    dropBytes (size s + n) (s ++ t) = dropBytes n t := by
  induction s with
  | nil => simp
  | cons c s ih =>
    have hne : c.utf8Size + size s + n ≠ 0 := by
      have := c.utf8Size_pos
      omega
    have hsub : c.utf8Size + size s + n - c.utf8Size = size s + n := by omega
    rw [size_cons, List.cons_append, dropBytes, if_neg hne, hsub, ih]

/-- A text cut where its first part ends gives back the two parts. -/
theorem cut?_size (s t : Text) : cut? (size s) (s ++ t) = some (s, t) := by
  induction s with
  | nil => cases t <;> simp [cut?]
  | cons c s ih =>
    have hne : ¬(c.utf8Size + size s = 0) := by
      have := c.utf8Size_pos
      omega
    simp [cut?, -Nat.add_eq_zero_iff, hne, ih]

end Text

end ScriptBundle
