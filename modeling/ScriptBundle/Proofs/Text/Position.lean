import Mathlib.Data.List.TakeWhile
import Mathlib.Data.Prod.Lex
import ScriptBundle.Text.Position
import ScriptBundle.Text.Search

/-!
# Slices and Positions

A slice of a text is the part between two offsets. There is one only if the offsets are in order,
inside of the text and between characters, so that a slice that is asked for elsewhere is a fault.

The line of a place is a count of the line feeds in front of it, and its column is the distance from
the last of them. Neither is found with the help of the other, but together they tell the place: a
text that goes on either opens a line or makes its last line longer.

## Main definitions

* `Text.slice?`: the part of a text between two offsets;
* `Text.IsPlace`: whether an offset is between characters of a text;
* `endedLines`: lines, each with a line feed at its end;
* `Text.lineStart`: where a line starts.

## Main statements

* `Text.slice?_eq_some_iff`: where a text has slices;
* `Text.IsPlace.exists_behind`: a place behind another one is a place in what stands there;
* `Position.after_append`: the position behind a text that goes on;
* `Position.lineStart_after`: a place is as far behind the start of its line as its column says;
* `Text.position_exact`: positions come in the order of the places that they are of, and tell them.
-/

namespace ScriptBundle

/-! ### Slices -/

/-- A cut comes between two parts of a text. -/
theorem eq_of_cut? {n : Nat} {s front behind : Text} (h : Text.cut? n s = some (front, behind)) :
    s = front ++ behind ∧ Text.size front = n := by
  induction s generalizing n front with
  | nil =>
    rw [Text.cut?] at h
    split at h
    · next hn =>
      obtain ⟨rfl, rfl⟩ : [] = front ∧ [] = behind := by simpa using h
      exact ⟨rfl, hn.symm⟩
    · simp at h
  | cons c s ih =>
    rw [Text.cut?] at h
    split at h
    · next hn =>
      obtain ⟨rfl, rfl⟩ : [] = front ∧ c :: s = behind := by simpa using h
      exact ⟨rfl, hn.symm⟩
    · split at h
      · next hle =>
        obtain ⟨⟨before, after⟩, hcut, heq⟩ := Option.map_eq_some_iff.mp h
        obtain ⟨rfl, rfl⟩ : c :: before = front ∧ after = behind := by simpa using heq
        obtain ⟨rfl, hsize⟩ := ih hcut
        exact ⟨rfl, by rw [Text.size_cons, hsize]; omega⟩
      · simp at h

namespace Text

/-- The **slice** of a text from the byte `start` up to the byte `stop`, if they are in order and
both are between characters of the text. -/
def slice? (s : Text) (start stop : Nat) : Option Text :=
  if start ≤ stop then
    (cut? start s).bind fun (_, behind) => (cut? (stop - start) behind).map Prod.fst
  else none

/-- A part of a text is its slice between the places where it starts and ends. -/
theorem slice?_append (front inside behind : Text) :
    slice? (front ++ (inside ++ behind)) (size front) (size front + size inside) = some inside := by
  simp [slice?, cut?_size]

/-- A text has a slice between two offsets exactly if a part of it **starts and ends** there. -/
theorem slice?_eq_some_iff {s inside : Text} {start stop : Nat} :
    s.slice? start stop = some inside ↔ ∃ front behind, s = front ++ (inside ++ behind) ∧
      start = size front ∧ stop = size front + size inside := by
  constructor
  · intro h
    rw [slice?] at h
    split at h
    · next hle =>
      obtain ⟨⟨front, rest⟩, hfront, hrest⟩ := Option.bind_eq_some_iff.mp h
      obtain ⟨⟨found, behind⟩, hfound, rfl⟩ := Option.map_eq_some_iff.mp hrest
      obtain ⟨rfl, rfl⟩ := eq_of_cut? hfront
      obtain ⟨rfl, hsize⟩ := eq_of_cut? hfound
      exact ⟨front, behind, rfl, rfl, by rw [hsize]; omega⟩
    · simp at h
  · rintro ⟨front, behind, rfl, rfl, rfl⟩
    exact slice?_append front inside behind

-- The second character takes two bytes, and there is no slice up to the first one of them.
example : slice? "aé".toList 1 3 = some "é".toList ∧ slice? "aé".toList 1 2 = none := by decide

/-- Whether an offset is a **place** between characters of a text. -/
def IsPlace (s : Text) (offset : Nat) : Prop :=
  ∃ before behind, s = before ++ behind ∧ size before = offset

/-- A place that is not in front of a part of a text is a place in what stands behind this part. -/
theorem IsPlace.exists_behind {before rest : Text} {offset : Nat}
    (h : IsPlace (before ++ rest) offset)
    (hle : size before ≤ offset) :
    ∃ inside behind, rest = inside ++ behind ∧ offset = size before + size inside := by
  obtain ⟨front, behind, heq, rfl⟩ := h
  rcases List.append_eq_append_iff.mp heq with ⟨inside, rfl, rfl⟩ | ⟨more, rfl, rfl⟩
  · exact ⟨inside, behind, rfl, size_append _ _⟩
  · rw [size_append] at hle
    obtain rfl : more = [] := size_eq_zero_iff.mp (by omega)
    exact ⟨[], rest, rfl, by simp⟩

end Text

/-! ### Lines -/

/-- Lines, each of them with a line feed at its end. -/
def endedLines (ls : List Text) : Text := ls.flatMap (· ++ ['\n'])

@[simp] theorem endedLines_nil : endedLines [] = [] := rfl

@[simp] theorem endedLines_cons (line : Text) (ls : List Text) :
    endedLines (line :: ls) = line ++ '\n' :: endedLines ls := by simp [endedLines]

/-- The **start** of a line, counted from one: behind the lines in front of it and their line
feeds. -/
def Text.lineStart (s : Text) (line : Nat) : Nat :=
  Text.size (endedLines ((Text.lines s).take (line - 1)))

/-- A text without line feeds is a line by itself. -/
theorem Text.lastLine_of_not_mem {s : Text} (h : '\n' ∉ s) : s.lastLine = s := by
  have hline : ∀ c ∈ s.reverse, decide (c ≠ '\n') = true := fun c hc =>
    decide_eq_true fun hfeed => h (hfeed ▸ List.mem_reverse.mp hc)
  rw [lastLine, List.takeWhile_eq_self_iff.mpr hline, List.reverse_reverse]

/-- The last line of a text that goes on starts behind the last line feed of what is added, or where
the last line of the text does. -/
theorem Text.lastLine_append (s t : Text) :
    (s ++ t).lastLine = if '\n' ∈ t then t.lastLine else s.lastLine ++ t := by
  rw [lastLine, List.reverse_append, List.takeWhile_append]
  split
  · next hwhole =>
    have hnone : '\n' ∉ t := by
      intro hmem
      have hall := List.takeWhile_eq_self_iff.mp
        (List.IsPrefix.eq_of_length (List.takeWhile_prefix (· ≠ '\n') (l := t.reverse)) hwhole)
      simpa using hall '\n' (List.mem_reverse.mpr hmem)
    rw [if_neg hnone, List.reverse_append, List.reverse_reverse, lastLine]
  · next hpart =>
    have hfeed : '\n' ∈ t := by
      by_contra hnone
      have hline := congrArg List.length (lastLine_of_not_mem hnone)
      exact hpart (by simpa [lastLine] using hline)
    rw [if_pos hfeed, lastLine]

/-- A line feed in front of a text is in front of its last line, too. -/
theorem Text.lastLine_lineFeed (s : Text) : Text.lastLine ('\n' :: s) = Text.lastLine s := by
  have hlast := lastLine_append ['\n'] s
  rw [List.singleton_append] at hlast
  rw [hlast]
  split
  · rfl
  · next hfeed =>
    rw [lastLine_of_not_mem hfeed]
    rfl

/-! ### Positions behind texts -/

/-- Behind a text that **goes on** there is a later line, or the same line and a later column. -/
theorem Position.after_append {s t : Text} (h : t ≠ []) :
    toLex ((Position.after s).line, (Position.after s).column) <
      toLex ((Position.after (s ++ t)).line, (Position.after (s ++ t)).column) := by
  rw [Prod.Lex.toLex_lt_toLex]
  by_cases hfeed : '\n' ∈ t
  · have hcount := List.count_pos_iff.mpr hfeed
    refine .inl ?_
    simp only [after, List.count_append]
    omega
  · have hsize : Text.size t ≠ 0 := mt Text.size_eq_zero_iff.mp h
    refine .inr ⟨?_, ?_⟩
    · simp [after, List.count_eq_zero.mpr hfeed]
    · simp only [after, Text.lastLine_append, if_neg hfeed, Text.size_append]
      omega

/-- A place is **as far behind the start of its line** as its column says, counted from one. -/
theorem Position.lineStart_after (before behind : Text) :
    Text.size before + 1 =
      Text.lineStart (before ++ behind) (Position.after before).line +
        (Position.after before).column := by
  suffices h : Text.size before =
      Text.size (endedLines ((Text.lines (before ++ behind)).take (before.count '\n'))) +
        Text.size before.lastLine by
    rw [Text.lineStart, after, h]
    rfl
  -- a character at the front lengthens the first line or opens another one
  induction before with
  | nil => simp [Text.lastLine]
  | cons c before ih =>
    rw [Text.size_cons, ih, List.cons_append, Text.lines]
    by_cases hc : c = '\n'
    · subst hc
      have hfeed : ('\n' : Char).utf8Size = 1 := by decide
      rw [if_pos rfl, List.count_cons_self, List.take_succ_cons, endedLines_cons, List.nil_append,
        Text.size_cons, Text.lastLine_lineFeed]
      omega
    · rw [if_neg hc, List.count_cons_of_ne hc]
      cases hlines : Text.lines (before ++ behind) with
      | nil => exact absurd hlines (Text.lines_ne_nil _)
      | cons first others =>
        have hlast := Text.lastLine_append [c] before
        rw [List.singleton_append] at hlast
        rw [hlast]
        by_cases hfeed : '\n' ∈ before
        · obtain ⟨n, hn⟩ := Nat.exists_eq_succ_of_ne_zero (List.count_pos_iff.mpr hfeed).ne'
          rw [hn, if_pos hfeed]
          simp only [List.take_succ_cons, endedLines_cons, Text.size_append, Text.size_cons]
          omega
        · rw [List.count_eq_zero.mpr hfeed, if_neg hfeed, Text.lastLine_of_not_mem hfeed,
            Text.lastLine_of_not_mem (by simpa using Ne.symm hc)]
          simp

/-! ### Positions of offsets -/

/-- A place has the position behind the text in front of it. -/
theorem Text.position?_of_isPlace {s : Text} {offset : Nat} (h : s.IsPlace offset) :
    ∃ before behind, s = before ++ behind ∧ offset = size before ∧
      s.position? offset = some (Position.after before) := by
  obtain ⟨before, behind, rfl, rfl⟩ := h
  exact ⟨before, behind, rfl, rfl, position?_size before behind⟩

/-- **Positions are faithful.** Each place between characters has a position, which is as far behind
the start of its line as its column says. Of two places the later one has the later position, in the
order of lines and then of columns, so that no two places have the same one. An offset beyond the
end has the position of the end. -/
theorem Text.position_exact (s : Text) :
    (∀ offset, s.IsPlace offset → ∃ p, s.position? offset = some p ∧
      offset + 1 = s.lineStart p.line + p.column) ∧
    (∀ a b, s.IsPlace a → s.IsPlace b → a < b → ∃ p q, s.position? a = some p ∧
      s.position? b = some q ∧ toLex (p.line, p.column) < toLex (q.line, q.column)) ∧
    (∀ a b, s.IsPlace a → s.IsPlace b → s.position? a = s.position? b → a = b) ∧
    ∀ offset, size s ≤ offset → s.position? offset = s.position? (size s) := by
  have hstart : ∀ offset, s.IsPlace offset → ∃ p, s.position? offset = some p ∧
      offset + 1 = s.lineStart p.line + p.column := by
    intro offset h
    obtain ⟨before, behind, rfl, rfl, hposition⟩ := position?_of_isPlace h
    exact ⟨_, hposition, Position.lineStart_after before behind⟩
  refine ⟨hstart, fun a b ha hb hlt => ?_, fun a b ha hb hsame => ?_, fun offset hle => ?_⟩
  · obtain ⟨before, behind, hs, rfl, hbefore⟩ := position?_of_isPlace ha
    obtain ⟨inside, others, hinside, rfl⟩ := (hs ▸ hb).exists_behind hlt.le
    have hne : inside ≠ [] := by
      rintro rfl
      simp at hlt
    refine ⟨_, _, hbefore, ?_, Position.after_append (s := before) hne⟩
    rw [hs, hinside, ← List.append_assoc, ← size_append, position?_size]
  · obtain ⟨p, hp, hpa⟩ := hstart a ha
    obtain ⟨q, hq, hqb⟩ := hstart b hb
    obtain rfl : p = q := Option.some.inj (hp.symm.trans (hsame.trans hq))
    omega
  · rw [position?, position?, Nat.min_eq_right hle, Nat.min_self]

/-- The places around an empty line, behind a character of two bytes. -/
theorem Text.position_exact_of_emptyLine :
    IsPlace "é\n\nx".toList 2 ∧ IsPlace "é\n\nx".toList 4 ∧
      position? "é\n\nx".toList 2 = some ⟨1, 3⟩ ∧ position? "é\n\nx".toList 4 = some ⟨3, 1⟩ ∧
      toLex ((1 : Nat), (3 : Nat)) < toLex (3, 1) ∧ 4 + 1 = lineStart "é\n\nx".toList 3 + 1 ∧
      position? "é\n\nx".toList 9 = some ⟨3, 2⟩ := by
  have hfront : IsPlace "é\n\nx".toList 2 := ⟨['é'], "\n\nx".toList, by decide, by decide⟩
  have hbehind : IsPlace "é\n\nx".toList 4 := ⟨"é\n\n".toList, ['x'], by decide, by decide⟩
  have hp : position? "é\n\nx".toList 2 = some ⟨1, 3⟩ := by decide
  have hq : position? "é\n\nx".toList 4 = some ⟨3, 1⟩ := by decide
  obtain ⟨hstart, hmono, -, hbeyond⟩ := position_exact "é\n\nx".toList
  obtain ⟨p, q, hp', hq', hlt⟩ := hmono 2 4 hfront hbehind (by decide)
  obtain rfl : p = ⟨1, 3⟩ := Option.some.inj (hp'.symm.trans hp)
  obtain rfl : q = ⟨3, 1⟩ := Option.some.inj (hq'.symm.trans hq)
  obtain ⟨q, hq', hplace⟩ := hstart 4 hbehind
  obtain rfl : q = ⟨3, 1⟩ := Option.some.inj (hq'.symm.trans hq)
  refine ⟨hfront, hbehind, hp, hq, hlt, hplace, (hbeyond 9 (by decide)).trans ?_⟩
  decide

end ScriptBundle
