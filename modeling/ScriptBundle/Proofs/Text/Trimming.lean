import Mathlib.Data.List.DropRight
import ScriptBundle.Text.Blank

/-!
# Trimmed Ends of Texts

A text is trimmed at its end of white space or of one character. Either way the last character that
is kept decides how far that goes, so that the front of the text stays as it is.

## Main statements

* `rdropWhile_append`: a text behind another one is trimmed by itself, unless nothing is left of it;
* `trimEndOf_eq_self`, `trimEndOf_append_replicate`: what is trimmed of a character.
-/

namespace ScriptBundle

/-! ### Characters of a kind -/

section

variable {p : Char → Bool}

/-- A text behind another one is trimmed by itself, unless nothing is left of it. -/
theorem rdropWhile_append (s t : Text) :
    (s ++ t).rdropWhile p =
      if t.rdropWhile p = [] then s.rdropWhile p else s ++ t.rdropWhile p := by
  simp only [List.rdropWhile, List.reverse_append, List.dropWhile_append, List.isEmpty_iff,
    List.reverse_eq_nil_iff]
  split
  · rfl
  · rw [List.reverse_append, List.reverse_reverse]

/-- A character of another kind stays at the front. -/
theorem rdropWhile_cons {c : Char} (hc : p c = false) (s : Text) :
    List.rdropWhile p (c :: s) = c :: s.rdropWhile p := by
  rw [← List.singleton_append, rdropWhile_append]
  split
  · next hnone => rw [hnone, List.rdropWhile_singleton, if_neg (by simp [hc])]
  · rfl

end

/-! ### White space -/

theorem trimEnd_append (s t : Text) : Text.trimEnd (s ++ t) =
    if Text.trimEnd t = [] then Text.trimEnd s else s ++ Text.trimEnd t :=
  rdropWhile_append s t

theorem trimEnd_cons {c : Char} (hc : isBlank c = false) (s : Text) :
    Text.trimEnd (c :: s) = c :: Text.trimEnd s :=
  rdropWhile_cons hc s

/-! ### One character -/

theorem trimEndOf_append (c : Char) (s t : Text) : Text.trimEndOf c (s ++ t) =
    if Text.trimEndOf c t = [] then Text.trimEndOf c s else s ++ Text.trimEndOf c t :=
  rdropWhile_append s t

/-- Trimming at the end keeps everything up to a character that is kept. -/
theorem trimEndOf_cons {c d : Char} (h : d ≠ c) (s : Text) :
    Text.trimEndOf c (d :: s) = d :: Text.trimEndOf c s :=
  rdropWhile_cons (p := (· == c)) (beq_false_of_ne h) s

/-- Trimming leaves the front of a text. -/
theorem trimEndOf_prefix (c : Char) (s : Text) : Text.trimEndOf c s <+: s :=
  List.rdropWhile_prefix (· == c) s

/-- What is trimmed does not end with the character that is trimmed. -/
theorem getLast?_trimEndOf (c : Char) (s : Text) : (Text.trimEndOf c s).getLast? ≠ some c := by
  intro hlast
  obtain ⟨hne, hlast⟩ := List.mem_getLast?_eq_getLast hlast
  exact List.rdropWhile_last_not (· == c) s hne (beq_iff_eq.mpr hlast.symm)

/-- A text that does not end with a character is not trimmed of it. -/
theorem trimEndOf_eq_self {c : Char} {s : Text} (h : s.getLast? ≠ some c) :
    Text.trimEndOf c s = s := by
  refine List.rdropWhile_eq_self_iff.mpr fun hne hlast => h ?_
  rw [List.getLast?_eq_some_getLast hne, beq_iff_eq.mp hlast]

/-- All of a character is trimmed at the end of a text. -/
theorem trimEndOf_append_replicate (c : Char) (s : Text) (n : Nat) :
    Text.trimEndOf c (s ++ List.replicate n c) = Text.trimEndOf c s := by
  have hnone : List.rdropWhile (· == c) (List.replicate n c) = [] :=
    List.rdropWhile_eq_nil_iff.mpr fun d hd => beq_iff_eq.mpr (List.eq_of_mem_replicate hd)
  exact (trimEndOf_append c s _).trans (if_pos hnone)

end ScriptBundle
