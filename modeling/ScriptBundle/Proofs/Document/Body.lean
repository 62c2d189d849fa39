import ScriptBundle.Document.Body
import ScriptBundle.Proofs.Document.BlankLines

/-!
# Tokens of Bodies

A body has the tokens of the stripped source, and at most a semicolon in front of them: cutting down
blank lines and trimming write white space anew, and the guard is a token by itself. White space
inside of tokens that are not closed is written anew, too, so that only the shapes of tokens are
compared here.

## Main definitions

* `guardOf`: the semicolon in front of a body;
* `ReadsOn`: whether a body is read like the source that it comes from.

## Main statements

* `exists_of_trim`: trimming takes white space away at both ends;
* `shapes_moduleBody`: the tokens of a body.
-/

namespace ScriptBundle

/-! ### Trimming -/

/-- Trimming takes white space away at both ends. -/
theorem exists_of_trim (s : Text) :
    ∃ front behind, IsBlankText front ∧ IsBlankText behind ∧
      s = front ++ (Text.trim s ++ behind) := by
  have hblank : ∀ u : Text, IsBlankText (u.takeWhile isBlank) :=
    fun u => List.all_eq_true.mp List.all_takeWhile
  refine ⟨s.takeWhile isBlank, ((Text.trimStart s).reverse.takeWhile isBlank).reverse, hblank s,
    fun c hc => hblank _ c (List.mem_reverse.mp hc), ?_⟩
  have hend : Text.trim s ++ ((Text.trimStart s).reverse.takeWhile isBlank).reverse =
      Text.trimStart s := by
    rw [Text.trim, Text.trimEnd, ← List.reverse_append, List.takeWhile_append_dropWhile,
      List.reverse_reverse]
  rw [hend, Text.trimStart, List.takeWhile_append_dropWhile]

/-- A trimmed text has the same tokens. -/
theorem shapes_trim {inner outer : LexState} (hstate : LexState.Within [] [] inner outer)
    (s : Text) :
    (lexemes outer (Text.trim s)).map (·.kind.shape) = (lexemes inner s).map (·.kind.shape) := by
  obtain ⟨front, behind, hfront, hbehind, hs⟩ := exists_of_trim s
  have hsame : RespacedLoosely (fun _ => false) 0 s (Text.trim s ++ behind) :=
    ⟨front, [], _, _, hfront, by simp [IsBlankText], hs, rfl, .refl _ _ _⟩
  rw [← shapes_respaced hsame hstate, shapes_blank_behind hbehind (.refl outer)]

/-! ### The line that is read by no one -/

/-- A text that starts with such a line, and what is left behind it. -/
theorem exists_of_hashbang {s : Text} (h : hashbang s ≠ []) :
    ∃ rest, s = '#' :: '!' :: rest ∧ afterHashbang s = (scanLine rest).rest := by
  unfold hashbang at h
  split at h
  · next rest => exact ⟨rest, rfl, rfl⟩
  · simp at h

/-- A line in front of white space. -/
theorem scanLine_blank_behind {b : Text} (hb : IsBlankText b) (s : Text) :
    LeavesBlank b (scanLine s).rest (scanLine (s ++ b)).rest := by
  simp only [scanLine, List.dropWhile_append]
  split
  · next hempty =>
    refine .blank (List.isEmpty_iff.mp hempty) fun c hc => ?_
    exact hb c ((List.dropWhile_suffix _).subset hc)
  · exact .kept

/-- A text that starts with such a line before and after is trimmed and cut down behind it. -/
theorem leavesBlank_behind_hashbang {s : Text} (hs : hashbang s ≠ [])
    (htrim : hashbang (Text.trim (collapseBlankLines s)) ≠ []) :
    ∃ b, IsBlankText b ∧ LeavesBlank b (afterHashbang (Text.trim (collapseBlankLines s)))
      (collapseBlankLines (afterHashbang s)) := by
  obtain ⟨rest, rfl, hafter⟩ := exists_of_hashbang hs
  obtain ⟨kept, hkept, hafter'⟩ := exists_of_hashbang htrim
  obtain ⟨front, behind, hfront, hbehind, hwhole⟩ :=
    exists_of_trim (collapseBlankLines ('#' :: '!' :: rest))
  rw [collapseBlankLines_cons (by decide), collapseBlankLines_cons (by decide)] at hkept hwhole
  have hrest : collapseBlankLines rest = kept ++ behind := by
    rw [hkept] at hwhole
    cases front with
    | nil => simpa using hwhole
    | cons c front =>
      obtain rfl : '#' = c := by simpa using congrArg List.head? hwhole
      exact absurd (hfront '#' (by simp)) (by decide)
  refine ⟨behind, hbehind, ?_⟩
  rw [hafter, hafter', ← scanLine_collapseBlankLines, hrest]
  exact scanLine_blank_behind hbehind kept

/-- A text that starts with such a line has the tokens behind it. -/
theorem shapes_behind_hashbang {s : Text} (hs : hashbang s ≠ [])
    (htrim : hashbang (Text.trim (collapseBlankLines s)) ≠ []) :
    (tokenize (Text.trim (collapseBlankLines s))).map (·.kind.shape) =
      (tokenize s).map (·.kind.shape) := by
  obtain ⟨b, hb, hleaves⟩ := leavesBlank_behind_hashbang hs htrim
  have hcollapsed := (respaced_collapseBlankLines 0 (afterHashbang s)).loosely
  rw [tokenize_map (·.kind.shape), tokenize_map (·.kind.shape),
    ← shapes_of_leavesBlank hb hleaves .initial, shapes_respaced hcollapsed (.refl .initial)]

/-! ### Bodies -/

/-- The semicolon in front of a body, if there is one. -/
def guardOf (body : Text) : Text :=
  if (lexeme? .initial (afterHashbang body)).any (·.1.kind.continuesPreviousLine) then [';'] else []

theorem guarded_eq (body : Text) : guarded body = guardOf body ++ body := by
  unfold guarded guardOf
  cases lexeme? .initial (afterHashbang body) with
  | none => rfl
  | some found =>
    obtain ⟨l, rest⟩ := found
    cases hkind : l.kind.continuesPreviousLine <;> simp [hkind]

/-- A body is a trimmed text, in front of which there may be a semicolon. -/
theorem moduleBody_cases {source stripped body : Text}
    (hstrip : strip (withLineFeeds source) = .ok stripped) (hbody : moduleBody source = .ok body) :
    body = Text.trim (collapseBlankLines stripped) ∨
      body = ';' :: Text.trim (collapseBlankLines stripped) := by
  have hguarded : body = guarded (Text.trim (collapseBlankLines stripped)) := by
    rw [moduleBody, hstrip] at hbody
    exact (Except.ok.inj hbody).symm
  rw [hguarded, guarded_eq, guardOf]
  split
  · exact .inr rfl
  · exact .inl rfl

/-- Where a body comes from, it has the same tokens, and at most a semicolon in front of them. -/
theorem shapes_moduleBody {source stripped body : Text}
    (hstrip : strip (withLineFeeds source) = .ok stripped) (hbody : moduleBody source = .ok body)
    (hfront : hashbang body = [] ↔ hashbang stripped = []) :
    ∃ guard, (guard = [] ∨ guard = [.punctuator ';']) ∧
      (tokenize body).map (·.kind.shape) = guard ++ (tokenize stripped).map (·.kind.shape) := by
  have hcases := moduleBody_cases hstrip hbody
  have hshapes : ∀ outer, LexState.Within [] [] .initial outer →
      (lexemes outer (Text.trim (collapseBlankLines stripped))).map (·.kind.shape) =
        (lexemes .initial stripped).map (·.kind.shape) := by
    intro outer houter
    have hcollapsed := (respaced_collapseBlankLines 0 stripped).loosely
    rw [shapes_trim houter, shapes_respaced hcollapsed (.refl .initial)]
  by_cases hnone : hashbang stripped = []
  · have hnone' : hashbang body = [] := hfront.mpr hnone
    rw [tokenize_map (·.kind.shape), tokenize_map (·.kind.shape), afterHashbang_eq_self hnone,
      afterHashbang_eq_self hnone']
    rcases hcases with hcase | hcase
    · exact ⟨[], .inl rfl, by rw [hcase, hshapes _ (.refl _), List.nil_append]⟩
    · refine ⟨[.punctuator ';'], .inr rfl, ?_⟩
      have hstate : LexState.Within [] [] .initial (LexState.initial.next (.punctuator ';')) :=
        ⟨rfl, rfl, rfl, rfl, rfl⟩
      rw [hcase, (lexemes_of_some (lexeme?_semicolon _ _)).1, List.map_cons, hshapes _ hstate]
      rfl
  · have hsome : hashbang body ≠ [] := mt hfront.mp hnone
    rcases hcases with hcase | hcase
    · rw [hcase] at hsome ⊢
      exact ⟨[], .inl rfl, shapes_behind_hashbang hnone hsome⟩
    · rw [hcase] at hsome
      exact absurd rfl hsome

/-- Whether a body is **read on** like the source of its module: slashes and the line that is read
by no one mean what they did before. -/
structure ReadsOn (source body : Text) : Prop where
  keeps : KeepsReading (withLineFeeds source)
  front : hashbang body = [] ↔ hashbang (withLineFeeds source) = []

/-- Such a body starts with a line that is read by no one exactly if the stripped source does. -/
theorem ReadsOn.hashbang_iff {source stripped body : Text} (h : ReadsOn source body)
    (hstrip : strip (withLineFeeds source) = .ok stripped) :
    hashbang body = [] ↔ hashbang stripped = [] := by
  rw [h.front, h.keeps.hashbang stripped hstrip]

/-- A body is read on if its source has neither slashes nor number signs, and it has none of these
signs. -/
theorem readsOn_of_plain {source body : Text} (hfeeds : withLineFeeds source = source)
    (hslash : '/' ∉ source) (hmark : '#' ∉ source) (hbody : '#' ∉ body) : ReadsOn source body where
  keeps := hfeeds.symm ▸ keepsReading_of_plain hslash hmark
  front := by rw [hfeeds, hashbang_of_no_mark hmark, hashbang_of_no_mark hbody]

end ScriptBundle
