import ScriptBundle.Proofs.Token.Extension

/-!
# White Space Behind Line Feeds

The document writes the white space behind line feeds anew: it moves lines to the right, empties
blank ones and cuts runs of them short. A line feed separates tokens wherever it stands, so no
scanner takes notice, except that the characters of strings and templates are no longer the same.

## Main definitions

* `Respaced`: two texts that differ in the white space behind some of their line feeds;
* `RespacedLoosely`: the same with other white space at the front, too.

## Main statements

* `Respaced.of_append`: a part of a text in which no line feed may be touched stays as it is;
* `scanTrivia_blank` and its companions: what each scanner does with white space.
-/

namespace ScriptBundle

/-- Whether a text is white space alone. -/
def IsBlankText (s : Text) : Prop := ∀ c ∈ s, isBlank c = true

theorem IsBlankText.of_append_right {s t : Text} (h : IsBlankText (s ++ t)) : IsBlankText t :=
  fun c hc => h c (by simp [hc])

/-- Two texts are **respaced** if they differ in the white space behind some line feeds. The first
one starts at `offset`, and the line that starts at an offset that is `fixed` is not touched. White
space with a line feed takes the place of white space with a line feed. -/
inductive Respaced (fixed : Nat → Bool) : (offset : Nat) → Text → Text → Prop
  | nil (offset : Nat) : Respaced fixed offset [] []
  | cons {offset : Nat} {s t : Text} (c : Char) (h : Respaced fixed (offset + c.utf8Size) s t) :
      Respaced fixed offset (c :: s) (c :: t)
  | gap {offset : Nat} {s t before after : Text} (hmovable : fixed (offset + 1) = false)
      (hbefore : IsBlankText before) (hafter : IsBlankText after)
      (hfeeds : '\n' ∈ before ↔ '\n' ∈ after)
      (h : Respaced fixed (offset + 1 + Text.size before) s t) :
      Respaced fixed offset ('\n' :: (before ++ s)) ('\n' :: (after ++ t))

/-- Two texts are **loosely respaced** if they are behind white space of any kind. -/
def RespacedLoosely (fixed : Nat → Bool) (offset : Nat) (s t : Text) : Prop :=
  ∃ before after s' t', IsBlankText before ∧ IsBlankText after ∧ s = before ++ s' ∧
    t = after ++ t' ∧ Respaced fixed (offset + Text.size before) s' t'

namespace Respaced

variable {fixed : Nat → Bool} {offset : Nat} {s t : Text}

/-- Every text is respaced to itself. -/
theorem refl (fixed : Nat → Bool) (offset : Nat) (s : Text) : Respaced fixed offset s s := by
  induction s generalizing offset with
  | nil => exact .nil offset
  | cons c s ih => exact .cons c (ih _)

theorem loosely (h : Respaced fixed offset s t) : RespacedLoosely fixed offset s t :=
  ⟨[], [], s, t, by simp [IsBlankText], by simp [IsBlankText], rfl, rfl, h⟩

/-- A text in front of another one may be respaced by itself. -/
theorem append_right (h : Respaced fixed offset s t) (u : Text) :
    Respaced fixed offset (s ++ u) (t ++ u) := by
  induction h with
  | nil offset => exact .refl fixed offset u
  | cons c _ ih => exact .cons c ih
  | gap hmovable hbefore hafter hfeeds _ ih =>
    rw [List.cons_append, List.cons_append, List.append_assoc, List.append_assoc]
    exact .gap hmovable hbefore hafter hfeeds ih

/-- Nothing is respaced to nothing alone. -/
theorem eq_nil (h : Respaced fixed offset [] t) : t = [] := by
  generalize hs : ([] : Text) = s at h
  cases h with
  | nil => rfl
  | cons c h => simp at hs
  | gap => simp at hs

/-- The first character stays, and behind a line feed white space may differ. -/
theorem cons_inv {c : Char} (h : Respaced fixed offset (c :: s) t) :
    (∃ t', t = c :: t' ∧ Respaced fixed (offset + c.utf8Size) s t') ∨
      ∃ before after s' t', c = '\n' ∧ s = before ++ s' ∧ t = '\n' :: (after ++ t') ∧
        fixed (offset + 1) = false ∧ IsBlankText before ∧ IsBlankText after ∧
        ('\n' ∈ before ↔ '\n' ∈ after) ∧
        Respaced fixed (offset + 1 + Text.size before) s' t' := by
  generalize hs : c :: s = whole at h
  cases h with
  | nil => simp at hs
  | cons d h =>
    obtain ⟨rfl, rfl⟩ : c = d ∧ s = _ := by simpa using hs
    exact .inl ⟨_, rfl, h⟩
  | gap hmovable hbefore hafter hfeeds h =>
    obtain ⟨rfl, rfl⟩ : c = '\n' ∧ s = _ := by simpa using hs
    exact .inr ⟨_, _, _, _, rfl, rfl, rfl, hmovable, hbefore, hafter, hfeeds, h⟩

/-- A character other than a line feed has nothing behind it that may differ. -/
theorem cons_of_ne {c : Char} (hc : c ≠ '\n') (h : Respaced fixed offset (c :: s) t) :
    ∃ t', t = c :: t' ∧ Respaced fixed (offset + c.utf8Size) s t' := by
  obtain h | ⟨_, _, _, _, hfeed, _⟩ := h.cons_inv
  · exact h
  · exact absurd hfeed hc

/-- Behind a line feed the texts are loosely respaced. -/
theorem lineFeed_inv (h : Respaced fixed offset ('\n' :: s) t) :
    ∃ t', t = '\n' :: t' ∧ RespacedLoosely fixed (offset + 1) s t' := by
  obtain ⟨t', rfl, hrest⟩ | ⟨before, after, s', t', -, rfl, rfl, -, hbefore, hafter, -, hrest⟩ :=
    h.cons_inv
  · exact ⟨t', rfl, hrest.loosely⟩
  · exact ⟨_, rfl, before, after, s', t', hbefore, hafter, rfl, rfl, hrest⟩

/-- Behind the first character the texts are at least loosely respaced. -/
theorem cons_loosely {c : Char} (h : Respaced fixed offset (c :: s) t) :
    ∃ t', t = c :: t' ∧ RespacedLoosely fixed (offset + c.utf8Size) s t' := by
  obtain ⟨t', rfl, hrest⟩ | ⟨before, after, s', t', rfl, rfl, rfl, -, hbefore, hafter, -, hrest⟩ :=
    h.cons_inv
  · exact ⟨t', rfl, hrest.loosely⟩
  · exact ⟨_, rfl, before, after, s', t', hbefore, hafter, rfl, rfl, hrest⟩

/-- Respaced texts start with the same character. -/
theorem head? (h : Respaced fixed offset s t) : t.head? = s.head? := by
  cases h <;> rfl

theorem startsComment_iff {c : Char} (h : Respaced fixed offset (c :: s) (c :: t)) :
    startsComment c t ↔ startsComment c s := by
  obtain ⟨t', ht, hrest⟩ | ⟨_, _, _, _, rfl, _⟩ := h.cons_inv
  · obtain rfl : t = t' := by simpa using ht
    simp [startsComment, hrest.head?]
  · simp [startsComment]

theorem startsSubstitution_iff {c : Char} (h : Respaced fixed offset (c :: s) (c :: t)) :
    startsSubstitution c t ↔ startsSubstitution c s := by
  obtain ⟨t', ht, hrest⟩ | ⟨_, _, _, _, rfl, _⟩ := h.cons_inv
  · obtain rfl : t = t' := by simpa using ht
    simp [startsSubstitution, hrest.head?]
  · simp [startsSubstitution]

/-- A part of a text in which no line feed may be touched stays as it is. -/
theorem of_append {u : Text} (h : Respaced fixed offset (u ++ s) t)
    (hfixed : ∀ n, offset < n → n < offset + Text.size u → fixed n = true)
    (hlast : u.getLast? ≠ some '\n') :
    ∃ t', t = u ++ t' ∧ Respaced fixed (offset + Text.size u) s t' := by
  induction u generalizing offset t with
  | nil => exact ⟨t, rfl, h⟩
  | cons c u ih =>
    have hpos := c.utf8Size_pos
    obtain ⟨t', rfl, hrest⟩ | ⟨_, _, _, _, rfl, _, _, hmovable, _⟩ := cons_inv h
    · have hlast' : u.getLast? ≠ some '\n' := by
        intro hu
        exact hlast (by simp [List.getLast?_cons, hu])
      obtain ⟨t'', rfl, hafter⟩ := ih hrest
        (fun n hn hlt => hfixed n (by omega) (by simp only [Text.size_cons]; omega)) hlast'
      exact ⟨t'', rfl, by simpa [Nat.add_assoc] using hafter⟩
    · have hu : 0 < Text.size u := by
        cases u with
        | nil => simp at hlast
        | cons d u =>
          have := d.utf8Size_pos
          simp only [Text.size_cons]
          omega
      have hfeed : Char.utf8Size '\n' = 1 := rfl
      have := hfixed (offset + 1) (by omega) (by simp only [Text.size_cons]; omega)
      simp [hmovable] at this

end Respaced

/-! ### Scanners at white space -/

/-- White space holds none of the characters that mean something to a scanner. -/
theorem ne_of_isBlank {c d : Char} (hc : isBlank c = true) (hd : isBlank d = false) : c ≠ d := by
  rintro rfl
  simp [hc] at hd

/-- White space starts no comment. -/
theorem not_startsComment_of_isBlank {c : Char} (hc : isBlank c = true) (rest : Text) :
    ¬startsComment c rest :=
  fun h => ne_of_isBlank hc (by decide) h.1

theorem isSpacing_of_isBlank {c : Char} (hc : isBlank c = true) : isSpacing c = true := by
  simp [isSpacing, hc]

/-- A character of white space takes the scanner of a template nowhere else. -/
theorem TemplateStep.blank {c : Char} (hc : isBlank c = true) (state : TemplateState)
    (rest : Text) :
    TemplateStep state (c :: rest) [c] false state rest := by
  have hne : ∀ d, isBlank d = false → ¬c = d := fun d hd => ne_of_isBlank hc hd
  cases state with
  | text outer =>
    exact .character outer (hne _ (by decide)) (hne _ (by decide))
      fun hsub => hne _ (by decide) hsub.1
  | code depth outer =>
    have hbehind : behindCode depth outer c = .code depth outer := by
      rw [behindCode, if_neg (hne _ (by decide)), if_neg (hne _ (by decide))]
    have hcode := TemplateStep.code depth outer (hne _ (by decide))
      (not_startsComment_of_isBlank hc rest) (by simp [hne '\'' (by decide), hne '"' (by decide)])
    rwa [hbehind] at hcode

section

variable {b : Text} (hb : IsBlankText b) (s : Text)
include hb

/-- White space between tokens is passed. -/
theorem scanTrivia_blank : ∃ crosses, scanTrivia (b ++ s) =
    ((scanTrivia s).map (crosses || ·)).after b := by
  induction b with
  | nil => exact ⟨false, rfl⟩
  | cons c b ih =>
    obtain ⟨crosses, hs⟩ := ih fun d hd => hb d (by simp [hd])
    have hc := hb c (by simp)
    refine ⟨isLineEnd c || crosses, ?_⟩
    rw [List.cons_append, scanTrivia_cons (not_startsComment_of_isBlank hc _),
      if_pos (isSpacing_of_isBlank hc), hs]
    simp [Scan.map, Scan.after, Bool.or_assoc]

/-- White space in front of a text closes no comment. -/
theorem leavesCommentOpen_blank : leavesCommentOpen (b ++ s) = leavesCommentOpen s := by
  induction b with
  | nil => rfl
  | cons c b ih =>
    rw [List.cons_append, leavesCommentOpen_cons (not_startsComment_of_isBlank (hb c (by simp)) _)]
    exact ih fun d hd => hb d (by simp [hd])

/-- White space in a block comment is passed. -/
theorem scanBlockComment_blank : ∃ crosses, scanBlockComment (b ++ s) =
    ((scanBlockComment s).map fun comment =>
      { comment with crossesLine := crosses || comment.crossesLine }).after b := by
  induction b with
  | nil => exact ⟨false, rfl⟩
  | cons c b ih =>
    obtain ⟨crosses, hs⟩ := ih fun d hd => hb d (by simp [hd])
    have hstar : c ≠ '*' := ne_of_isBlank (hb c (by simp)) (by decide)
    refine ⟨c == '\n' || crosses, ?_⟩
    rw [List.cons_append, scanBlockComment_cons fun hc => absurd hc hstar, hs]
    simp [Scan.map, Scan.after, Bool.or_assoc]

/-- White space in a template or in one of its substitutions is passed. -/
theorem scanTemplate_blank (state : TemplateState) :
    scanTemplate state (b ++ s) = (scanTemplate state s).after b := by
  induction b with
  | nil => rfl
  | cons c b ih =>
    have hrest := ih fun d hd => hb d (by simp [hd])
    rw [List.cons_append, (TemplateStep.blank (hb c (by simp)) state (b ++ s)).scan, hrest]
    rfl

/-- White space on one line is part of a regular expression. -/
theorem scanRegexBody_blank (hfeed : '\n' ∉ b) (inClass : Bool) :
    scanRegexBody inClass (b ++ s) = (scanRegexBody inClass s).after b := by
  induction b with
  | nil => rfl
  | cons c b ih =>
    have hc := hb c (by simp)
    have hne : ∀ d, isBlank d = false → ¬c = d := fun d hd => ne_of_isBlank hc hd
    simp only [List.mem_cons, not_or] at hfeed
    rw [List.cons_append, scanRegexBody_cons (hne _ (by decide)), if_neg (Ne.symm hfeed.1),
      if_neg (by simp [hne '/' (by decide)]), if_neg (hne _ (by decide)),
      if_neg (hne _ (by decide)), ih (fun d hd => hb d (by simp [hd])) hfeed.2]
    rfl

/-- A regular expression ends without a closing slash at a line feed in white space. -/
theorem scanRegexBody_blank_lineFeed (hfeed : '\n' ∈ b) (inClass : Bool) :
    ∃ front behind, b = front ++ behind ∧
      scanRegexBody inClass (b ++ s) = ⟨false, front, behind ++ s⟩ := by
  induction b with
  | nil => simp at hfeed
  | cons c b ih =>
    have hc := hb c (by simp)
    have hne : ∀ d, isBlank d = false → ¬c = d := fun d hd => ne_of_isBlank hc hd
    by_cases hcfeed : c = '\n'
    · refine ⟨[c], b, rfl, ?_⟩
      rw [List.cons_append, scanRegexBody_cons (hne _ (by decide)), if_pos hcfeed, hcfeed]
    · obtain ⟨front, behind, hsplit, hs⟩ := ih (fun d hd => hb d (by simp [hd]))
        (by simpa [Ne.symm hcfeed] using hfeed)
      refine ⟨c :: front, behind, by rw [hsplit, List.cons_append], ?_⟩
      rw [List.cons_append, scanRegexBody_cons (hne _ (by decide)), if_neg hcfeed,
        if_neg (by simp [hne '/' (by decide)]), if_neg (hne _ (by decide)),
        if_neg (hne _ (by decide)), hs]
      rfl

/-- White space on one line is part of a string. -/
theorem scanString_blank (hfeed : '\n' ∉ b) {quote : Char} (hquote : isBlank quote = false) :
    scanString quote (b ++ s) =
      ((scanString quote s).map fun value => value.map (b ++ ·)).after b := by
  induction b with
  | nil => simp [Scan.map, Scan.after]
  | cons c b ih =>
    have hc := hb c (by simp)
    simp only [List.mem_cons, not_or] at hfeed
    rw [List.cons_append, scanString_cons (ne_of_isBlank hc (by decide)),
      if_neg (Ne.symm hfeed.1), if_neg (ne_of_isBlank hc hquote),
      ih (fun d hd => hb d (by simp [hd])) hfeed.2]
    simp [Scan.map, Scan.after, Option.map_map, Function.comp_def]

/-- A string ends without a closing quote at a line feed in white space. -/
theorem scanString_blank_lineFeed (hfeed : '\n' ∈ b) {quote : Char}
    (hquote : isBlank quote = false) :
    ∃ front behind, b = front ++ behind ∧
      scanString quote (b ++ s) = ⟨none, front, behind ++ s⟩ := by
  induction b with
  | nil => simp at hfeed
  | cons c b ih =>
    have hc := hb c (by simp)
    by_cases hcfeed : c = '\n'
    · refine ⟨[c], b, rfl, ?_⟩
      rw [List.cons_append, scanString_cons (ne_of_isBlank hc (by decide)), if_pos hcfeed, hcfeed]
    · obtain ⟨front, behind, hsplit, hs⟩ := ih (fun d hd => hb d (by simp [hd]))
        (by simpa [Ne.symm hcfeed] using hfeed)
      refine ⟨c :: front, behind, by rw [hsplit, List.cons_append], ?_⟩
      rw [List.cons_append, scanString_cons (ne_of_isBlank hc (by decide)), if_neg hcfeed,
        if_neg (ne_of_isBlank hc hquote), hs]
      rfl

end

end ScriptBundle
