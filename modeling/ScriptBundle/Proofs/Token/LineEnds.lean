import Mathlib.Logic.Relation
import Mathlib.Tactic.SplitIfs
import ScriptBundle.Document.Body
import ScriptBundle.Proofs.Token.Respacing

/-!
# Line Ends

A line may end with a line feed alone or with a carriage return in front of it. A carriage return is
white space between tokens and a plain character within them, so that no scanner takes notice of it,
with one exception: behind a backslash it is the carriage return that is escaped, and the line feed
then leaves a string or a regular expression open, which it would not do if it stood behind the
backslash itself.

## Main definitions

* `SameLines`: two texts that differ in carriage returns in front of line feeds;
* `EndsEscaped`: whether a text ends with a backslash and a line end of two characters;
* `UnbrokenTemplate`: whether no string in the substitutions of a template does.

## Main statements

* `sameLines_withLineFeeds`: a text has the same lines if they all end with line feeds alone;
* `scanBlockComment_sameLines`, `scanString_sameLines`, `scanRegex_sameLines`,
  `scanTemplate_sameLines`, `scanTrivia_sameLines`: one for each scanner.
-/

namespace ScriptBundle

/-- Two texts have the **same lines** if the second one is the first one without some of the
carriage returns in front of line feeds. -/
inductive SameLines : Text → Text → Prop
  | nil : SameLines [] []
  | char {s t : Text} (c : Char) (h : SameLines s t) : SameLines (c :: s) (c :: t)
  | pair {s t : Text} (h : SameLines s t) : SameLines ('\r' :: '\n' :: s) ('\n' :: t)

/-- Whether a text ends with a backslash in front of a line end of two characters. -/
def EndsEscaped (s : Text) : Prop := ['\\', '\r', '\n'] <:+ s

theorem EndsEscaped.append_left {s : Text} (h : EndsEscaped s) (front : Text) :
    EndsEscaped (front ++ s) :=
  h.trans (List.suffix_append _ _)

namespace SameLines

variable {s t : Text}

/-- No other text has the same lines as the empty one. -/
theorem eq_nil (h : SameLines [] t) : t = [] := by
  cases h
  rfl

/-- The first character stays, unless it is a carriage return in front of a line feed. -/
theorem cons_inv {c : Char} (h : SameLines (c :: s) t) :
    (∃ t', t = c :: t' ∧ SameLines s t') ∨
      ∃ s' t', c = '\r' ∧ s = '\n' :: s' ∧ t = '\n' :: t' ∧ SameLines s' t' := by
  cases h with
  | char _ h => exact .inl ⟨_, rfl, h⟩
  | pair h => exact .inr ⟨_, _, rfl, rfl, rfl, h⟩

/-- What texts with the same lines start with: nothing, the same character, or a line end. -/
protected theorem cases (h : SameLines s t) :
    (s = [] ∧ t = []) ∨ (∃ c s' t', s = c :: s' ∧ t = c :: t' ∧ SameLines s' t') ∨
      ∃ s', s = '\r' :: '\n' :: s' := by
  cases h with
  | nil => exact .inl ⟨rfl, rfl⟩
  | char c h => exact .inr (.inl ⟨c, _, _, rfl, rfl, h⟩)
  | pair h => exact .inr (.inr ⟨_, rfl⟩)

/-- A character other than a carriage return stays. -/
theorem cons_of_ne {c : Char} (hc : c ≠ '\r') (h : SameLines (c :: s) t) :
    ∃ t', t = c :: t' ∧ SameLines s t' := by
  obtain h | ⟨_, _, hreturn, _⟩ := h.cons_inv
  · exact h
  · exact absurd hreturn hc

/-- A text with the same lines starts with the same character, line ends apart. -/
theorem head?_iff {d : Char} (h : SameLines s t) (hreturn : d ≠ '\r') (hfeed : d ≠ '\n') :
    t.head? = some d ↔ s.head? = some d := by
  cases h with
  | nil => rfl
  | char c _ => rfl
  | pair _ => simp [Ne.symm hreturn, Ne.symm hfeed]

theorem startsComment_iff {c : Char} (h : SameLines s t) :
    startsComment c t ↔ startsComment c s := by
  rw [startsComment, startsComment, h.head?_iff (by decide) (by decide),
    h.head?_iff (by decide) (by decide)]

theorem startsSubstitution_iff {c : Char} (h : SameLines s t) :
    startsSubstitution c t ↔ startsSubstitution c s := by
  rw [startsSubstitution, startsSubstitution, h.head?_iff (by decide) (by decide)]

end SameLines

/-- A text has the **same lines** if they all end with line feeds alone. -/
theorem sameLines_withLineFeeds (s : Text) : SameLines s (withLineFeeds s) := by
  have hstart : ∀ s, withLineFeeds s = Text.replaceFrom ['\r', '\n'] ['\n'] 0 s := fun _ => rfl
  induction hlength : s.length using Nat.strongRecOn generalizing s with
  | _ n ih =>
    rw [hstart]
    cases s with
    | nil => exact .nil
    | cons c s =>
      by_cases hpair : ['\r', '\n'].isPrefixOf (c :: s) = true
      · obtain ⟨rest, hrest⟩ := List.isPrefixOf_iff_prefix.mp hpair
        obtain ⟨rfl, rfl⟩ : '\r' = c ∧ '\n' :: rest = s := by simpa using hrest
        rw [Text.replaceFrom, if_pos hpair]
        refine .pair (ih _ ?_ rest rfl)
        rw [← hlength, List.length_cons, List.length_cons]
        omega
      · rw [Text.replaceFrom, if_neg hpair]
        exact .char c (ih _ (by simp [← hlength]) s rfl)

/-- A carriage return in front of a line feed is taken out. -/
theorem withLineFeeds_pair (s : Text) :
    withLineFeeds ('\r' :: '\n' :: s) = '\n' :: withLineFeeds s := rfl

/-- Any other character stays. -/
theorem withLineFeeds_char {c : Char} {s : Text} (h : ¬['\r', '\n'] <+: c :: s) :
    withLineFeeds (c :: s) = c :: withLineFeeds s := by
  change Text.replaceFrom ['\r', '\n'] ['\n'] 0 (c :: s) = _
  rw [Text.replaceFrom, if_neg (by simpa using h)]
  rfl

/-- Where a line comes to its end, lines are made to end with line feeds alone behind it. -/
theorem scanLine_withLineFeeds (s : Text) :
    (scanLine (withLineFeeds s)).rest = withLineFeeds (scanLine s).rest := by
  induction s with
  | nil => rfl
  | cons c s ih =>
    by_cases hpair : ['\r', '\n'] <+: c :: s
    · obtain ⟨rest, hrest⟩ := hpair
      rw [← hrest]
      exact (withLineFeeds_char fun ⟨_, hnone⟩ => absurd hnone (by simp)).symm
    · rw [withLineFeeds_char hpair]
      by_cases hfeed : c = '\n'
      · subst hfeed
        exact (withLineFeeds_char hpair).symm
      · simpa [scanLine, hfeed] using ih

/-! ### Comments and names -/

section

variable {s t : Text}

/-- Characters of a kind that no line end is of come to their end at the same place. -/
theorem takeWhile_sameLines {p : Char → Bool} (hreturn : p '\r' = false) (hfeed : p '\n' = false)
    (h : SameLines s t) :
    t.takeWhile p = s.takeWhile p ∧ SameLines (s.dropWhile p) (t.dropWhile p) := by
  induction h with
  | nil => exact ⟨rfl, .nil⟩
  | @char s t c h ih =>
    by_cases hc : p c = true
    · simpa [hc] using ih
    · simpa [hc] using SameLines.char c h
  | pair h => simpa [hreturn, hfeed] using SameLines.pair h

/-- A line comes to its end in front of the same line feed. -/
theorem scanLine_sameLines (h : SameLines s t) :
    SameLines (scanLine s).rest (scanLine t).rest := by
  simp only [scanLine]
  induction h with
  | nil => exact .nil
  | @char s t c h ih =>
    by_cases hc : c = '\n'
    · subst hc
      exact .char '\n' h
    · simpa [hc] using ih
  | pair h => exact .char '\n' h

/-- A block comment is closed at the same place. -/
theorem scanBlockComment_sameLines (h : SameLines s t) :
    (scanBlockComment t).value = (scanBlockComment s).value ∧
      SameLines (scanBlockComment s).rest (scanBlockComment t).rest := by
  induction h with
  | nil => exact ⟨rfl, .nil⟩
  | @char s t c h ih =>
    by_cases hclose : c = '*' ∧ s.head? = some '/'
    · obtain ⟨rfl, hhead⟩ := hclose
      obtain ⟨s', rfl⟩ := List.head?_eq_some_iff.mp hhead
      obtain ⟨t', rfl, hbehind⟩ := h.cons_of_ne (by decide)
      exact ⟨rfl, by simpa [scanBlockComment] using hbehind⟩
    · have hhead : c = '*' → t.head? ≠ some '/' := fun hc hhead =>
        hclose ⟨hc, (h.head?_iff (by decide) (by decide)).mp hhead⟩
      rw [scanBlockComment_cons fun hc hhead => hclose ⟨hc, hhead⟩, scanBlockComment_cons hhead]
      exact ⟨by simp [ih.1], ih.2⟩
  | @pair s t h ih =>
    rw [scanBlockComment_cons fun hc => absurd hc (by decide),
      scanBlockComment_cons fun hc => absurd hc (by decide),
      scanBlockComment_cons fun hc => absurd hc (by decide)]
    exact ⟨by simp [ih.1], ih.2⟩

/-! ### Literals -/

/-- A string that is not broken is closed at the same place, and has the same value. -/
theorem scanString_sameLines {quote : Char} (hreturn : quote ≠ '\r') (h : SameLines s t)
    (hwhole : ¬EndsEscaped (scanString quote s).taken) :
    (scanString quote t).value = (scanString quote s).value ∧
      SameLines (scanString quote s).rest (scanString quote t).rest := by
  induction hlength : s.length using Nat.strongRecOn generalizing s t with
  | _ n ih =>
    cases s with
    | nil =>
      obtain rfl := h.eq_nil
      exact ⟨rfl, .nil⟩
    | cons c s =>
      obtain ⟨t, rfl, hrest⟩ | ⟨s, t, rfl, rfl, rfl, hrest⟩ := h.cons_inv
      · by_cases hback : c = '\\'
        · subst hback
          obtain ⟨rfl, rfl⟩ | ⟨d, s, t, rfl, rfl, hnext⟩ | ⟨s, rfl⟩ := hrest.cases
          · exact ⟨rfl, .nil⟩
          · rw [scanString] at hwhole ⊢
            rw [scanString]
            have hlt : s.length < n := by
              rw [← hlength, List.length_cons, List.length_cons]
              omega
            obtain ⟨hvalue, hbehind⟩ :=
              ih _ hlt hnext (fun hends => hwhole (hends.append_left ['\\', d])) rfl
            exact ⟨by simp [hvalue], hbehind⟩
          · -- here the line end is escaped
            refine absurd ?_ hwhole
            rw [scanString, scanString_cons (by decide), if_pos rfl]
            exact List.suffix_refl _
        · rw [scanString_cons hback] at hwhole ⊢
          rw [scanString_cons hback]
          split_ifs at hwhole ⊢
          · exact ⟨rfl, hrest⟩
          · exact ⟨rfl, hrest⟩
          · obtain ⟨hvalue, hbehind⟩ := ih _ (by simp [← hlength]) hrest
              (fun hends => hwhole (hends.append_left [c])) rfl
            exact ⟨by simp [hvalue], hbehind⟩
      · have hfeed : ∀ rest, scanString quote ('\n' :: rest) = ⟨none, ['\n'], rest⟩ :=
          fun rest => by
          rw [scanString_cons (by decide), if_pos rfl]
        have hpair : scanString quote ('\r' :: '\n' :: s) = ⟨none, ['\r', '\n'], s⟩ := by
          rw [scanString_cons (by decide), if_neg (by decide), if_neg (Ne.symm hreturn), hfeed]
          rfl
        rw [hpair, hfeed]
        exact ⟨rfl, hrest⟩

/-- Of a line end with two characters a backslash takes only the first one into the string. -/
example : (scanString '\'' "a\\\nb'".toList).value = some "ab".toList ∧
    (scanString '\'' "a\\\r\nb'".toList).value = none := by
  decide

/-- The body of a regular expression that is not broken is closed at the same place. -/
theorem scanRegexBody_sameLines (h : SameLines s t) {inClass : Bool}
    (hwhole : ¬EndsEscaped (scanRegexBody inClass s).taken) :
    (scanRegexBody inClass t).value = (scanRegexBody inClass s).value ∧
      SameLines (scanRegexBody inClass s).rest (scanRegexBody inClass t).rest := by
  induction hlength : s.length using Nat.strongRecOn generalizing s t inClass with
  | _ n ih =>
    cases s with
    | nil =>
      obtain rfl := h.eq_nil
      exact ⟨rfl, .nil⟩
    | cons c s =>
      obtain ⟨t, rfl, hrest⟩ | ⟨s, t, rfl, rfl, rfl, hrest⟩ := h.cons_inv
      · by_cases hback : c = '\\'
        · subst hback
          obtain ⟨rfl, rfl⟩ | ⟨d, s, t, rfl, rfl, hnext⟩ | ⟨s, rfl⟩ := hrest.cases
          · exact ⟨rfl, .nil⟩
          · rw [scanRegexBody] at hwhole ⊢
            rw [scanRegexBody]
            have hlt : s.length < n := by
              rw [← hlength, List.length_cons, List.length_cons]
              omega
            exact ih _ hlt hnext (fun hends => hwhole (hends.append_left ['\\', d])) rfl
          · refine absurd ?_ hwhole
            rw [scanRegexBody, scanRegexBody_cons (by decide), if_pos rfl]
            exact List.suffix_refl _
        · have hlt : s.length < n := by simp [← hlength]
          have hstep : ∀ inner : Bool, ¬EndsEscaped ((scanRegexBody inner s).after [c]).taken →
              (scanRegexBody inner t).value = (scanRegexBody inner s).value ∧
                SameLines (scanRegexBody inner s).rest (scanRegexBody inner t).rest :=
            fun inner hinner => ih _ hlt hrest (fun hends => hinner (hends.append_left [c])) rfl
          rw [scanRegexBody_cons hback] at hwhole ⊢
          rw [scanRegexBody_cons hback]
          split_ifs at hwhole ⊢
          · exact ⟨rfl, hrest⟩
          · exact ⟨rfl, hrest⟩
          · exact hstep true hwhole
          · exact hstep false hwhole
          · exact hstep inClass hwhole
      · have hfeed : ∀ rest, scanRegexBody inClass ('\n' :: rest) = ⟨false, ['\n'], rest⟩ :=
          fun rest => by rw [scanRegexBody_cons (by decide), if_pos rfl]
        have hpair : scanRegexBody inClass ('\r' :: '\n' :: s) = ⟨false, ['\r', '\n'], s⟩ := by
          rw [scanRegexBody_cons (by decide), if_neg (by decide), if_neg (by simp),
            if_neg (by decide), if_neg (by decide), hfeed]
          rfl
        rw [hpair, hfeed]
        exact ⟨rfl, hrest⟩

/-- A regular expression that is not broken is closed at the same place. -/
theorem scanRegex_sameLines (h : SameLines s t)
    (hwhole : ¬EndsEscaped (scanRegexBody false s).taken) :
    (scanRegex t).value = (scanRegex s).value ∧
      SameLines (scanRegex s).rest (scanRegex t).rest := by
  obtain ⟨hvalue, hrest⟩ := scanRegexBody_sameLines h hwhole
  rw [scanRegex, scanRegex, hvalue]
  split
  · exact ⟨rfl, (takeWhile_sameLines (by decide) (by decide) hrest).2⟩
  · exact ⟨hvalue, hrest⟩

/-! ### Templates -/

/-- Whether the scanner of a template goes from one place to another one in one step. -/
def TemplateMove (a b : TemplateState × Text) : Prop :=
  ∃ front crosses, TemplateStep a.1 a.2 front crosses b.1 b.2

/-- Whether a template is **unbroken**: no string in one of its substitutions ends at a line end
behind a backslash. -/
def UnbrokenTemplate (state : TemplateState) (s : Text) : Prop :=
  ∀ depth outer c rest,
    Relation.ReflTransGen TemplateMove (state, s) (.code depth outer, c :: rest) →
    (c = '\'' ∨ c = '"') → ¬EndsEscaped (scanString c rest).taken

/-- What is left of an unbroken template is unbroken. -/
theorem UnbrokenTemplate.behind {state next : TemplateState} {front rest : Text} {crosses : Bool}
    (h : UnbrokenTemplate state s) (hstep : TemplateStep state s front crosses next rest) :
    UnbrokenTemplate next rest :=
  fun depth outer c tail hreach => h depth outer c tail (.head ⟨front, crosses, hstep⟩ hreach)

/-- A step of the scanner of a template is made where the lines are the same, too. Of a line end
of two characters it may take the first one alone. -/
theorem TemplateStep.sameLines {state next : TemplateState} {front rest : Text} {crosses : Bool}
    (hstep : TemplateStep state s front crosses next rest) (h : SameLines s t)
    (hwhole : UnbrokenTemplate state s) :
    ∃ front' rest', TemplateStep state t front' crosses next rest' ∧
      (SameLines rest rest' ∨ ∃ behind, rest = '\n' :: behind ∧ SameLines behind rest') := by
  cases hstep with
  | outward depth outer =>
    obtain ⟨t, rfl, hrest⟩ := h.cons_of_ne (by decide)
    exact ⟨_, t, .outward depth outer t, .inl hrest⟩
  | escape outer d =>
    obtain ⟨t, rfl, hnext⟩ := h.cons_of_ne (by decide)
    obtain ⟨t, rfl, hrest⟩ | ⟨behind, t, rfl, rfl, rfl, hrest⟩ := hnext.cons_inv
    · exact ⟨_, t, .escape outer d t, .inl hrest⟩
    · exact ⟨_, t, .escape outer '\n' t, .inr ⟨behind, rfl, hrest⟩⟩
  | substitution outer =>
    obtain ⟨t, rfl, hnext⟩ := h.cons_of_ne (by decide)
    obtain ⟨t, rfl, hrest⟩ := hnext.cons_of_ne (by decide)
    exact ⟨_, t, .substitution outer t, .inl hrest⟩
  | character outer tick back plain =>
    obtain ⟨t, rfl, hrest⟩ | ⟨behind, t, rfl, rfl, rfl, hrest⟩ := h.cons_inv
    · exact ⟨_, t, .character outer tick back (mt hrest.startsSubstitution_iff.mp plain),
        .inl hrest⟩
    · exact ⟨_, t, .blank (by decide) _ t, .inr ⟨behind, rfl, hrest⟩⟩
  | inward depth outer =>
    obtain ⟨t, rfl, hrest⟩ := h.cons_of_ne (by decide)
    exact ⟨_, t, .inward depth outer t, .inl hrest⟩
  | lineComment depth outer =>
    obtain ⟨t, rfl, hnext⟩ := h.cons_of_ne (by decide)
    obtain ⟨t, rfl, hrest⟩ := hnext.cons_of_ne (by decide)
    exact ⟨_, _, .lineComment depth outer t, .inl (scanLine_sameLines hrest)⟩
  | blockComment depth outer =>
    obtain ⟨t, rfl, hnext⟩ := h.cons_of_ne (by decide)
    obtain ⟨t, rfl, hrest⟩ := hnext.cons_of_ne (by decide)
    obtain ⟨hvalue, hbehind⟩ := scanBlockComment_sameLines hrest
    rw [← hvalue]
    exact ⟨_, _, .blockComment depth outer t, .inl hbehind⟩
  | quoted depth outer c rest quote =>
    have hreturn : c ≠ '\r' := by rcases quote with rfl | rfl <;> decide
    obtain ⟨t, rfl, hrest⟩ := h.cons_of_ne hreturn
    have hclosed := hwhole depth outer c rest .refl quote
    exact ⟨_, _, .quoted depth outer c t quote, .inl (scanString_sameLines hreturn hrest hclosed).2⟩
  | code depth outer tick comment quote =>
    obtain ⟨t, rfl, hrest⟩ | ⟨behind, t, rfl, rfl, rfl, hrest⟩ := h.cons_inv
    · exact ⟨_, t, .code depth outer tick (mt hrest.startsComment_iff.mp comment) quote, .inl hrest⟩
    · exact ⟨_, t, .blank (by decide) _ t, .inr ⟨behind, rfl, hrest⟩⟩

/-- A template that is not broken is closed at the same place. -/
theorem scanTemplate_sameLines (h : SameLines s t) {state : TemplateState}
    (hwhole : UnbrokenTemplate state s) :
    (scanTemplate state t).value = (scanTemplate state s).value ∧
      SameLines (scanTemplate state s).rest (scanTemplate state t).rest := by
  induction hlength : s.length using Nat.strongRecOn generalizing s t state with
  | _ n ih =>
    cases templateFront state s with
    | closing rest hstate hs =>
      subst hstate hs
      obtain ⟨t, rfl, hrest⟩ := h.cons_of_ne (by decide)
      rw [scanTemplate, scanTemplate]
      exact ⟨rfl, hrest⟩
    | nothing hs =>
      subst hs
      obtain rfl := h.eq_nil
      rw [scanTemplate]
      exact ⟨rfl, .nil⟩
    | backslash outer hstate hs =>
      subst hstate hs
      obtain ⟨t, rfl, hrest⟩ := h.cons_of_ne (by decide)
      obtain rfl := hrest.eq_nil
      rw [scanTemplate]
      exact ⟨rfl, .nil⟩
    | @step front crosses next rest hstep =>
      obtain ⟨front', rest', hstep', hrest | ⟨behind, rfl, hrest⟩⟩ := hstep.sameLines h hwhole
      · obtain ⟨hvalue, hbehind⟩ :=
          ih _ (hlength ▸ hstep.length_lt) hrest (hwhole.behind hstep) rfl
        rw [hstep.scan, hstep'.scan]
        exact ⟨by simp [hvalue], hbehind⟩
      · have hfeed := TemplateStep.blank (by decide : isBlank '\n' = true) next behind
        obtain ⟨hvalue, hbehind⟩ :=
          ih _ (hlength ▸ Nat.lt_trans hfeed.length_lt hstep.length_lt) hrest
            ((hwhole.behind hstep).behind hfeed) rfl
        rw [hstep.scan, hstep'.scan, hfeed.scan]
        exact ⟨by simp [hvalue], hbehind⟩

/-! ### Trivia -/

/-- Trivia come to their end at the same place. -/
theorem scanTrivia_sameLines (h : SameLines s t) :
    (scanTrivia t).value = (scanTrivia s).value ∧
      SameLines (scanTrivia s).rest (scanTrivia t).rest := by
  induction hlength : s.length using Nat.strongRecOn generalizing s t with
  | _ n ih =>
    cases s with
    | nil =>
      obtain rfl := h.eq_nil
      rw [scanTrivia]
      exact ⟨rfl, .nil⟩
    | cons c s =>
      by_cases hcomment : startsComment c s
      · obtain ⟨rfl, hhead⟩ := hcomment
        obtain ⟨t, rfl, hrest⟩ := h.cons_of_ne (by decide)
        rcases hhead with hhead | hhead
        · obtain ⟨s, rfl⟩ := List.head?_eq_some_iff.mp hhead
          obtain ⟨t, rfl, hnext⟩ := hrest.cons_of_ne (by decide)
          have hlt : (scanLine s).rest.length < n := by
            have := scanLine_length s
            simp only [← hlength, List.length_cons]
            omega
          rw [scanTrivia, scanTrivia]
          exact ih _ hlt (scanLine_sameLines hnext) rfl
        · obtain ⟨s, rfl⟩ := List.head?_eq_some_iff.mp hhead
          obtain ⟨t, rfl, hnext⟩ := hrest.cons_of_ne (by decide)
          obtain ⟨hcvalue, hcrest⟩ := scanBlockComment_sameLines hnext
          have hlt : (scanBlockComment s).rest.length < n := by
            have := scanBlockComment_length s
            simp only [← hlength, List.length_cons]
            omega
          obtain ⟨hvalue, hbehind⟩ := ih _ hlt hcrest rfl
          rw [scanTrivia, scanTrivia]
          exact ⟨by simp [hvalue, hcvalue], hbehind⟩
      · obtain ⟨t, rfl, hrest⟩ | ⟨s, t, rfl, rfl, rfl, hrest⟩ := h.cons_inv
        · rw [scanTrivia_cons hcomment, scanTrivia_cons (mt hrest.startsComment_iff.mp hcomment)]
          split
          · obtain ⟨hvalue, hbehind⟩ := ih _ (by simp [← hlength]) hrest rfl
            exact ⟨by simp [hvalue], hbehind⟩
          · exact ⟨rfl, h⟩
        · have hfeed : ∀ rest, scanTrivia ('\n' :: rest) =
              ((scanTrivia rest).map fun _ => true).after ['\n'] := fun rest => by
            rw [scanTrivia_cons (not_startsComment_of_ne (by decide)), if_pos (by decide)]
            rfl
          have hlt : s.length < n := by
            rw [← hlength, List.length_cons, List.length_cons]
            omega
          rw [scanTrivia_cons hcomment, if_pos (by decide), hfeed, hfeed]
          exact ⟨rfl, (ih _ hlt hrest rfl).2⟩

end

end ScriptBundle
