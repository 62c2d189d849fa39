import ScriptBundle.Proofs.Token.LineEnds

/-!
# Tokens of the Same Lines

Two texts with the same lines have the same tokens, as far as kinds and lines tell, if none of their
literals is broken by an escaped line end.

## Main definitions

* `Unbroken`: whether no literal of a text is broken by an escaped line end;
* `Lexeme.reading`: what a reader of module syntax sees of a lexeme.

## Main statements

* `lexemes_sameLines`, `tokenize_withLineFeeds`: unbroken texts with the same lines read the same;
* `unbroken_of_lexemes`: a text is unbroken if no token holds a backslash in front of a line end of
  two characters.
-/

namespace ScriptBundle

/-- Whether the literal that starts with `c` is **unbroken**, if there is one: it does not end at a
line end behind a backslash, and neither does a string in it. -/
structure UnbrokenToken (regexAllowed : Bool) (c : Char) (rest : Text) : Prop where
  string : (c = '\'' ∨ c = '"') → ¬EndsEscaped (scanString c rest).taken
  template : c = '\x60' → UnbrokenTemplate (.text []) rest
  regex : c = '/' → regexAllowed = true → ¬EndsEscaped (scanRegexBody false rest).taken

/-- Whether all literals of a text are **unbroken**. -/
inductive Unbroken : LexState → Text → Prop
  | nothing {state : LexState} {s : Text} (h : (scanTrivia s).rest = []) : Unbroken state s
  | token {state : LexState} {s rest : Text} {c : Char} (h : (scanTrivia s).rest = c :: rest)
      (hliteral : UnbrokenToken state.regexAllowed c rest)
      (hbehind : Unbroken (state.next (scanToken state.regexAllowed c rest).value.1)
        (scanToken state.regexAllowed c rest).rest) : Unbroken state s

/-- What a **reader** sees of a lexeme: its kind, and whether a line ends in front of it. -/
def Lexeme.reading (l : Lexeme) : TokenKind × Bool := (l.kind, l.newlineBefore)

section

variable {s t : Text}

/-- A token that is not broken is the same where the lines are the same. -/
theorem scanToken_sameLines {regexAllowed : Bool} {c : Char} (h : SameLines s t)
    (hwhole : UnbrokenToken regexAllowed c s) :
    (scanToken regexAllowed c t).value = (scanToken regexAllowed c s).value ∧
      SameLines (scanToken regexAllowed c s).rest (scanToken regexAllowed c t).rest := by
  cases tokenStart regexAllowed c with
  | identifier hname =>
    obtain ⟨hpart, hrest⟩ := takeWhile_sameLines (p := isIdentifierPart) (by decide) (by decide) h
    rw [scanToken_identifier hname, scanToken_identifier hname, hpart]
    exact ⟨rfl, hrest⟩
  | number hname hdigit =>
    obtain ⟨-, hrest⟩ := takeWhile_sameLines (p := isNumberPart) (by decide) (by decide) h
    rw [scanToken_number hname hdigit, scanToken_number hname hdigit]
    exact ⟨rfl, hrest⟩
  | quote hquote =>
    have hreturn : c ≠ '\r' := by rcases hquote with rfl | rfl <;> decide
    obtain ⟨hvalue, hrest⟩ := scanString_sameLines hreturn h (hwhole.string hquote)
    rw [scanToken_quote hquote, scanToken_quote hquote]
    exact ⟨by simp [hvalue], hrest⟩
  | backquote htick =>
    subst htick
    obtain ⟨hvalue, hrest⟩ := scanTemplate_sameLines h (hwhole.template rfl)
    rw [scanToken_backquote, scanToken_backquote]
    exact ⟨by simp [hvalue], hrest⟩
  | regex hslash hallowed =>
    subst hslash hallowed
    obtain ⟨hvalue, hrest⟩ := scanRegex_sameLines h (hwhole.regex rfl rfl)
    rw [scanToken_slash, scanToken_slash]
    exact ⟨by simp [hvalue], hrest⟩
  | other hname hdigit hquote htick hslash =>
    rw [scanToken_other hname hdigit hquote htick hslash,
      scanToken_other hname hdigit hquote htick hslash]
    exact ⟨rfl, h⟩

/-- The lexeme of the token that starts with `c` behind the trivia of a text. -/
def firstLexeme (state : LexState) (s : Text) (c : Char) (rest : Text) : Lexeme :=
  let token := scanToken state.regexAllowed c rest
  ⟨(scanTrivia s).taken, token.taken, token.value.1, (scanTrivia s).value || token.value.2⟩

/-- The first character behind trivia starts the first lexeme. -/
theorem lexeme?_of_trivia {state : LexState} {c : Char} {rest : Text}
    (h : (scanTrivia s).rest = c :: rest) : lexeme? state s =
      some (firstLexeme state s c rest, (scanToken state.regexAllowed c rest).rest) := by
  rw [lexeme?, h]
  rfl

/-- The tokens of a text that is not broken are read alike where the lines are the same. -/
theorem lexemes_sameLines {state : LexState} (hwhole : Unbroken state s) (h : SameLines s t) :
    (lexemes state t).map Lexeme.reading = (lexemes state s).map Lexeme.reading := by
  induction hwhole generalizing t with
  | @nothing state s hs =>
    obtain ⟨-, hrest⟩ := scanTrivia_sameLines h
    rw [hs] at hrest
    have hnone : lexeme? state s = none := by rw [lexeme?, hs]
    have hnone' : lexeme? state t = none := by rw [lexeme?, hrest.eq_nil]
    rw [(lexemes_of_none hnone).1, (lexemes_of_none hnone').1]
  | @token state s rest c hs hliteral _ ih =>
    obtain ⟨hcrosses, hrest⟩ := scanTrivia_sameLines h
    rw [hs] at hrest
    have hreturn : c ≠ '\r' := by
      rintro rfl
      exact absurd (scanTrivia_rest_start hs).1 (by decide)
    obtain ⟨rest', ht, hnext⟩ := hrest.cons_of_ne hreturn
    obtain ⟨hvalue, hbehind⟩ := scanToken_sameLines hnext hliteral
    have hreading : Lexeme.reading (firstLexeme state t c rest') =
        Lexeme.reading (firstLexeme state s c rest) := by
      simp only [Lexeme.reading, firstLexeme, hcrosses, hvalue]
    have hkind : (firstLexeme state t c rest').kind = (firstLexeme state s c rest).kind :=
      (Prod.mk.inj hreading).1
    rw [(lexemes_of_some (lexeme?_of_trivia hs)).1, (lexemes_of_some (lexeme?_of_trivia ht)).1,
      List.map_cons, List.map_cons, hreading, hkind]
    exact congrArg _ (ih hbehind)

/-- A text behind a `#!` line has the same lines if the whole text does. -/
theorem afterHashbang_sameLines (h : SameLines s t) :
    SameLines (afterHashbang s) (afterHashbang t) := by
  have hplain : ∀ {s : Text}, (∀ rest, s ≠ '#' :: '!' :: rest) → afterHashbang s = s := by
    intro s hs
    rw [afterHashbang]
    exact hs
  by_cases hmark : ∃ rest, s = '#' :: '!' :: rest
  · obtain ⟨rest, rfl⟩ := hmark
    obtain ⟨t, rfl, hnext⟩ := h.cons_of_ne (by decide)
    obtain ⟨t, rfl, hrest⟩ := hnext.cons_of_ne (by decide)
    exact scanLine_sameLines hrest
  · have hmark' : ∀ rest, t ≠ '#' :: '!' :: rest := by
      rintro rest rfl
      cases h with
      | char _ h => cases h with | char _ h => exact hmark ⟨_, rfl⟩
    rw [hplain (not_exists.mp hmark), hplain hmark']
    exact h

/-- The tokens of a text that is not broken are read alike if lines end with line feeds alone. -/
theorem tokenize_withLineFeeds (hwhole : Unbroken .initial (afterHashbang s)) :
    (tokenize (withLineFeeds s)).map (fun t => t.reading) =
      (tokenize s).map (fun t => t.reading) := by
  rw [tokenize_map Lexeme.reading, tokenize_map Lexeme.reading]
  exact lexemes_sameLines hwhole (afterHashbang_sameLines (sameLines_withLineFeeds s))

/-! ### Unbroken texts -/

/-- What the scanner of a template takes from a later place on, it takes in the end. -/
theorem suffix_of_templateMoves {state next : TemplateState} {rest : Text}
    (h : Relation.ReflTransGen TemplateMove (state, s) (next, rest)) :
    (scanTemplate next rest).taken <:+ (scanTemplate state s).taken := by
  generalize hstart : (state, s) = start at h
  induction h using Relation.ReflTransGen.head_induction_on generalizing state s with
  | refl =>
    obtain ⟨rfl, rfl⟩ := Prod.mk.inj hstart
    exact List.suffix_refl _
  | @head start between hmove _ ih =>
    obtain ⟨front, crosses, hstep⟩ := hmove
    rw [← hstart] at hstep
    rw [hstep.scan]
    exact (ih rfl).trans (List.suffix_append _ _)

/-- A literal in which no line end is escaped is unbroken. -/
theorem unbrokenToken_of_taken {regexAllowed : Bool} {c : Char}
    (h : ¬['\\', '\r', '\n'] <:+: (scanToken regexAllowed c s).taken) :
    UnbrokenToken regexAllowed c s := by
  refine ⟨fun hquote hends => h ?_, ?_, ?_⟩
  · rw [scanToken_quote hquote]
    exact (hends.trans (List.suffix_append [c] _)).isInfix
  · rintro rfl depth outer quote rest hreach hquote hends
    refine h ?_
    rw [scanToken_backquote]
    have htaken := suffix_of_templateMoves hreach
    rw [(TemplateStep.quoted depth outer quote rest hquote).scan] at htaken
    have hstring : ['\\', '\r', '\n'] <:+: quote :: (scanString quote rest).taken :=
      (hends.trans (List.suffix_cons _ _)).isInfix
    exact (hstring.trans (List.prefix_append _ _).isInfix).trans
      (htaken.trans (List.suffix_append ['\x60'] _)).isInfix
  · rintro rfl rfl hends
    refine h ?_
    rw [scanToken_slash]
    have hbody : (scanRegexBody false s).taken <+: (scanRegex s).taken := by
      rw [scanRegex]
      split
      · exact List.prefix_append _ _
      · exact List.prefix_refl _
    exact (hends.isInfix.trans hbody.isInfix).trans (List.suffix_cons '/' _).isInfix

/-- A text is unbroken if no token holds a backslash in front of a line end of two characters. -/
theorem unbroken_of_lexemes {state : LexState}
    (h : ∀ l ∈ lexemes state s, ¬['\\', '\r', '\n'] <:+: l.text) : Unbroken state s := by
  induction hlength : s.length using Nat.strongRecOn generalizing s state with
  | _ n ih =>
    cases hs : (scanTrivia s).rest with
    | nil => exact .nothing hs
    | cons c rest =>
      have hfirst := @lexeme?_of_trivia s state c rest hs
      rw [(lexemes_of_some hfirst).1, List.forall_mem_cons] at h
      exact .token hs (unbrokenToken_of_taken h.1)
        (ih _ (hlength ▸ lexeme?_length hfirst) h.2 rfl)

/-- So is one that holds none at all. -/
theorem unbroken_of_not_infix (h : ¬['\\', '\r', '\n'] <:+: s) (state : LexState) :
    Unbroken state s := by
  refine unbroken_of_lexemes fun l hl hinside => h (hinside.trans ?_)
  rw [← lexemes_flatten state s]
  have htext : l.text <:+: l.gap ++ l.text := (List.suffix_append _ _).isInfix
  have hwhole : l.gap ++ l.text <:+: (lexemes state s).flatMap fun l => l.gap ++ l.text := by
    rw [List.flatMap_def]
    exact List.infix_of_mem_flatten (List.mem_map_of_mem hl)
  exact (htext.trans hwhole).trans (List.prefix_append _ _).isInfix

end

end ScriptBundle
