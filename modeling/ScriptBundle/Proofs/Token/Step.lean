import ScriptBundle.Token.Lexer

/-!
# Scanners Step by Step

What each scanner does at one character, with the conditions said of the character and the one
behind it. Proofs about scanners case on these equations and on nothing else.

## Main definitions

* `startsComment`: whether two characters open a comment;
* `TemplateStep`: what the scanner of a template can take at once, and where it goes on.

## Main statements

* `scanString_cons`, `scanRegexBody_cons`, `scanBlockComment_cons`: one character of a literal or a
  comment;
* `TemplateStep.scan`, `templateFront`: the scanner of a template makes one of these steps, unless
  it has come to an end;
* `scanTrivia_cons`, `scanTrivia_rest_start`: one character between tokens, and the first one of a
  token.
-/

namespace ScriptBundle

/-! ### Strings and regular expressions -/

/-- Where neither of a function's rows for a backslash applies there is no backslash. -/
theorem ne_backslash {c : Char} {rest : Text} (hone : c = '\\' → rest = [] → False)
    (hescape : ∀ d tail, c = '\\' → rest = d :: tail → False) : c ≠ '\\' := by
  rintro rfl
  cases rest with
  | nil => exact hone rfl rfl
  | cons d tail => exact hescape d tail rfl rfl

/-- A character of a string other than a backslash. -/
theorem scanString_cons {quote c : Char} (h : c ≠ '\\') (rest : Text) :
    scanString quote (c :: rest) =
      if c = '\n' then ⟨none, ['\n'], rest⟩
      else if c = quote then ⟨some [], [c], rest⟩
      else ((scanString quote rest).map fun value => value.map (c :: ·)).after [c] :=
  scanString.eq_4 _ _ _ (fun hc _ => h hc) fun _ _ hc _ => h hc

/-- A character of a regular expression other than a backslash. -/
theorem scanRegexBody_cons {c : Char} (h : c ≠ '\\') (inClass : Bool) (rest : Text) :
    scanRegexBody inClass (c :: rest) =
      if c = '\n' then ⟨false, ['\n'], rest⟩
      else if c = '/' && !inClass then ⟨true, ['/'], rest⟩
      else if c = '[' then (scanRegexBody true rest).after [c]
      else if c = ']' then (scanRegexBody false rest).after [c]
      else (scanRegexBody inClass rest).after [c] :=
  scanRegexBody.eq_4 _ _ _ (fun hc _ => h hc) fun _ _ hc _ => h hc

/-! ### Comments -/

/-- A character of a block comment that does not close it. -/
theorem scanBlockComment_cons {c : Char} {rest : Text} (h : c = '*' → rest.head? ≠ some '/') :
    scanBlockComment (c :: rest) =
      ((scanBlockComment rest).map fun b =>
        { b with crossesLine := c == '\n' || b.crossesLine }).after [c] :=
  scanBlockComment.eq_3 _ _ fun tail hc hrest => h hc (by simp [hrest])

/-- Whether a character opens a comment together with the one at the front of a text. -/
def startsComment (c : Char) (rest : Text) : Prop :=
  c = '/' ∧ (rest.head? = some '/' ∨ rest.head? = some '*')

/-- Only a slash opens a comment. -/
theorem not_startsComment_of_ne {c : Char} {rest : Text} (h : c ≠ '/') : ¬startsComment c rest :=
  fun hstart => h hstart.1

/-- Where neither of a function's rows for a comment applies none starts. -/
theorem not_startsComment {c : Char} {rest : Text}
    (hline : ∀ tail, c = '/' → rest = '/' :: tail → False)
    (hblock : ∀ tail, c = '/' → rest = '*' :: tail → False) : ¬startsComment c rest := by
  rintro ⟨hc, h | h⟩
  · obtain ⟨tail, ht⟩ := List.head?_eq_some_iff.mp h
    exact hline tail hc ht
  · obtain ⟨tail, ht⟩ := List.head?_eq_some_iff.mp h
    exact hblock tail hc ht

/-- A comment that starts does so whatever follows. -/
theorem startsComment_append {c : Char} {rest : Text} (h : rest ≠ []) (u : Text) :
    startsComment c (rest ++ u) ↔ startsComment c rest := by
  simp [startsComment, h]

/-- A text in front of a new line starts a comment only by itself. -/
theorem startsComment_append_lineFeed {c : Char} {rest : Text} (u : Text) :
    startsComment c (rest ++ '\n' :: u) ↔ startsComment c rest := by
  cases rest with
  | nil => simp [startsComment]
  | cons d rest => exact startsComment_append (by simp) _

/-! ### Templates -/

/-- Whether a character opens a substitution together with the one at the front of a text. -/
def startsSubstitution (c : Char) (rest : Text) : Prop :=
  c = '$' ∧ rest.head? = some '{'

/-- Where the scanner of a template stands behind a character of a substitution, braces being
counted. -/
def behindCode (depth : Nat) (outer : List Nat) (c : Char) : TemplateState :=
  if c = '{' then .code (depth + 1) outer
  else if c = '}' then if depth ≤ 1 then .text outer else .code (depth - 1) outer
  else .code depth outer

/-- One **step** of the scanner of a template: what it takes, whether a line ends in a comment
there, and where it goes on. -/
inductive TemplateStep : TemplateState → Text → Text → Bool → TemplateState → Text → Prop where
  | outward (depth : Nat) (outer : List Nat) (rest : Text) :
    TemplateStep (.text (depth :: outer)) ('\x60' :: rest) ['\x60'] false (.code depth outer) rest
  | escape (outer : List Nat) (c : Char) (rest : Text) :
    TemplateStep (.text outer) ('\\' :: c :: rest) ['\\', c] false (.text outer) rest
  | substitution (outer : List Nat) (rest : Text) :
    TemplateStep (.text outer) ('$' :: '{' :: rest) ['$', '{'] false (.code 1 outer) rest
  | character (outer : List Nat) {c : Char} {rest : Text} (tick : c ≠ '\x60') (back : c ≠ '\\')
    (plain : ¬startsSubstitution c rest) :
    TemplateStep (.text outer) (c :: rest) [c] false (.text outer) rest
  | inward (depth : Nat) (outer : List Nat) (rest : Text) :
    TemplateStep (.code depth outer) ('\x60' :: rest) ['\x60'] false (.text (depth :: outer)) rest
  | lineComment (depth : Nat) (outer : List Nat) (rest : Text) :
    TemplateStep (.code depth outer) ('/' :: '/' :: rest) ('/' :: '/' :: (scanLine rest).taken)
      false (.code depth outer) (scanLine rest).rest
  | blockComment (depth : Nat) (outer : List Nat) (rest : Text) :
    TemplateStep (.code depth outer) ('/' :: '*' :: rest)
      ('/' :: '*' :: (scanBlockComment rest).taken) (scanBlockComment rest).value.crossesLine
      (.code depth outer) (scanBlockComment rest).rest
  | quoted (depth : Nat) (outer : List Nat) (c : Char) (rest : Text) (quote : c = '\'' ∨ c = '"') :
    TemplateStep (.code depth outer) (c :: rest) (c :: (scanString c rest).taken) false
      (.code depth outer) (scanString c rest).rest
  | code (depth : Nat) (outer : List Nat) {c : Char} {rest : Text} (tick : c ≠ '\x60')
    (comment : ¬startsComment c rest) (quote : ¬(c = '\'' ∨ c = '"')) :
    TemplateStep (.code depth outer) (c :: rest) [c] false (behindCode depth outer c) rest

/-- The scanner goes on behind a step. -/
theorem TemplateStep.scan {state next : TemplateState} {s front rest : Text} {crosses : Bool}
    (h : TemplateStep state s front crosses next rest) :
    scanTemplate state s = ((scanTemplate next rest).map fun t =>
      { t with crossesLine := crosses || t.crossesLine }).after front := by
  cases h with
  | outward | escape | substitution | inward | lineComment =>
    rw [scanTemplate]
    rfl
  | blockComment => rw [scanTemplate]
  | character outer tick back plain =>
    exact scanTemplate.eq_7 _ _ _ (fun _ hc => tick hc) (fun _ _ _ hc => tick hc)
      (fun hc _ => back hc) (fun _ _ hc _ => back hc) fun _ hc hrest =>
        plain ⟨hc, by simp [hrest]⟩
  | quoted depth outer c rest quote =>
    obtain ⟨htick, hslash⟩ : c ≠ '\x60' ∧ c ≠ '/' := by rcases quote with rfl | rfl <;> decide
    rw [scanTemplate.eq_11 _ _ _ _ htick (fun _ hc => absurd hc hslash)
      fun _ hc => absurd hc hslash, if_pos quote]
    rfl
  | code depth outer tick comment quote =>
    rw [scanTemplate.eq_11 _ _ _ _ tick (fun _ hc hrest => comment ⟨hc, .inl (by simp [hrest])⟩)
      fun _ hc hrest => comment ⟨hc, .inr (by simp [hrest])⟩, if_neg quote, behindCode]
    split
    · rfl
    · split
      · split <;> rfl
      · rfl

/-- What the scanner of a template finds in front of it: the backquote that closes the template, the
end of its text, or a step. -/
inductive TemplateFront (state : TemplateState) (s : Text) : Prop where
  | closing (rest : Text) (hstate : state = .text []) (hs : s = '\x60' :: rest)
  | nothing (hs : s = [])
  | backslash (outer : List Nat) (hstate : state = .text outer) (hs : s = ['\\'])
  | step {front : Text} {crosses : Bool} {next : TemplateState} {rest : Text}
    (h : TemplateStep state s front crosses next rest)

theorem templateFront (state : TemplateState) (s : Text) : TemplateFront state s := by
  cases s with
  | nil => exact .nothing rfl
  | cons c s =>
    by_cases htick : c = '\x60'
    · subst htick
      match state with
      | .text [] => exact .closing s rfl rfl
      | .text (depth :: outer) => exact .step (.outward depth outer s)
      | .code depth outer => exact .step (.inward depth outer s)
    · cases state with
      | text outer =>
        by_cases hback : c = '\\'
        · subst hback
          cases s with
          | nil => exact .backslash outer rfl rfl
          | cons d s => exact .step (.escape outer d s)
        · by_cases hsub : startsSubstitution c s
          · obtain ⟨rfl, hhead⟩ := hsub
            obtain ⟨s, rfl⟩ := List.head?_eq_some_iff.mp hhead
            exact .step (.substitution outer s)
          · exact .step (.character outer htick hback hsub)
      | code depth outer =>
        by_cases hcomment : startsComment c s
        · obtain ⟨rfl, hhead | hhead⟩ := hcomment
          · obtain ⟨s, rfl⟩ := List.head?_eq_some_iff.mp hhead
            exact .step (.lineComment depth outer s)
          · obtain ⟨s, rfl⟩ := List.head?_eq_some_iff.mp hhead
            exact .step (.blockComment depth outer s)
        · by_cases hquote : c = '\'' ∨ c = '"'
          · exact .step (.quoted depth outer c s hquote)
          · exact .step (.code depth outer htick hcomment hquote)

/-- A step takes something. -/
theorem TemplateStep.length_lt {state next : TemplateState} {s front rest : Text} {crosses : Bool}
    (h : TemplateStep state s front crosses next rest) : rest.length < s.length := by
  cases h with
  | outward | character | inward | code => simp
  | escape | substitution => exact Nat.lt_of_succ_lt (Nat.lt_succ_self _)
  | lineComment depth outer rest =>
    have hle := scanLine_length rest
    simp only [List.length_cons]
    omega
  | blockComment depth outer rest =>
    have hle := scanBlockComment_length rest
    simp only [List.length_cons]
    omega
  | quoted depth outer c rest =>
    have hle := scanString_length c rest
    simp only [List.length_cons]
    omega

/-! ### Trivia -/

/-- Whether a character stands between tokens by itself. -/
def isSpacing (c : Char) : Bool := isLineEnd c || isBlank c || c == '\ufeff'

/-- A character between tokens that starts no comment. -/
theorem scanTrivia_cons {c : Char} {rest : Text} (hcomment : ¬startsComment c rest) :
    scanTrivia (c :: rest) =
      if isSpacing c then ((scanTrivia rest).map (isLineEnd c || ·)).after [c]
      else ⟨false, [], c :: rest⟩ := by
  rw [scanTrivia.eq_4 _ _ (fun _ hc hrest => hcomment ⟨hc, .inl (by simp [hrest])⟩)
    fun _ hc hrest => hcomment ⟨hc, .inr (by simp [hrest])⟩]
  by_cases hend : isLineEnd c = true
  · simp [isSpacing, hend]
  · by_cases hblank : (isBlank c || c == '\ufeff') = true
    · rw [if_neg hend, if_pos hblank, if_pos (by simpa [isSpacing, hend] using hblank)]
      simp only [Bool.not_eq_true] at hend
      simp [hend, Scan.map]
    · rw [if_neg hend, if_neg hblank, if_neg (by simpa [isSpacing, hend] using hblank)]

/-- A scan of trivia stops at a character that no white space is made of, and that starts no
comment. -/
theorem scanTrivia_rest_start {c : Char} {s rest : Text} (h : (scanTrivia s).rest = c :: rest) :
    isSpacing c = false ∧ ¬startsComment c rest := by
  fun_induction scanTrivia s with
  | case1 => simp at h
  | case2 _ _ _ ih => exact ih (by simpa using h)
  | case3 _ _ _ ih => exact ih (by simpa using h)
  | case4 _ _ _ _ _ ih => exact ih (by simpa using h)
  | case5 _ _ _ _ _ _ ih => exact ih (by simpa using h)
  | case6 d tail hline hblock hend hblank =>
    obtain ⟨rfl, rfl⟩ : d = c ∧ tail = rest := by simpa using h
    refine ⟨?_, not_startsComment hline hblock⟩
    simpa [isSpacing, Bool.or_assoc] using And.intro hend hblank

/-! ### Tokens -/

/-- A **token start** says which kind of token a character starts. -/
inductive TokenStart (regexAllowed : Bool) (c : Char) : Prop where
  | identifier (h : isIdentifierStart c = true)
  | number (hname : isIdentifierStart c = false) (h : c.isDigit = true)
  | quote (h : c = '\'' ∨ c = '"')
  | backquote (h : c = '\x60')
  | regex (h : c = '/') (hallowed : regexAllowed = true)
  | other (hname : isIdentifierStart c = false) (hdigit : c.isDigit = false)
      (hquote : ¬(c = '\'' ∨ c = '"')) (htick : c ≠ '\x60')
      (hslash : c = '/' → regexAllowed = false)

/-- Every character starts a token. -/
theorem tokenStart (regexAllowed : Bool) (c : Char) : TokenStart regexAllowed c := by
  cases hname : isIdentifierStart c with
  | true => exact .identifier hname
  | false =>
    cases hdigit : c.isDigit with
    | true => exact .number hname hdigit
    | false =>
      by_cases hquote : c = '\'' ∨ c = '"'
      · exact .quote hquote
      · by_cases htick : c = '\x60'
        · exact .backquote htick
        · by_cases hslash : c = '/' ∧ regexAllowed = true
          · exact .regex hslash.1 hslash.2
          · exact .other hname hdigit hquote htick fun hc => by simpa [hc] using hslash

/-- A name reaches to the first character that cannot go on with it. -/
theorem scanToken_identifier {c : Char} (h : isIdentifierStart c = true) (regexAllowed : Bool)
    (rest : Text) :
    scanToken regexAllowed c rest =
      ⟨(.identifier (String.ofList (c :: rest.takeWhile isIdentifierPart)), false),
        c :: rest.takeWhile isIdentifierPart, rest.dropWhile isIdentifierPart⟩ := by
  rw [scanToken, if_pos h]

/-- A number reaches to the first character that cannot go on with it. -/
theorem scanToken_number {c : Char} (hname : isIdentifierStart c = false)
    (h : c.isDigit = true) (regexAllowed : Bool) (rest : Text) :
    scanToken regexAllowed c rest =
      ⟨(.number, false), c :: rest.takeWhile isNumberPart, rest.dropWhile isNumberPart⟩ := by
  rw [scanToken, if_neg (by simp [hname]), if_pos h]

/-- A quote starts a string. -/
theorem scanToken_quote {c : Char} (h : c = '\'' ∨ c = '"') (regexAllowed : Bool) (rest : Text) :
    scanToken regexAllowed c rest =
      ((scanString c rest).map fun
        | some value => (TokenKind.string (String.ofList value), false)
        | none => (.unterminated, false)).after [c] := by
  have hname : isIdentifierStart c = false := by rcases h with rfl | rfl <;> decide
  have hdigit : c.isDigit = false := by rcases h with rfl | rfl <;> decide
  rw [scanToken, if_neg (by simp [hname]), if_neg (by simp [hdigit])]
  exact if_pos h

/-- A backquote starts a template. -/
theorem scanToken_backquote (regexAllowed : Bool) (rest : Text) :
    scanToken regexAllowed '\x60' rest =
      ((scanTemplate (.text []) rest).map fun t =>
        (if t.closed then TokenKind.template else .unterminated, t.crossesLine)).after
          ['\x60'] := by
  rw [scanToken, if_neg (by decide), if_neg (by decide), if_neg (by decide), if_pos rfl]

/-- A slash starts a regular expression where one may stand. -/
theorem scanToken_slash (rest : Text) :
    scanToken true '/' rest =
      ((scanRegex rest).map fun closed =>
        (if closed then TokenKind.regex else .unterminated, false)).after ['/'] := by
  rw [scanToken, if_neg (by decide), if_neg (by decide), if_neg (by decide), if_neg (by decide),
    if_pos ⟨rfl, rfl⟩]

/-- Any other character is a token by itself. -/
theorem scanToken_other {regexAllowed : Bool} {c : Char} (hname : isIdentifierStart c = false)
    (hdigit : c.isDigit = false) (hquote : ¬(c = '\'' ∨ c = '"')) (htick : c ≠ '\x60')
    (hslash : c = '/' → regexAllowed = false) (rest : Text) :
    scanToken regexAllowed c rest = ⟨(.punctuator c, false), [c], rest⟩ := by
  rw [scanToken, if_neg (by simp [hname]), if_neg (by simp [hdigit]), if_neg hquote,
    if_neg htick, if_neg fun h => by simp [hslash h.1] at h]

end ScriptBundle
