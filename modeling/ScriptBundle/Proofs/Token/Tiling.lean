import ScriptBundle.Proofs.Module.Edits
import ScriptBundle.Proofs.Token.Bounded
import ScriptBundle.Proofs.Token.LineEnds
import ScriptBundle.Proofs.Token.RespacedLexer

/-!
# Tiled Sources

The tokens of a source stand at places of their own, one behind the other, and between them there
are white space and comments alone. A token is marked as the first one of a line if a line ends in
front of it, and a template also if a comment in one of its substitutions holds a line feed.

## Main definitions

* `TriviaPiece`, `IsGap`: what a gap may be made of, said without the lexer;
* `BreaksLine`: whether a line ends in a gap;
* `HoldsBrokenComment`: the other reason for which a token is marked;
* `Tiles`: whether tokens and gaps make up a text.

## Main statements

* `isGap_scanTrivia`: what the lexer takes in front of a token is a gap;
* `scanTrivia_writeGap`: a gap is taken as a whole;
* `crossesLine_scanTemplate_iff`: what the scanner of a template says about lines;
* `tiles_tokenize`: the tokens of a source tile it.
-/

namespace ScriptBundle

open Relation (ReflTransGen)

/-! ### Gaps -/

/-- A **piece** of what stands between tokens. -/
inductive TriviaPiece where
  | space (c : Char)
  /-- A comment that reaches to the end of its line. -/
  | line (body : Text)
  | block (body : Text)
  /-- A block comment that reaches to the end of the source. -/
  | openBlock (body : Text)

/-- The characters of a piece. -/
def TriviaPiece.text : TriviaPiece → Text
  | space c => [c]
  | line body => '/' :: '/' :: body
  | block body => '/' :: '*' :: (body ++ ['*', '/'])
  | openBlock body => '/' :: '*' :: body

/-- Whether pieces make up a **gap**. A comment may reach to the end of the gap only if that is the
`final` one of a source. -/
inductive IsGap (final : Bool) : List TriviaPiece → Prop
  | nil : IsGap final []
  | space {c : Char} {pieces : List TriviaPiece} (hc : isBlank c = true ∨ c = '\ufeff')
      (h : IsGap final pieces) : IsGap final (.space c :: pieces)
  | line {body : Text} {pieces : List TriviaPiece} (hbody : '\n' ∉ body)
      (h : IsGap final (.space '\n' :: pieces)) : IsGap final (.line body :: .space '\n' :: pieces)
  | block {body : Text} {pieces : List TriviaPiece} (hbody : ¬['*', '/'] <:+: body ++ ['*'])
      (h : IsGap final pieces) : IsGap final (.block body :: pieces)
  | lastLine {body : Text} (hfinal : final = true) (hbody : '\n' ∉ body) : IsGap final [.line body]
  | lastBlock {body : Text} (hfinal : final = true) (hbody : ¬['*', '/'] <:+: body) :
      IsGap final [.openBlock body]

/-- The characters of a gap. -/
def writeGap (pieces : List TriviaPiece) : Text := pieces.flatMap TriviaPiece.text

@[simp] theorem writeGap_nil : writeGap [] = [] := rfl

@[simp] theorem writeGap_cons (piece : TriviaPiece) (pieces : List TriviaPiece) :
    writeGap (piece :: pieces) = piece.text ++ writeGap pieces := rfl

/-- Whether a line **ends** in a gap: at a line feed, in a comment too, or at a line or paragraph
separator outside of comments. -/
def BreaksLine (pieces : List TriviaPiece) : Prop :=
  '\n' ∈ writeGap pieces ∨ ∃ c ∈ ['\u2028', '\u2029'], .space c ∈ pieces

theorem not_breaksLine_nil : ¬BreaksLine [] := by
  simp [BreaksLine]

theorem breaksLine_space_iff {c : Char} {pieces : List TriviaPiece} :
    BreaksLine (.space c :: pieces) ↔ isLineEnd c = true ∨ BreaksLine pieces := by
  simp [BreaksLine, TriviaPiece.text, isLineEnd]
  grind

/-- In a comment line feeds alone count. -/
theorem breaksLine_comment_iff {piece : TriviaPiece} (hpiece : ∀ c, piece ≠ .space c)
    {pieces : List TriviaPiece} :
    BreaksLine (piece :: pieces) ↔ '\n' ∈ piece.text ∨ BreaksLine pieces := by
  simp [BreaksLine, (hpiece _).symm, or_assoc]

/-- No block comment ends in a text if its first two characters end none and no other two do. -/
theorem not_infix_cons {c : Char} {s : Text} (hnext : c = '*' → s.head? ≠ some '/')
    (hs : ¬['*', '/'] <:+: s) : ¬['*', '/'] <:+: c :: s := by
  intro hinside
  rcases List.infix_cons_iff.mp hinside with hstart | hinside
  · obtain ⟨tail, htail⟩ := hstart
    obtain ⟨rfl, rfl⟩ : '*' = c ∧ '/' :: tail = s := by simpa using htail
    exact hnext rfl rfl
  · exact hs hinside

/-- A block comment ends with its first two closing characters, if there are any. -/
theorem scanBlockComment_body (s : Text) :
    ((scanBlockComment s).value.closed = true →
      ∃ body, (scanBlockComment s).taken = body ++ ['*', '/'] ∧ ¬['*', '/'] <:+: body ++ ['*']) ∧
    ((scanBlockComment s).value.closed = false → ¬['*', '/'] <:+: s) := by
  fun_induction scanBlockComment s with
  | case1 => simp
  | case2 => exact ⟨fun _ => ⟨[], rfl, by decide⟩, by simp⟩
  | case3 c rest hopen comment ih =>
    have hnext : c = '*' → rest.head? ≠ some '/' := fun hc hhead => by
      obtain ⟨tail, rfl⟩ := List.head?_eq_some_iff.mp hhead
      exact hopen tail hc rfl
    refine ⟨fun hclosed => ?_, fun hclosed => not_infix_cons hnext (ih.2 hclosed)⟩
    obtain ⟨body, htaken, hbody⟩ := ih.1 hclosed
    have hsplit : body ++ '*' :: '/' :: comment.rest = rest := by
      simpa [htaken] using scanBlockComment_taken_append_rest rest
    refine ⟨c :: body, congrArg (c :: ·) htaken, not_infix_cons (fun hc hhead => hnext hc ?_) hbody⟩
    rw [← hsplit]
    cases body with
    | nil => simp at hhead
    | cons d body => simpa using hhead

/-- A block comment crosses a line if it holds a line feed. -/
theorem crossesLine_scanBlockComment_iff {s : Text} :
    (scanBlockComment s).value.crossesLine = true ↔ '\n' ∈ (scanBlockComment s).taken := by
  fun_induction scanBlockComment s with
  | case1 => simp
  | case2 => simp
  | case3 c rest _ comment ih =>
    change (c == '\n' || comment.value.crossesLine) = true ↔ '\n' ∈ c :: comment.taken
    rw [Bool.or_eq_true, beq_iff_eq, ih, List.mem_cons, eq_comm]

/-- A line feed is a piece by itself. -/
theorem exists_space {pieces : List TriviaPiece} {s : Text} (h : writeGap pieces = '\n' :: s) :
    ∃ behind, pieces = .space '\n' :: behind := by
  match pieces with
  | [] => simp at h
  | .space c :: behind => simp_all [TriviaPiece.text]
  | .line _ :: _ | .block _ :: _ | .openBlock _ :: _ => simp [TriviaPiece.text] at h

/-- What the lexer takes between tokens is a gap, and a line ends there if it does in the gap. -/
theorem isGap_scanTrivia (s : Text) :
    ∃ pieces, IsGap (scanTrivia s).rest.isEmpty pieces ∧ (scanTrivia s).taken = writeGap pieces ∧
      ((scanTrivia s).value = true ↔ BreaksLine pieces) := by
  fun_induction scanTrivia s with
  | case1 => exact ⟨[], .nil, rfl, by simp [not_breaksLine_nil]⟩
  | case2 rest line _ ih =>
    have hbody : '\n' ∉ line.taken := fun hmem => by simpa using List.mem_takeWhile_imp hmem
    by_cases hrest : line.rest = []
    · refine ⟨[.line line.taken], .lastLine (by simp [hrest, scanTrivia]) hbody, ?_, ?_⟩
      · simp [hrest, scanTrivia, TriviaPiece.text]
      · rw [breaksLine_comment_iff (by simp)]
        simp [hrest, scanTrivia, TriviaPiece.text, hbody, not_breaksLine_nil]
    · obtain ⟨tail, htail⟩ := scanLine_rest_eq hrest
      obtain ⟨pieces, hgap, htaken, hbreaks⟩ := ih
      have hfeed : (scanTrivia line.rest).taken = '\n' :: (scanTrivia tail).taken := by
        rw [htail, scanTrivia_cons (not_startsComment_of_ne (by decide)), if_pos (by decide)]
        rfl
      obtain ⟨behind, rfl⟩ := exists_space (hfeed ▸ htaken).symm
      refine ⟨.line line.taken :: .space '\n' :: behind, .line hbody hgap, ?_, ?_⟩
      · simp [htaken, TriviaPiece.text]
      · rw [breaksLine_comment_iff (by simp)]
        simpa [TriviaPiece.text, hbody] using hbreaks
  | case3 rest comment _ ih =>
    obtain ⟨pieces, hgap, htaken, hbreaks⟩ := ih
    cases hclosed : comment.value.closed with
    | true =>
      obtain ⟨body, hbody, hinside⟩ := (scanBlockComment_body rest).1 hclosed
      refine ⟨.block body :: pieces, .block hinside hgap, ?_, ?_⟩
      · simp [comment, hbody, htaken, TriviaPiece.text]
      · rw [breaksLine_comment_iff (by simp)]
        simp [comment, crossesLine_scanBlockComment_iff, hbody, hbreaks, TriviaPiece.text]
    | false =>
      have hrest : comment.rest = [] := scanBlockComment_rest_of_open hclosed
      have hwhole : comment.taken = rest := by
        simpa [comment, hrest] using scanBlockComment_taken_append_rest rest
      refine ⟨[.openBlock rest], .lastBlock (by simp [hrest, scanTrivia])
        ((scanBlockComment_body rest).2 hclosed), ?_, ?_⟩
      · simp [hrest, hwhole, scanTrivia, TriviaPiece.text]
      · rw [breaksLine_comment_iff (by simp)]
        simp [comment, crossesLine_scanBlockComment_iff, hrest, hwhole, scanTrivia,
          TriviaPiece.text, not_breaksLine_nil]
  | case4 c rest _ _ hend ih =>
    obtain ⟨pieces, hgap, htaken, hbreaks⟩ := ih
    have hblank : isBlank c = true := by
      simp only [isLineEnd, Bool.or_eq_true, beq_iff_eq] at hend
      rcases hend with (rfl | rfl) | rfl <;> decide
    exact ⟨.space c :: pieces, .space (.inl hblank) hgap, by simp [htaken, TriviaPiece.text],
      by simp [breaksLine_space_iff, hend]⟩
  | case5 c rest _ _ hend hblank ih =>
    obtain ⟨pieces, hgap, htaken, hbreaks⟩ := ih
    exact ⟨.space c :: pieces, .space (by simpa using hblank) hgap,
      by simp [htaken, TriviaPiece.text], by simpa [breaksLine_space_iff, hend] using hbreaks⟩
  | case6 => exact ⟨[], .nil, rfl, by simp [not_breaksLine_nil]⟩

/-- The lexer takes a closed block comment to its end. -/
theorem scanBlockComment_of_body {body : Text} (h : ¬['*', '/'] <:+: body ++ ['*']) (u : Text) :
    ∃ value, scanBlockComment (body ++ '*' :: '/' :: u) = ⟨value, body ++ ['*', '/'], u⟩ := by
  induction body with
  | nil => exact ⟨⟨false, true⟩, by simp [scanBlockComment]⟩
  | cons c body ih =>
    obtain ⟨value, hvalue⟩ := ih fun hinside => h (List.infix_cons hinside)
    have hnext : c = '*' → (body ++ '*' :: '/' :: u).head? ≠ some '/' := by
      rintro rfl hhead
      cases body with
      | nil => simp at hhead
      | cons d body =>
        obtain rfl : d = '/' := by simpa using hhead
        exact h ⟨[], body ++ ['*'], rfl⟩
    rw [List.cons_append, scanBlockComment_cons hnext, hvalue]
    exact ⟨_, rfl⟩

/-- The lexer takes a gap in front of a text, and then what it takes of the text. -/
theorem scanTrivia_writeGap {pieces : List TriviaPiece} (h : IsGap false pieces) (u : Text) :
    (scanTrivia (writeGap pieces ++ u)).taken = writeGap pieces ++ (scanTrivia u).taken ∧
      (scanTrivia (writeGap pieces ++ u)).rest = (scanTrivia u).rest ∧
      ((scanTrivia (writeGap pieces ++ u)).value = true ↔
        BreaksLine pieces ∨ (scanTrivia u).value = true) := by
  induction h with
  | nil => exact ⟨rfl, rfl, by simp [not_breaksLine_nil]⟩
  | @space c pieces hc h ih =>
    obtain ⟨htaken, hrest, hvalue⟩ := ih
    have hspacing : isSpacing c = true := by rcases hc with hc | rfl <;> simp [isSpacing, *]
    have hcomment : ¬startsComment c (writeGap pieces ++ u) := by
      refine not_startsComment_of_ne ?_
      rintro rfl
      exact absurd hspacing (by decide)
    rw [writeGap_cons, List.append_assoc, TriviaPiece.text, List.singleton_append,
      scanTrivia_cons hcomment, if_pos hspacing]
    exact ⟨congrArg (c :: ·) htaken, hrest, by simp [breaksLine_space_iff, hvalue, or_assoc]⟩
  | @line body pieces hbody h ih =>
    obtain ⟨htaken, hrest, hvalue⟩ := ih
    have hwhole : (scanLine body).taken = body ∧ (scanLine body).rest = [] := by
      have hall : ∀ c ∈ body, decide (c ≠ '\n') = true := by
        intro c hc
        exact decide_eq_true fun heq => hbody (heq ▸ hc)
      exact ⟨List.takeWhile_eq_self_iff.mpr hall, List.dropWhile_eq_nil_iff.mpr hall⟩
    have hline := scanLine_append_lineFeed body (writeGap pieces ++ u)
    rw [Scan.onto, hwhole.1, hwhole.2] at hline
    have hscan : scanTrivia (writeGap (.line body :: .space '\n' :: pieces) ++ u) =
        (scanTrivia (writeGap (.space '\n' :: pieces) ++ u)).after ('/' :: '/' :: body) := by
      simp [TriviaPiece.text, scanTrivia, hline]
    rw [hscan]
    refine ⟨?_, hrest, ?_⟩
    · rw [Scan.after_taken, htaken]
      simp [TriviaPiece.text]
    rw [breaksLine_comment_iff (by simp), Scan.after_value, hvalue]
    simp [TriviaPiece.text, hbody]
  | @block body pieces hbody h ih =>
    obtain ⟨htaken, hrest, hvalue⟩ := ih
    obtain ⟨value, hcomment⟩ := scanBlockComment_of_body hbody (writeGap pieces ++ u)
    have hcrosses : value.crossesLine = true ↔ '\n' ∈ body := by
      simpa [hcomment] using
        crossesLine_scanBlockComment_iff (s := body ++ '*' :: '/' :: (writeGap pieces ++ u))
    have hscan : scanTrivia (writeGap (.block body :: pieces) ++ u) =
        ((scanTrivia (writeGap pieces ++ u)).map (value.crossesLine || ·)).after
          ('/' :: '*' :: (body ++ ['*', '/'])) := by
      simp [TriviaPiece.text, scanTrivia, hcomment]
    rw [hscan]
    refine ⟨by simp [htaken, TriviaPiece.text], hrest, ?_⟩
    rw [breaksLine_comment_iff (by simp)]
    simp [TriviaPiece.text, hcrosses, hvalue, or_assoc]
  | lastLine hfinal => exact absurd hfinal Bool.false_ne_true
  | lastBlock hfinal => exact absurd hfinal Bool.false_ne_true

/-! ### Templates -/

/-- Whether a text is a template that **holds a broken comment**: its scanner comes to a block
comment in one of its substitutions, and there is a line feed in it. -/
def HoldsBrokenComment (text : Text) : Prop :=
  ∃ s depth outer comment, text = '\x60' :: s ∧
    ReflTransGen TemplateMove (.text [], s) (.code depth outer, '/' :: '*' :: comment) ∧
    '\n' ∈ (scanBlockComment comment).taken

/-- The scanner of a template says that a line is crossed if it comes to such a comment. -/
theorem crossesLine_scanTemplate_iff {state : TemplateState} {s : Text} :
    (scanTemplate state s).value.crossesLine = true ↔
      ∃ depth outer comment,
        ReflTransGen TemplateMove (state, s) (.code depth outer, '/' :: '*' :: comment) ∧
        '\n' ∈ (scanBlockComment comment).taken := by
  constructor
  · intro hcrosses
    induction hlength : s.length using Nat.strongRecOn generalizing state s with
    | _ n ih =>
      cases templateFront state s with
      | closing rest hstate hs => simp [hstate, hs, scanTemplate] at hcrosses
      | nothing hs => simp [hs, scanTemplate] at hcrosses
      | backslash outer hstate hs => simp [hstate, hs, scanTemplate] at hcrosses
      | @step front crosses next rest hstep =>
        have hvalue : crosses = true ∨ (scanTemplate next rest).value.crossesLine = true := by
          simpa [hstep.scan] using hcrosses
        rcases hvalue with hcrossing | hbehind
        · -- Of all steps only the one over a block comment crosses lines.
          cases hstep with
          | blockComment depth outer comment =>
            exact ⟨depth, outer, comment, .refl, crossesLine_scanBlockComment_iff.mp hcrossing⟩
          | _ => simp at hcrossing
        · obtain ⟨depth, outer, comment, hwalk, hbroken⟩ :=
            ih _ (hlength ▸ hstep.length_lt) hbehind rfl
          exact ⟨depth, outer, comment, .head ⟨front, crosses, hstep⟩ hwalk, hbroken⟩
  · rintro ⟨depth, outer, comment, hwalk, hbroken⟩
    generalize hplace : (state, s) = place at hwalk
    induction hwalk using ReflTransGen.head_induction_on generalizing state s with
    | refl =>
      obtain ⟨rfl, rfl⟩ := Prod.mk.inj hplace
      have hcrosses := crossesLine_scanBlockComment_iff.mpr hbroken
      simp [(TemplateStep.blockComment depth outer comment).scan, hcrosses]
    | @head _ next hmove _ ih =>
      obtain ⟨front, crosses, hstep⟩ := hmove
      subst hplace
      simp [hstep.scan, ih rfl]

/-- A template is the same if nothing follows it. -/
theorem scanTemplate_taken_value (state : TemplateState) (s : Text) :
    (scanTemplate state (scanTemplate state s).taken).value = (scanTemplate state s).value := by
  cases hclosed : (scanTemplate state s).value.closed with
  | true => simpa [Scan.onto] using congrArg Scan.value (scanTemplate_taken hclosed [])
  | false =>
    have hwhole : (scanTemplate state s).taken = s := by
      simpa [scanTemplate_rest_of_open hclosed] using scanTemplate_taken_append_rest state s
    rw [hwhole]

/-! ### Tokens -/

/-- A token crosses a line if it is a template that holds a broken comment. -/
theorem crossesLine_scanToken_iff {regexAllowed : Bool} {c : Char} {s : Text} :
    (scanToken regexAllowed c s).value.2 = true ↔
      HoldsBrokenComment (scanToken regexAllowed c s).taken := by
  by_cases htick : c = '\x60'
  · subst htick
    rw [scanToken_backquote]
    simp only [Scan.after_value, Scan.map_value, Scan.after_taken, Scan.map_taken]
    rw [← scanTemplate_taken_value, crossesLine_scanTemplate_iff]
    simp [HoldsBrokenComment]
  · have hother : ¬HoldsBrokenComment (scanToken regexAllowed c s).taken := by
      rintro ⟨tail, depth, outer, comment, htext, -⟩
      have hsplit := scanToken_taken_append_rest regexAllowed c s
      rw [htext, List.cons_append, List.cons.injEq] at hsplit
      exact htick hsplit.1.symm
    refine iff_of_false ?_ hother
    cases tokenStart regexAllowed c with
    | identifier hname => simp [scanToken_identifier hname]
    | number hname hdigit => simp [scanToken_number hname hdigit]
    | quote hquote =>
      rw [scanToken_quote hquote]
      cases hvalue : (scanString c s).value <;> simp [hvalue]
    | backquote htick' => exact absurd htick' htick
    | regex hslash hallowed =>
      subst hslash hallowed
      simp [scanToken_slash]
    | other hname hdigit hquote htick hslash =>
      simp [scanToken_other hname hdigit hquote htick hslash]

/-- A token stands behind a gap, and is marked if a line ends in it. -/
theorem exists_gap_of_lexeme? {state : LexState} {s rest : Text} {l : Lexeme}
    (h : lexeme? state s = some (l, rest)) :
    ∃ pieces, IsGap false pieces ∧ l.gap = writeGap pieces ∧
      (l.newlineBefore = true ↔ BreaksLine pieces ∨ HoldsBrokenComment l.text) := by
  rw [lexeme?] at h
  split at h
  · simp at h
  · next c tail htail =>
    obtain ⟨rfl, rfl⟩ : _ = l ∧ _ = rest := by simpa using h
    obtain ⟨pieces, hgap, htaken, hbreaks⟩ := isGap_scanTrivia s
    refine ⟨pieces, by simpa [htail] using hgap, htaken, ?_⟩
    rw [Bool.or_eq_true, hbreaks]
    exact or_congr_right crossesLine_scanToken_iff

-- The comment stands inside of the token, and a line feed outside of comments does not count there.
example :
    (lexeme? .initial "\x60$\x7b/*\n*/1\x7d\x60".toList).map (·.1.newlineBefore) = some true ∧
      (lexeme? .initial "\x60$\x7b\n1\x7d\x60".toList).map (·.1.newlineBefore) = some false := by
  cbv

/-- A backquote alone starts a template, and another one closes it. -/
theorem eq_backquote_of_template {regexAllowed : Bool} {c : Char} {s : Text}
    (h : (scanToken regexAllowed c s).value.1 = .template) :
    c = '\x60' ∧ (scanTemplate (.text []) s).value.closed = true := by
  cases tokenStart regexAllowed c with
  | identifier hname => simp [scanToken_identifier hname] at h
  | number hname hdigit => simp [scanToken_number hname hdigit] at h
  | quote hquote =>
    rw [scanToken_quote hquote] at h
    cases hvalue : (scanString c s).value <;> simp [hvalue] at h
  | backquote htick =>
    subst htick
    rw [scanToken_backquote] at h
    cases hclosed : (scanTemplate (.text []) s).value.closed with
    | true => exact ⟨rfl, rfl⟩
    | false => simp [hclosed] at h
  | regex hslash hallowed =>
    subst hslash hallowed
    rw [scanToken_slash] at h
    cases hclosed : (scanRegex s).value <;> simp [hclosed] at h
  | other hname hdigit hquote htick hslash =>
    simp [scanToken_other hname hdigit hquote htick hslash] at h

/-- A template that is closed stands between backquotes. -/
theorem exists_of_template {state : LexState} {s rest : Text} {l : Lexeme}
    (h : lexeme? state s = some (l, rest)) (hkind : l.kind = .template) :
    ∃ inside, l.text = '\x60' :: (inside ++ ['\x60']) := by
  obtain ⟨c, tail, htext, -, -, crosses, htoken⟩ := exists_cons_of_lexeme? h
  have hvalue : (scanToken state.regexAllowed c (tail ++ rest)).value.1 = .template := by
    rw [htoken, hkind]
  obtain ⟨rfl, hclosed⟩ := eq_backquote_of_template hvalue
  rw [scanToken_backquote] at htoken
  have htaken : (scanTemplate (.text []) (tail ++ rest)).taken = tail := by
    simpa [htext] using congrArg Scan.taken htoken
  obtain ⟨inside, hinside⟩ :=
    List.getLast?_eq_some_iff.mp (htaken ▸ getLast?_scanTemplate hclosed)
  exact ⟨inside, by rw [htext, hinside]⟩

/-! ### Sources -/

/-- Whether tokens **tile** a text whose first character stands at an offset: each stands behind a
gap and is marked if a line ends there or in a comment of its own, and there is a gap behind the
last. -/
inductive Tiles : (offset : Nat) → List Token → Text → Prop
  | last {offset : Nat} {pieces : List TriviaPiece} (hgap : IsGap true pieces) :
      Tiles offset [] (writeGap pieces)
  | token {offset : Nat} {t : Token} {ts : List Token} {pieces : List TriviaPiece} {s : Text}
      (hgap : IsGap false pieces) (hstart : t.start = offset + Text.size (writeGap pieces))
      (hline : t.newlineBefore = true ↔ BreaksLine pieces ∨ HoldsBrokenComment t.text)
      (h : Tiles t.stop ts s) : Tiles offset (t :: ts) (writeGap pieces ++ (t.text ++ s))

/-- The lexemes of a text tile it from wherever they are placed. -/
theorem tiles_place (offset : Nat) (state : LexState) (s : Text) :
    Tiles offset (Token.place offset (lexemes state s)) s := by
  fun_induction lexemes state s generalizing offset with
  | case1 state s hnone =>
    obtain ⟨pieces, hgap, htaken, -⟩ := isGap_scanTrivia s
    have hrest := scanTrivia_rest_of_none hnone
    have hwhole := scanTrivia_taken_append_rest s
    rw [hrest, List.append_nil, htaken] at hwhole
    rw [← hwhole]
    exact .last (by simpa [hrest] using hgap)
  | case2 state s l rest hfirst _ ih =>
    obtain ⟨pieces, hgap, htaken, hline⟩ := exists_gap_of_lexeme? hfirst
    rw [← lexeme?_gap_append_text hfirst, htaken, List.append_assoc]
    refine .token hgap (by rw [htaken]) hline (ih _)

/-- Tokens of a tiled text stand in it at their places. -/
theorem Tiles.exists_around {offset : Nat} {ts : List Token} {s : Text} (h : Tiles offset ts s) :
    ∀ t ∈ ts, ∃ front behind, s = front ++ (t.text ++ behind) ∧
      t.start = offset + Text.size front := by
  induction h with
  | last => simp
  | @token offset first ts pieces s hgap hstart hline h ih =>
    intro t ht
    rcases List.mem_cons.mp ht with rfl | ht
    · exact ⟨_, _, rfl, hstart⟩
    · obtain ⟨front, behind, rfl, hplace⟩ := ih t ht
      refine ⟨writeGap pieces ++ (first.text ++ front), behind, by simp, ?_⟩
      rw [hplace, Token.stop, hstart, Text.size_append, Text.size_append]
      omega

/-- A token **stands at its place** in the source. -/
theorem exists_around_of_mem_tokenize {source : Text} {t : Token} (ht : t ∈ tokenize source) :
    ∃ front behind, source = front ++ (t.text ++ behind) ∧ t.start = Text.size front := by
  obtain ⟨front, behind, hs, hstart⟩ := (tiles_place _ _ _).exists_around t ht
  refine ⟨hashbang source ++ front, behind, ?_, by rw [hstart, Text.size_append]⟩
  rw [List.append_assoc, ← hs, hashbang_append_afterHashbang]

/-- The tokens of a source **tile** it behind a line that is read by no one. They have characters of
their own, which are those of the source at their places, and stand one behind the other. A name is
written as it is called, and a template that is closed stands between backquotes. -/
theorem tiles_tokenize (source : Text) :
    (∃ line s, source = line ++ s ∧
      (line = [] ∨ (∃ body, line = '#' :: '!' :: body ∧ '\n' ∉ body) ∧
        ∀ c ∈ s.head?, c = '\n') ∧
      Tiles (Text.size line) (tokenize source) s) ∧
    (∀ t ∈ tokenize source, t.start < t.stop ∧
      ∃ front behind, source = front ++ (t.text ++ behind) ∧ t.start = Text.size front) ∧
    (tokenize source).Pairwise (fun t u => t.stop ≤ u.start) ∧
    (∀ t ∈ tokenize source, ∀ name, t.kind = .identifier name → t.text = name.toList) ∧
    ∀ t ∈ tokenize source, t.kind = .template →
      ∃ inside, t.text = '\x60' :: (inside ++ ['\x60']) := by
  have htiles : Tiles (Text.size (hashbang source)) (tokenize source) (afterHashbang source) :=
    tiles_place _ _ _
  have hsplit := hashbang_append_afterHashbang source
  refine ⟨⟨_, _, hsplit.symm, ?_, htiles⟩, fun t ht => ⟨?_, ?_⟩, ?_, fun t ht name hkind => ?_,
    fun t ht hkind => ?_⟩
  · exact hashbang_cases source
  · exact Token.start_lt_stop (text_ne_nil_of_mem_tokenize t ht)
  · obtain ⟨front, behind, hs, hstart⟩ := htiles.exists_around t ht
    exact ⟨hashbang source ++ front, behind, by rw [List.append_assoc, ← hs, hsplit],
      by rw [hstart, Text.size_append]⟩
  · exact (placed_place _ _).pairwise
  · exact text_of_mem_lexemes _ (toLexeme_mem_lexemes ht) hkind
  · exact forall_mem_lexemes exists_of_template _ (toLexeme_mem_lexemes ht) hkind

end ScriptBundle
