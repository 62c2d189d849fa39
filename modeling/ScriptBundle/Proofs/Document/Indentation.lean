import ScriptBundle.Proofs.Token.RespacedLexer

/-!
# Indentation

A body moved to the right is the body respaced, and no line feed inside of a literal is touched.
So it has the tokens of the body.

## Main statements

* `joinLines_cons`: joined lines, one line feed in front of each but the first;
* `indentLines_respaced`: indented lines are the lines respaced;
* `indentBody_contents`: an indented body has the tokens of the body.
-/

namespace ScriptBundle

/-- Lines are joined by a line feed in front of each but the first. -/
theorem joinLines_cons (line : Text) (rest : List Text) :
    Text.joinLines (line :: rest) = line ++ rest.flatMap ('\n' :: ·) := by
  induction rest generalizing line with
  | nil => simp [Text.joinLines]
  | cons next rest ih =>
    rw [Text.joinLines, List.intercalate_cons_cons, ← Text.joinLines, ih]
    simp

/-- Joined lines behind a line feed have one in front of each. -/
theorem lineFeed_joinLines {lines : List Text} (h : lines ≠ []) :
    '\n' :: Text.joinLines lines = lines.flatMap ('\n' :: ·) := by
  obtain ⟨line, rest, rfl⟩ := List.exists_cons_of_ne_nil h
  rw [joinLines_cons]
  rfl

/-- Lines are joined part by part. -/
theorem joinLines_append {front behind : List Text} (hfront : front ≠ []) (hbehind : behind ≠ []) :
    Text.joinLines (front ++ behind) =
      Text.joinLines front ++ '\n' :: Text.joinLines behind := by
  obtain ⟨line, rest, rfl⟩ := List.exists_cons_of_ne_nil hfront
  rw [List.cons_append, joinLines_cons, joinLines_cons, lineFeed_joinLines hbehind,
    List.flatMap_append, List.append_assoc]

/-- A line among others stands between two line feeds. -/
theorem joinLines_around {front behind : List Text} (hfront : front ≠ []) (hbehind : behind ≠ [])
    (line : Text) : Text.joinLines (front ++ line :: behind) =
      Text.joinLines front ++ '\n' :: (line ++ '\n' :: Text.joinLines behind) := by
  rw [joinLines_append hfront (by simp), joinLines_cons line, lineFeed_joinLines hbehind]

/-- A text behind another one may be respaced by itself. -/
theorem Respaced.append_left {fixed : Nat → Bool} {offset : Nat} {s t : Text} (u : Text)
    (h : Respaced fixed (offset + Text.size u) s t) :
    Respaced fixed offset (u ++ s) (u ++ t) := by
  induction u generalizing offset with
  | nil => exact h
  | cons c u ih => exact .cons c (ih (by simpa [Nat.add_assoc] using h))

/-- Spaces are white space on one line. -/
theorem isBlankText_spaces (width : Nat) :
    IsBlankText (List.replicate width ' ') ∧ '\n' ∉ List.replicate width ' ' := by
  have hspaces : ∀ c ∈ List.replicate width ' ', c = ' ' := fun c hc => List.eq_of_mem_replicate hc
  refine ⟨fun c hc => hspaces c hc ▸ by decide, fun hc => ?_⟩
  exact absurd (hspaces _ hc) (by decide)

/-- White space may be put behind a line feed that is not fixed. -/
theorem Respaced.insert {fixed : Nat → Bool} {offset : Nat} {s t after : Text}
    (hmovable : fixed (offset + 1) = false) (hafter : IsBlankText after) (hfeed : '\n' ∉ after)
    (h : Respaced fixed (offset + 1) s t) :
    Respaced fixed offset ('\n' :: s) ('\n' :: (after ++ t)) := by
  have hnone : IsBlankText [] := by simp [IsBlankText]
  change Respaced fixed offset ('\n' :: ([] ++ s)) _
  exact .gap hmovable hnone hafter (by simpa using hfeed) h

/-! ### Lines -/

/-- Indented lines are the lines respaced, and a line that starts inside of a literal is not
touched. The offsets count the line feed in front of the first line, too. -/
theorem indentLines_respaced {indent : Text} (hindent : IsBlankText indent) (hfeed : '\n' ∉ indent)
    (spans : List Span) (offset : Nat) {lines : List Text} (hlines : ∀ line ∈ lines, '\n' ∉ line) :
    Respaced (fun n => insideLiteral spans (n - 1)) offset (lines.flatMap ('\n' :: ·))
      ((indentLines indent spans offset lines).flatMap ('\n' :: ·)) := by
  induction lines generalizing offset with
  | nil => exact .nil offset
  | cons line rest ih =>
    have hnone := hlines line (by simp)
    have hrest := ih (offset + 1 + Text.size line) fun l hl => hlines l (by simp [hl])
    have hoffset : offset + Text.size line + 1 = offset + 1 + Text.size line := by omega
    rw [indentLines, hoffset, List.flatMap_cons, List.flatMap_cons, List.cons_append,
      List.cons_append]
    by_cases hinside : insideLiteral spans offset = true
    · rw [if_pos hinside]
      exact .cons '\n' (.append_left line hrest)
    · have hmovable : insideLiteral spans (offset + 1 - 1) = false := by simpa using hinside
      rw [if_neg hinside]
      by_cases hblank : (Text.trim line).isEmpty = true
      · rw [if_pos hblank]
        have hline : IsBlankText line := Text.trim_eq_nil_iff.mp (by simpa using hblank)
        exact .gap hmovable hline (by simp [IsBlankText]) (by simpa using hnone) hrest
      · rw [if_neg hblank, List.append_assoc]
        exact .insert hmovable hindent hfeed (.append_left line hrest)

/-- No line holds a line feed. -/
theorem not_mem_of_mem_lines {s line : Text} (h : line ∈ Text.lines s) : '\n' ∉ line := by
  induction s generalizing line with
  | nil =>
    obtain rfl : line = [] := by simpa [Text.lines] using h
    simp
  | cons c s ih =>
    rw [Text.lines] at h
    split at h
    · rcases List.mem_cons.mp h with rfl | h
      · simp
      · exact ih h
    · next hc =>
      split at h
      · next hnone => exact absurd hnone (Text.lines_ne_nil s)
      · next first others hsplit =>
        rw [hsplit] at ih
        rcases List.mem_cons.mp h with rfl | h
        · have := ih (List.mem_cons_self (a := first) (l := others))
          simpa [Ne.symm hc] using this
        · exact ih (by simp [h])

/-- Nothing is indented as nothing. -/
theorem indentBody_nil (indent : Text) : indentBody indent [] = [] := by
  have hlines : Text.lines [] = [[]] := rfl
  rw [indentBody, hlines, indentLines, indentLines]
  split
  · rfl
  · rfl

/-- An indented body behind a line feed is the body respaced. -/
theorem indentBody_respaced {indent : Text} (hindent : IsBlankText indent) (hfeed : '\n' ∉ indent)
    (body : Text) :
    Respaced (fun n => insideLiteral (literalSpans body) (n - 1)) 0 ('\n' :: body)
      ('\n' :: indentBody indent body) := by
  have hlines := Text.lines_ne_nil body
  have hindented : indentLines indent (literalSpans body) 0 (Text.lines body) ≠ [] := by
    obtain ⟨line, rest, hsplit⟩ := List.exists_cons_of_ne_nil hlines
    simp [hsplit, indentLines]
  have hnone : ∀ line ∈ Text.lines body, '\n' ∉ line := fun _ => not_mem_of_mem_lines
  have h := indentLines_respaced hindent hfeed (literalSpans body) 0 hnone
  rw [← lineFeed_joinLines hlines, ← lineFeed_joinLines hindented, Text.join_lines] at h
  exact h

/-! ### Tokens -/

/-- A text that starts later has its tokens later. -/
theorem place_add (offset n : Nat) (ls : List Lexeme) :
    Token.place (offset + n) ls =
      (Token.place offset ls).map fun t => { t with start := t.start + n } := by
  induction ls generalizing offset with
  | nil => rfl
  | cons l ls ih =>
    have hstart : offset + n + Text.size l.gap = offset + Text.size l.gap + n := by omega
    have hstop : offset + n + Text.size l.gap + Text.size l.text =
        offset + Text.size l.gap + Text.size l.text + n := by omega
    simp only [Token.place, List.map_cons]
    rw [← ih, hstop, hstart]

/-- Behind a line feed each token starts one byte later. -/
theorem mem_place_behindLine {offset : Nat} {ls : List Lexeme} {token : Token}
    (h : token ∈ Token.place offset (behindLine [] ls)) :
    ∃ before ∈ Token.place offset ls, token.kind = before.kind ∧
      token.start = before.start + 1 ∧ token.stop = before.stop + 1 := by
  cases ls with
  | nil => simp [behindLine, Token.place] at h
  | cons l ls =>
    have hstart : offset + Text.size ('\n' :: l.gap) = offset + Text.size l.gap + 1 := by
      rw [Text.size_cons, utf8Size_lineFeed]
      omega
    simp only [behindLine, List.modifyHead_cons, List.nil_append, Token.place, hstart,
      List.mem_cons] at h
    rcases h with rfl | h
    · exact ⟨_, List.mem_cons_self, rfl, rfl, by simp [Token.stop]; omega⟩
    · rw [Nat.add_right_comm, place_add, List.mem_map] at h
      obtain ⟨before, hbefore, rfl⟩ := h
      exact ⟨before, List.mem_cons_of_mem _ hbefore, rfl, rfl, by simp [Token.stop]; omega⟩

/-- Behind a line feed only the first token has another gap. -/
theorem tail_newlineBefore_lineFeed (state : LexState) (u : Text) :
    ((lexemes state ('\n' :: u)).map Lexeme.newlineBefore).tail =
      ((lexemes state u).map Lexeme.newlineBefore).tail := by
  rw [lexemes_lineFeed]
  cases lexemes state u <;> rfl

/-- An indented body has the tokens of the body where the body has the tokens that it has by
itself, and lines end in front of the same tokens behind the first one. -/
theorem indentBody_contents {state : LexState} {indent body : Text} (hindent : IsBlankText indent)
    (hfeed : '\n' ∉ indent) (hhashbang : hashbang body = [])
    (hsame : lexemes state body = lexemes .initial body)
    (hclosed : ∀ l ∈ lexemes state body, l.kind ≠ .unterminated) :
    (lexemes state (indentBody indent body)).map Lexeme.content =
        (lexemes state body).map Lexeme.content ∧
      ((lexemes state (indentBody indent body)).map Lexeme.newlineBefore).tail =
        ((lexemes state body).map Lexeme.newlineBefore).tail ∧
      leavesCommentOpen (trailingTrivia state (indentBody indent body)) =
        leavesCommentOpen (trailingTrivia state body) := by
  have hrespaced := indentBody_respaced hindent hfeed body
  have hmap : ∀ u, (lexemes state ('\n' :: u)).map Lexeme.content =
      (lexemes state u).map Lexeme.content := by
    intro u
    rw [lexemes_lineFeed, map_behindLine fun _ _ => rfl]
  have hclosed' : ∀ l ∈ lexemes state ('\n' :: body), l.kind ≠ .unterminated := by
    intro l hl
    have hcontent := List.mem_map_of_mem (f := Lexeme.content) hl
    rw [hmap] at hcontent
    obtain ⟨m, hm, hmatch⟩ := List.mem_map.mp hcontent
    have hkind : m.kind = l.kind := congrArg Prod.fst hmatch
    exact hkind ▸ hclosed m hm
  have hkept : KeepsLiterals (fun n => insideLiteral (literalSpans body) (n - 1))
      (Token.place 0 (lexemes state ('\n' :: body))) := by
    intro token htoken hliteral n hn hlt
    rw [lexemes_lineFeed, hsame] at htoken
    obtain ⟨before, hbefore, hkind, hstart, hstop⟩ := mem_place_behindLine htoken
    simp only [insideLiteral, List.any_eq_true]
    refine ⟨before.span, ?_, ?_⟩
    · rw [literalSpans, tokenize_of_hashbang hhashbang]
      exact List.mem_map_of_mem (List.mem_filter.mpr ⟨hbefore, hkind ▸ hliteral⟩)
    · have hfront : before.start < n - 1 := by omega
      have hback : n - 1 < before.stop := by omega
      exact Bool.and_eq_true_iff.mpr ⟨decide_eq_true hfront, decide_eq_true hback⟩
  obtain ⟨hcontents, hlines, stop, htrailing⟩ := contents_respaced hrespaced hclosed' hkept
  rw [hmap, hmap] at hcontents
  refine ⟨hcontents, ?_, ?_⟩
  · rw [← tail_newlineBefore_lineFeed, hlines, tail_newlineBefore_lineFeed]
  · rw [← trailingTrivia_lineFeed, ← trailingTrivia_lineFeed state body]
    exact leavesCommentOpen_respaced htrailing

end ScriptBundle
