import ScriptBundle.Proofs.Document.Indentation
import ScriptBundle.Proofs.Token.Bounded

/-!
# Tokens of an Indented Body

Behind the first line an indented body differs from the body in the white space behind line feeds
only. The first line has no line feed in front of it: if it is more than white space, then the
indentation stands in front of all that is read, and otherwise a line feed does in either body.

## Main statements

* `indentBody_cases`: the two ways to indent a first line;
* `newlineBefore_indentBody`: lines end in front of the first token as before;
* `tokenize_indentBody`: an indented body has the tokens of the body.
-/

namespace ScriptBundle

/-! ### The first line -/

/-- There are two ways to indent a first line: of a line of white space no more is left than the
line feed at its end, and any other line stays as it is behind the indentation. -/
theorem indentBody_cases {indent : Text} (hindent : IsBlankText indent) (hfeed : '\n' ∉ indent)
    (body : Text) :
    (∃ line s fixed offset, body = line ++ s ∧ IsBlankText line ∧ (∀ c ∈ s.head?, c = '\n') ∧
        Respaced fixed offset s (indentBody indent body)) ∨
      ∃ t fixed offset, indentBody indent body = indent ++ t ∧ Respaced fixed offset body t := by
  obtain ⟨first, others, hlines⟩ := List.exists_cons_of_ne_nil (Text.lines_ne_nil body)
  have hbody : first ++ others.flatMap ('\n' :: ·) = body := by
    rw [← joinLines_cons, ← hlines, Text.join_lines]
  have hnone : ∀ line ∈ others, '\n' ∉ line := fun line hline =>
    not_mem_of_mem_lines (hlines ▸ List.mem_cons_of_mem _ hline)
  have hothers := indentLines_respaced hindent hfeed (literalSpans body) (1 + Text.size first) hnone
  have houtside : insideLiteral (literalSpans body) 0 = false := by simp [insideLiteral]
  have hoffset : 0 + Text.size first + 1 = 1 + Text.size first := by omega
  rw [indentBody, hlines, indentLines, joinLines_cons, houtside, if_neg Bool.false_ne_true, hoffset]
  by_cases hempty : (Text.trim first).isEmpty = true
  · rw [if_pos hempty, List.nil_append]
    refine .inl ⟨first, _, _, _, hbody.symm, ?_, ?_, hothers⟩
    · exact Text.trim_eq_nil_iff.mp (by simpa using hempty)
    · cases others <;> simp
  · rw [if_neg hempty, List.append_assoc]
    exact .inr ⟨_, _, 1, rfl, hbody ▸ hothers.append_left first⟩

/-- Spaces in front of a text end no line. -/
theorem lexeme?_spaces {indent : Text} (hindent : ∀ c ∈ indent, c = ' ') (state : LexState)
    (s : Text) : (lexeme? state (indent ++ s)).map (·.1.newlineBefore) =
      (lexeme? state s).map (·.1.newlineBefore) := by
  have hspaces : scanTrivia (indent ++ s) = (scanTrivia s).after indent := by
    induction indent with
    | nil => rfl
    | cons c indent ih =>
      obtain ⟨rfl, hothers⟩ := List.forall_mem_cons.mp hindent
      rw [List.cons_append, scanTrivia_cons (not_startsComment_of_ne (by decide)),
        if_pos (by decide), ih hothers]
      rfl
  rw [lexeme?, hspaces, lexeme?]
  cases hs : (scanTrivia s).rest <;> simp [hs]

/-- In front of the first token of respaced texts a line ends in both or in neither. -/
theorem Respaced.newlineBefore {fixed : Nat → Bool} {offset : Nat} {s t : Text}
    (h : Respaced fixed offset s t) (state : LexState) :
    (lexeme? state t).map (·.1.newlineBefore) = (lexeme? state s).map (·.1.newlineBefore) := by
  have hfound := lexeme?_respaced h state
  generalize lexeme? state s = first at hfound
  generalize lexeme? state t = first' at hfound
  cases hfound with
  | none => rfl
  | some hshape hline htight hloose => exact congrArg some hline

/-- Behind a line of white space a line ends in front of the first token. -/
theorem newlineBefore_behind_blank {line : Text} (hline : IsBlankText line) (state : LexState)
    (s : Text) : (lexeme? state (line ++ '\n' :: s)).map (·.1.newlineBefore) =
      (lexeme? state ('\n' :: s)).map (·.1.newlineBefore) := by
  obtain ⟨crosses, hfirst⟩ := lexeme?_blank hline ('\n' :: s)
  have hfeed := lexeme?_behind_trivia (lexeme?_nil state) (by simp [leavesCommentOpen]) s
  rw [List.nil_append] at hfeed
  rw [hfirst, hfeed]
  cases lexeme? state s <;> simp

/-- In front of the first token of an indented body a line ends if one does in the body. -/
theorem newlineBefore_indentBody {indent : Text} (hindent : ∀ c ∈ indent, c = ' ')
    (state : LexState) (body : Text) :
    (lexeme? state (indentBody indent body)).map (·.1.newlineBefore) =
      (lexeme? state body).map (·.1.newlineBefore) := by
  have hblank : IsBlankText indent := fun c hc => by rw [hindent c hc]; decide
  have hfeed : '\n' ∉ indent := fun hmem => absurd (hindent _ hmem) (by decide)
  rcases indentBody_cases hblank hfeed body with
    ⟨line, s, fixed, offset, rfl, hline, hhead, hrespaced⟩ | ⟨t, fixed, offset, ht, hrespaced⟩
  · rw [hrespaced.newlineBefore]
    cases s with
    | nil =>
      obtain ⟨crosses, hnothing⟩ := lexeme?_blank hline []
      rw [hnothing, lexeme?_nil]
      rfl
    | cons c s =>
      obtain rfl : c = '\n' := hhead c rfl
      exact (newlineBefore_behind_blank hline state s).symm
  · rw [ht, lexeme?_spaces hindent, hrespaced.newlineBefore]

/-- Respaced texts start with a line that is read by no one or do not. -/
theorem Respaced.hashbang_eq_nil {fixed : Nat → Bool} {offset : Nat} {s t : Text}
    (h : Respaced fixed offset s t) (hs : hashbang s = []) : hashbang t = [] := by
  rw [hashbang_eq_nil_iff] at hs ⊢
  rintro ⟨rest, rfl⟩
  obtain ⟨s, rfl⟩ := List.head?_eq_some_iff.mp h.head?.symm
  obtain ⟨t, ht, hrest⟩ := h.cons_of_ne (by decide)
  obtain rfl : '!' :: rest = t := List.tail_eq_of_cons_eq ht
  obtain ⟨s, rfl⟩ := List.head?_eq_some_iff.mp hrest.head?.symm
  exact hs ⟨s, rfl⟩

/-- Indentation puts no such line in front of a body. -/
theorem hashbang_indentBody {indent : Text} (hindent : IsBlankText indent) (hfeed : '\n' ∉ indent)
    {body : Text} (hbody : hashbang body = []) : hashbang (indentBody indent body) = [] := by
  rcases indentBody_cases hindent hfeed body with
    ⟨line, s, fixed, offset, rfl, hline, hhead, hrespaced⟩ | ⟨t, fixed, offset, ht, hrespaced⟩
  · exact hrespaced.hashbang_eq_nil (hashbang_of_lineFeed hhead)
  · rw [ht]
    cases indent with
    | nil => exact hrespaced.hashbang_eq_nil hbody
    | cons c indent =>
      rw [hashbang_eq_nil_iff]
      rintro ⟨rest, hrest⟩
      obtain rfl : '#' = c := List.head_eq_of_cons_eq hrest
      exact absurd (hindent '#' List.mem_cons_self) (by decide)

/-! ### All tokens -/

/-- The characters of the strings and templates among lexemes are part of their contents. -/
theorem filterMap_content (ls : List Lexeme) :
    (ls.map Lexeme.content).filterMap Prod.snd =
      (ls.filter (isTextLiteral ·.kind)).map Lexeme.text := by
  induction ls with
  | nil => rfl
  | cons l ls ih =>
    cases hliteral : isTextLiteral l.kind <;> simp [Lexeme.content, hliteral, ih]

theorem eq_of_head?_of_tail {as bs : List α} (hhead : as.head? = bs.head?)
    (htail : as.tail = bs.tail) :
    as = bs := by
  cases as <;> cases bs <;> simp_all

/-- The first lexeme of a text is the one that is found first. -/
theorem head?_lexemes (state : LexState) (s : Text) :
    (lexemes state s).head? = (lexeme? state s).map Prod.fst := by
  cases hfirst : lexeme? state s with
  | none => rw [(lexemes_of_none hfirst).1]; rfl
  | some found => rw [(lexemes_of_some hfirst).1]; rfl

/-- **Indentation changes no token.** In a body whose literals are all closed and whose first line
is read, the indented tokens are of the same kinds, with the same names and values, lines end in
front of the same ones of them, and strings and templates are written with the same characters. -/
theorem tokenize_indentBody {body : Text} (hhashbang : ¬['#', '!'] <+: body)
    (hclosed : ∀ t ∈ tokenize body, t.kind ≠ .unterminated) (width : Nat) :
    let indented := tokenize (indentBody (List.replicate width ' ') body)
    indented.map (·.kind) = (tokenize body).map (·.kind) ∧
      indented.map (·.newlineBefore) = (tokenize body).map (·.newlineBefore) ∧
      (indented.filter (isTextLiteral ·.kind)).map (·.text) =
        ((tokenize body).filter (isTextLiteral ·.kind)).map (·.text) := by
  have hspaces : ∀ c ∈ List.replicate width ' ', c = ' ' := fun c hc => List.eq_of_mem_replicate hc
  obtain ⟨hblank, hfeed⟩ := isBlankText_spaces width
  have hbody := hashbang_eq_nil_iff.mpr hhashbang
  have hindented := hashbang_indentBody hblank hfeed hbody
  have hlexemes : ∀ l ∈ lexemes .initial body, l.kind ≠ .unterminated := by
    intro l hl
    rw [← afterHashbang_eq_self hbody, ← tokenize_map_toLexeme] at hl
    obtain ⟨t, ht, rfl⟩ := List.mem_map.mp hl
    exact hclosed t ht
  obtain ⟨hcontents, htail, -⟩ := indentBody_contents hblank hfeed hbody rfl hlexemes
  have hhead := newlineBefore_indentBody hspaces .initial body
  have hfilter : ∀ s, ((tokenize s).filter (isTextLiteral ·.kind)).map (·.text) =
      ((lexemes .initial (afterHashbang s)).map Lexeme.content).filterMap Prod.snd := by
    intro s
    rw [filterMap_content, ← tokenize_map_toLexeme, List.filter_map, List.map_map]
    rfl
  intro indented
  refine ⟨?_, ?_, ?_⟩
  · have hkinds := congrArg (List.map Prod.fst) hcontents
    rw [List.map_map, List.map_map] at hkinds
    rw [tokenize_map Lexeme.kind, tokenize_map Lexeme.kind, afterHashbang_eq_self hbody,
      afterHashbang_eq_self hindented]
    exact hkinds
  · rw [tokenize_map Lexeme.newlineBefore, tokenize_map Lexeme.newlineBefore,
      afterHashbang_eq_self hbody, afterHashbang_eq_self hindented]
    refine eq_of_head?_of_tail ?_ htail
    rw [List.head?_map, List.head?_map, head?_lexemes, head?_lexemes, Option.map_map,
      Option.map_map]
    exact hhead
  · rw [hfilter, hfilter, afterHashbang_eq_self hbody, afterHashbang_eq_self hindented, hcontents]

/-- A body with a template, a string and a comment that go on in other lines, and with a line of
white space. -/
def brokenBody : Text := "\n  f(\x60a\n\n b\x60) /* c\n \n */\n \t\n'd\\\n  e'".toList

/-- The tokens of such a body stay as they are. -/
theorem tokenize_indentBody_of_broken :
    indentBody (List.replicate 2 ' ') brokenBody =
        "\n    f(\x60a\n\n b\x60) /* c\n\n   */\n\n  'd\\\n  e'".toList ∧
      (¬['#', '!'] <+: brokenBody) ∧ (∀ t ∈ tokenize brokenBody, t.kind ≠ .unterminated) ∧
      (tokenize (indentBody (List.replicate 2 ' ') brokenBody)).map (·.kind) =
        (tokenize brokenBody).map (·.kind) ∧
      (tokenize (indentBody (List.replicate 2 ' ') brokenBody)).map (·.newlineBefore) =
        [true, false, false, false, true] ∧
      ((tokenize (indentBody (List.replicate 2 ' ') brokenBody)).filter
          (isTextLiteral ·.kind)).map (·.text) =
        ["\x60a\n\n b\x60".toList, "'d\\\n  e'".toList] := by
  have hread : tokenize brokenBody =
      [⟨⟨"\n  ".toList, ['f'], .identifier "f", true⟩, 3⟩, ⟨⟨[], ['('], .punctuator '(', false⟩, 4⟩,
        ⟨⟨[], "\x60a\n\n b\x60".toList, .template, false⟩, 5⟩,
        ⟨⟨[], [')'], .punctuator ')', false⟩, 12⟩,
        ⟨⟨" /* c\n \n */\n \t\n".toList, "'d\\\n  e'".toList, .string "d  e", true⟩, 28⟩] := by
    rw [tokenize_eq_upTo]
    cbv
  have hfirst : ¬['#', '!'] <+: brokenBody := by decide
  have hclosed : ∀ t ∈ tokenize brokenBody, t.kind ≠ .unterminated := by
    rw [hread]
    decide
  obtain ⟨hkinds, hlines, htexts⟩ := tokenize_indentBody hfirst hclosed 2
  refine ⟨?_, hfirst, hclosed, hkinds, hlines.trans ?_, htexts.trans ?_⟩
  · rw [indentBody, literalSpans, hread]
    cbv
  · rw [hread]
    rfl
  · rw [hread]
    rfl

end ScriptBundle
