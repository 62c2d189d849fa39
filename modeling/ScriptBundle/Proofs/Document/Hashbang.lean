import ScriptBundle.Proofs.Document.Indented
import ScriptBundle.Proofs.Document.Literals
import ScriptBundle.Proofs.Module.Moved
import ScriptBundle.Proofs.Text.Trimming
import ScriptBundle.Proofs.Token.LineEnds

/-!
# Bodies Around a Line That Is Read by No One

A line that starts with a number sign and an exclamation mark is read by no one where it is the
first line of a text. Neither stripping nor trimming takes it out, so that it is the first line of
the body as well. But then a semicolon may come to stand in front of it, and indentation does in any
case: the line is no longer at the start of a text, and is read as code.

## Main definitions

* `IsAroundLine`: whether a body is made around such a line.

## Main statements

* `exists_isAroundLine`: every body of a source with such a line is made around it;
* `tokens_indentBody_hashbang`: the tokens of the indented body.
-/

namespace ScriptBundle

/-! ### Trimming -/

/-- Behind a line that is read by no one a text is trimmed by itself. White space in front of what
is left there stays, and if nothing is left then the end of the line is trimmed. -/
theorem trim_hashbang (line behind : Text) : ∃ kept blank, kept <+: line ∧ IsBlankText blank ∧
    blank ++ Text.trim behind <+: behind ∧ Text.trim ('#' :: '!' :: (line ++ behind)) =
      '#' :: '!' :: (kept ++ (blank ++ Text.trim behind)) := by
  have hwhole : Text.trim ('#' :: '!' :: (line ++ behind)) =
      '#' :: '!' :: Text.trimEnd (line ++ behind) := by
    rw [Text.trim, Text.trimStart, List.dropWhile_cons_of_neg (by decide), trimEnd_cons (by decide),
      trimEnd_cons (by decide)]
  rw [hwhole, trimEnd_append]
  by_cases hnone : Text.trim behind = []
  · have hend : Text.trimEnd behind = [] :=
      List.rdropWhile_eq_nil_iff.mpr (Text.trim_eq_nil_iff.mp hnone)
    refine ⟨Text.trimEnd line, [], List.rdropWhile_prefix isBlank line, by simp [IsBlankText],
      ?_, ?_⟩
    · simp [hnone]
    · simp [hnone, hend]
  · have hend : Text.trimEnd behind = behind.takeWhile isBlank ++ Text.trim behind := by
      have hsplit := trimEnd_append (behind.takeWhile isBlank) (behind.dropWhile isBlank)
      rw [List.takeWhile_append_dropWhile] at hsplit
      exact hsplit.trans (if_neg hnone)
    refine ⟨line, behind.takeWhile isBlank, List.prefix_rfl, List.all_eq_true.mp List.all_takeWhile,
      ?_, ?_⟩
    · exact hend ▸ List.rdropWhile_prefix isBlank behind
    · rw [if_neg (by simp [hend, hnone]), hend]

/-! ### Stripped sources -/

/-- A stripped source starts with a line feed or is empty if the source does or is. -/
theorem head?_strip {s t : Text} (h : strip s = .ok t) (hfeed : ∀ c ∈ s.head?, c = '\n') :
    t.head? = s.head? := by
  obtain ⟨found, pieces, -, hcut, rfl⟩ := exists_pieces_of_strip h
  have hnone := hashbang_of_lineFeed hfeed
  have htokens : lexemes .initial s = (pieces.flatMap Piece.tokens).map Token.toLexeme := by
    rw [hcut.flatMap_tokens, tokenize_map_toLexeme, afterHashbang_eq_self hnone]
  rw [hnone, afterHashbang_eq_self hnone, List.nil_append]
  rcases goesOnLike_writePieces htokens rfl hcut.isMarked with hsame | ⟨d, hd, hpart, -⟩
  · exact hsame
  · rw [hfeed d hd] at hpart
    exact absurd hpart (by decide)

/-! ### Bodies -/

/-- White space in front of a text plays no part in whether it needs a semicolon. -/
theorem guardOf_blank {b s body : Text} (hb : IsBlankText b) (hs : hashbang s = [])
    (hbody : afterHashbang body = b ++ s) : guardOf body = guardOf s := by
  obtain ⟨crosses, hfirst⟩ := lexeme?_blank hb s
  rw [guardOf, guardOf, hbody, afterHashbang_eq_self hs, hfirst, Option.any_map]

/-- Whether a body is made **around a line** that is read by no one: at most a semicolon stands in
front of the line of the source, and a line feed behind it. What is left behind white space is the
body of the source without the line. -/
structure IsAroundLine (source body guard line blank core : Text) : Prop where
  whole : body = guard ++ '#' :: '!' :: (line ++ (blank ++ core))
  semicolon : guard = [] ∨ guard = [';']
  written : '#' :: '!' :: line <+: withLineFeeds source
  single : '\n' ∉ line
  spacing : IsBlankText blank
  feed : ∀ c ∈ (blank ++ core).head?, c = '\n'
  others : moduleBody (afterHashbang source) = .ok (guarded core)
  alike : hashbang core = [] → guarded core = guard ++ core

/-- Lines are made to end with line feeds alone behind a line that is read by no one. -/
theorem afterHashbang_withLineFeeds {source : Text} (hline : ['#', '!'] <+: source) :
    ∃ line, hashbang (withLineFeeds source) = '#' :: '!' :: line ∧ '\n' ∉ line ∧
      afterHashbang (withLineFeeds source) = withLineFeeds (afterHashbang source) ∧
      ∀ c ∈ (afterHashbang (withLineFeeds source)).head?, c = '\n' := by
  obtain ⟨rest, rfl⟩ := hline
  have hfeeds : withLineFeeds (['#', '!'] ++ rest) = '#' :: '!' :: withLineFeeds rest := by
    rw [List.cons_append, List.singleton_append, withLineFeeds_char (by simp),
      withLineFeeds_char (by simp)]
  rw [hfeeds]
  rcases hashbang_cases ('#' :: '!' :: withLineFeeds rest) with hnone | ⟨⟨line, hline, hin⟩, hhead⟩
  · simp [hashbang] at hnone
  · exact ⟨line, hline, hin, scanLine_withLineFeeds rest, hhead⟩

/-- **Every body of a source with a line that is read by no one is made around that line.** -/
theorem exists_isAroundLine {source body : Text} (hline : ['#', '!'] <+: source)
    (hbody : moduleBody source = .ok body) :
    ∃ guard line blank core, IsAroundLine source body guard line blank core := by
  obtain ⟨line, hfront, hsingle, hafter, hhead⟩ := afterHashbang_withLineFeeds hline
  obtain ⟨stripped, hstrip, hguarded⟩ := map_eq_ok_iff.mp hbody
  obtain ⟨rest, hrest, rfl⟩ := strip_behind_hashbang hstrip
  obtain ⟨kept, blank, hkept, hblank, hbehind, htrim⟩ :=
    trim_hashbang line (collapseBlankLines rest)
  have hsource : '#' :: '!' :: kept <+: withLineFeeds source := by
    rw [← hashbang_append_afterHashbang (withLineFeeds source), hfront]
    exact (List.prefix_append_right_inj ['#', '!'] |>.mpr hkept).trans (List.prefix_append _ _)
  have hsingle' : '\n' ∉ kept := fun hmem => hsingle (hkept.subset hmem)
  have hfeed : ∀ c ∈ (blank ++ Text.trim (collapseBlankLines rest)).head?, c = '\n' := by
    intro c hc
    have hfirst : (collapseBlankLines rest).head? = some c := by
      obtain ⟨further, hfurther⟩ := hbehind
      rw [← hfurther, List.head?_append, Option.mem_def.mp hc]
      rfl
    rw [(respaced_collapseBlankLines 0 rest).head?, head?_strip hrest hhead] at hfirst
    exact hhead c hfirst
  have hcollapsed : Text.trim (collapseBlankLines (hashbang (withLineFeeds source) ++ rest)) =
      '#' :: '!' :: (kept ++ (blank ++ Text.trim (collapseBlankLines rest))) := by
    have hone : '\n' ∉ '#' :: '!' :: line := by simpa using hsingle
    rw [hfront, collapseBlankLines_line hone]
    exact htrim
  refine ⟨guardOf ('#' :: '!' :: (kept ++ (blank ++ Text.trim (collapseBlankLines rest)))), kept,
    blank, Text.trim (collapseBlankLines rest), ?_⟩
  exact {
    whole := by rw [← hguarded, hcollapsed, guarded_eq]
    semicolon := by
      rw [guardOf]
      split <;> simp
    written := hsource
    single := hsingle'
    spacing := hblank
    feed := hfeed
    others := by
      rw [moduleBody, ← hafter, hrest]
      rfl
    alike := fun hnone => by
      rw [guarded_eq, guardOf_blank hblank hnone (afterHashbang_of_line hsingle' hfeed)] }

/-! ### Tokens -/

/-- The two characters that such a line starts with are tokens wherever it is read. -/
theorem lexemes_mark (state : LexState) (s : Text) :
    lexemes state ('#' :: '!' :: s) = ⟨[], ['#'], .punctuator '#', false⟩ ::
      ⟨[], ['!'], .punctuator '!', false⟩ ::
        lexemes ((state.next (.punctuator '#')).next (.punctuator '!')) s := by
  have hone : ∀ c ∈ ['#', '!'], ∀ (state : LexState) (s : Text),
      lexeme? state (c :: s) = some (⟨[], [c], .punctuator c, false⟩, s) := by
    intro c hc state s
    obtain rfl | rfl : c = '#' ∨ c = '!' := by simpa using hc
    all_goals rw [lexeme?_of_start (by decide) (not_startsComment_of_ne (by decide)),
      scanToken_other (by decide) (by decide) (by decide) (by decide)
        fun hslash => absurd hslash (by decide)]
  rw [(lexemes_of_some (hone '#' (by simp) state _)).1,
    (lexemes_of_some (hone '!' (by simp) _ s)).1]

/-- An indented text that starts with more than white space is read as code from its start. -/
theorem shapes_indentBody {c : Char} (hc : isBlank c = false) (s : Text) {width : Nat}
    (hwidth : 0 < width) :
    (tokenize (indentBody (List.replicate width ' ') (c :: s))).map (·.kind.shape) =
      (lexemes .initial (c :: s)).map (·.kind.shape) := by
  obtain ⟨hblank, hfeed⟩ := isBlankText_spaces width
  rcases indentBody_cases hblank hfeed (c :: s) with
    ⟨line, u, fixed, offset, hwhole, hline, hhead, -⟩ | ⟨t, fixed, offset, ht, hrespaced⟩
  · exfalso
    cases line with
    | nil =>
      rw [hhead c (by rw [← List.nil_append u, ← hwhole]; rfl)] at hc
      exact absurd hc (by decide)
    | cons d line =>
      obtain rfl : c = d := List.head_eq_of_cons_eq hwhole
      simp [hline c List.mem_cons_self] at hc
  · have hnone : hashbang (List.replicate width ' ' ++ t) = [] := by
      obtain ⟨n, rfl⟩ := Nat.exists_eq_succ_of_ne_zero (Nat.pos_iff_ne_zero.mp hwidth)
      rfl
    have hloosely : RespacedLoosely fixed offset (c :: s) (List.replicate width ' ' ++ t) :=
      ⟨[], _, _, t, by simp [IsBlankText], hblank, rfl, rfl, hrespaced⟩
    rw [ht, tokenize_map (·.kind.shape), afterHashbang_eq_self hnone]
    exact shapes_respaced hloosely (.refl .initial)

/-- **A line that is read by no one becomes code in the document.** The body of a source that starts
with such a line is made around it. As long as the line is the first one of the body, the tokens of
the body are those of what is left behind it. But an indented body is read from its first character
on: behind the semicolon, if there is one, the number sign and the exclamation mark are tokens, and
all that follows is read in the state behind them. -/
theorem tokens_indentBody_hashbang {source body : Text} (hline : ['#', '!'] <+: source)
    (hbody : moduleBody source = .ok body) :
    ∃ guard line blank core, IsAroundLine source body guard line blank core ∧
      (guard = [] → (tokenize body).map (·.kind) = (lexemes .initial core).map (·.kind)) ∧
      ∀ width, 0 < width →
        (tokenize (indentBody (List.replicate width ' ') body)).map (·.kind.shape) =
          guard.map .punctuator ++ .punctuator '#' :: .punctuator '!' ::
            (lexemes (LexState.initial.next (.punctuator '!'))
              (line ++ (blank ++ core))).map (·.kind.shape) := by
  obtain ⟨guard, line, blank, core, h⟩ := exists_isAroundLine hline hbody
  refine ⟨guard, line, blank, core, h, fun hguard => ?_, fun width hwidth => ?_⟩
  · rw [h.whole, hguard, List.nil_append, tokenize_map Lexeme.kind,
      afterHashbang_of_line h.single h.feed]
    have hsame := congrArg (List.map Prod.fst) (written_blank h.spacing .initial core)
    rw [List.map_map, List.map_map] at hsame
    exact hsame
  · rw [h.whole]
    rcases h.semicolon with rfl | rfl
    · rw [List.nil_append, shapes_indentBody (by decide) _ hwidth, lexemes_mark]
      rfl
    · rw [List.singleton_append, shapes_indentBody (by decide) _ hwidth,
        (lexemes_of_some (lexeme?_semicolon _ _)).1, lexemes_mark]
      rfl

/-- A call behind a line with a quotation mark that is not closed. -/
def quotedLineSource : Text := "#!'\nb()".toList

/-- The document of such a source has more tokens than the one without the line. -/
theorem tokens_indentBody_hashbang_of_quote :
    ['#', '!'] <+: quotedLineSource ∧ moduleBody quotedLineSource = .ok quotedLineSource ∧
      moduleBody (afterHashbang quotedLineSource) = .ok "b()".toList ∧
      (tokenize (indentBody (List.replicate 4 ' ') quotedLineSource)).map (·.kind.shape) ≠
        (tokenize "b()".toList).map (·.kind.shape) := by
  have hline : ['#', '!'] <+: quotedLineSource := ⟨"'\nb()".toList, rfl⟩
  have hbody : moduleBody quotedLineSource = .ok quotedLineSource := by
    simp only [moduleBody, strip, Interface.read, Cursor.ofSource, tokenize_eq_upTo]
    cbv
  have hrest : moduleBody (afterHashbang quotedLineSource) = .ok "b()".toList := by
    simp only [moduleBody, strip, Interface.read, Cursor.ofSource, tokenize_eq_upTo]
    cbv
  have htokens : ((tokenize "b()".toList).map (·.kind.shape)).head? = some (.identifier "b") := by
    simp only [tokenize_eq_upTo]
    cbv
  obtain ⟨guard, line, blank, core, h, -, hindented⟩ := tokens_indentBody_hashbang hline hbody
  refine ⟨hline, hbody, hrest, fun hsame => ?_⟩
  rw [← hsame, hindented 4 (by decide)] at htokens
  rcases h.semicolon with rfl | rfl <;> simp at htokens

end ScriptBundle
