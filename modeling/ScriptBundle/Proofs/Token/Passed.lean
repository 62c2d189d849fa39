import ScriptBundle.Proofs.Token.Boundary

/-!
# What Goes On Behind a Text

A comment or a template that is open at the end of a text goes on over the lines behind it, up to
one that closes it. A string or a regular expression goes on over one line end at the most, so it is
not closed behind an empty line. Where nothing is open, the next token starts on a new line.

## Main statements

* `scanTrivia_reaches`, `scanTemplate_reaches`: what is open goes on over lines that do not close
  it;
* `lexeme?_open`, `exists_unterminated_behind`: the same for tokens;
* `lexemes_of_open`: behind a comment that is open there are no tokens;
* `start_cases`: where the tokens behind a text start that leaves nothing open.
-/

namespace ScriptBundle

/-! ### Comments and templates that are open -/

/-- A comment goes on over lines that do not close it. -/
theorem scanBlockComment_lines {lines : Text} (h : ¬['*', '/'] <:+: lines) (w : Text) :
    ∃ more, (scanBlockComment (lines ++ '\n' :: w)).taken = lines ++ '\n' :: more := by
  induction lines with
  | nil =>
    refine ⟨(scanBlockComment w).taken, ?_⟩
    rw [List.nil_append, List.nil_append, scanBlockComment_cons fun hc => absurd hc (by decide)]
    rfl
  | cons c lines ih =>
    have hnext : c = '*' → (lines ++ '\n' :: w).head? ≠ some '/' := by
      rintro rfl hhead
      cases lines with
      | nil => simp at hhead
      | cons d lines =>
        obtain rfl : d = '/' := by simpa using hhead
        exact h ⟨[], lines, rfl⟩
    obtain ⟨more, hmore⟩ := ih fun hinside => h (List.infix_cons hinside)
    refine ⟨more, ?_⟩
    rw [List.cons_append, List.cons_append, scanBlockComment_cons hnext, Scan.after_taken,
      Scan.map_taken, hmore]
    rfl

section

variable {s lines : Text}

/-- A comment that a text leaves open goes on over lines that do not close it. -/
theorem scanBlockComment_reaches (hopen : (scanBlockComment s).value.closed = false)
    (h : ¬['*', '/'] <:+: lines) (w : Text) :
    ∃ more, (scanBlockComment (s ++ '\n' :: (lines ++ '\n' :: w))).taken =
      s ++ '\n' :: (lines ++ '\n' :: more) := by
  fun_induction scanBlockComment s with
  | case1 =>
    have hlines : ¬['*', '/'] <:+: '\n' :: lines := by
      intro hinside
      rcases List.infix_cons_iff.mp hinside with hstart | hinside
      · simp at hstart
      · exact h hinside
    exact scanBlockComment_lines hlines w
  | case2 => simp at hopen
  | case3 c rest hnone _ ih =>
    have hnext : c = '*' → (rest ++ '\n' :: (lines ++ '\n' :: w)).head? ≠ some '/' := by
      rintro hc hhead
      cases rest with
      | nil => simp at hhead
      | cons d rest =>
        obtain rfl : d = '/' := by simpa using hhead
        exact hnone rest hc rfl
    obtain ⟨more, hmore⟩ := ih hopen
    refine ⟨more, ?_⟩
    rw [List.cons_append, List.cons_append, scanBlockComment_cons hnext, Scan.after_taken,
      Scan.map_taken, hmore]
    rfl

/-- A comment that trivia leave open goes on over lines that do not close it. -/
theorem scanTrivia_reaches (hrest : (scanTrivia s).rest = []) (hopen : leavesCommentOpen s = true)
    (h : ¬['*', '/'] <:+: lines) (w : Text) :
    ∃ more, (scanTrivia (s ++ '\n' :: (lines ++ '\n' :: w))).taken =
      s ++ '\n' :: (lines ++ '\n' :: more) := by
  fun_induction scanTrivia s with
  | case1 => simp [leavesCommentOpen] at hopen
  | case2 rest line _ ih =>
    rw [leavesCommentOpen] at hopen
    obtain ⟨more, hmore⟩ := ih (by simpa using hrest) hopen
    refine ⟨more, ?_⟩
    rw [List.cons_append, List.cons_append, scanTrivia, scanLine_append_lineFeed, Scan.after_taken,
      Scan.onto_rest, Scan.onto_taken, hmore, List.cons_append, List.cons_append,
      ← List.append_assoc, scanLine_taken_append_rest, List.cons_append, List.cons_append]
  | case3 rest comment _ ih =>
    rw [leavesCommentOpen, Bool.or_eq_true, Bool.not_eq_true'] at hopen
    rw [List.cons_append, List.cons_append, scanTrivia, Scan.after_taken, Scan.map_taken]
    cases hclosed : (scanBlockComment rest).value.closed with
    | true =>
      obtain ⟨more, hmore⟩ := ih (by simpa using hrest) (hopen.resolve_left (by simp [hclosed]))
      refine ⟨more, ?_⟩
      rw [scanBlockComment_append hclosed, Scan.onto_rest, Scan.onto_taken, hmore, List.cons_append,
        List.cons_append, ← List.append_assoc, scanBlockComment_taken_append_rest, List.cons_append,
        List.cons_append]
    | false =>
      obtain ⟨more, hmore⟩ := scanBlockComment_reaches hclosed h w
      rw [hmore]
      refine ⟨more ++
        (scanTrivia (scanBlockComment (rest ++ '\n' :: (lines ++ '\n' :: w))).rest).taken, ?_⟩
      simp
  | case4 c rest hline hblock hend ih =>
    have hnone := not_startsComment hline hblock
    rw [leavesCommentOpen_cons hnone] at hopen
    obtain ⟨more, hmore⟩ := ih (by simpa using hrest) hopen
    refine ⟨more, ?_⟩
    rw [List.cons_append, scanTrivia_cons (mt (startsComment_append_lineFeed _).mp hnone),
      if_pos (by simp [isSpacing, hend])]
    simp [hmore]
  | case5 c rest hline hblock hend hblank ih =>
    have hnone := not_startsComment hline hblock
    rw [leavesCommentOpen_cons hnone] at hopen
    obtain ⟨more, hmore⟩ := ih (by simpa using hrest) hopen
    refine ⟨more, ?_⟩
    rw [List.cons_append, scanTrivia_cons (mt (startsComment_append_lineFeed _).mp hnone),
      if_pos (by simpa [isSpacing, hend] using hblank)]
    simp [hmore]
  | case6 => simp at hrest

/-- A template that a text leaves open ends with a backquote behind it, if it ends. -/
theorem scanTemplate_reaches {state : TemplateState} {u : Text}
    (hopen : (scanTemplate state s).value.closed = false)
    (hclosed : (scanTemplate state (s ++ u)).value.closed = true) :
    ∃ front, (scanTemplate state (s ++ u)).taken = s ++ front ∧ front.getLast? = some '\x60' ∧
      u = front ++ (scanTemplate state (s ++ u)).rest := by
  have hends : ∀ inside, s ≠ (scanTemplate state (s ++ u)).taken ++ inside := by
    intro inside hs
    have hsame := scanTemplate_taken hclosed inside
    rw [← hs] at hsame
    rw [hsame, Scan.onto_value, hclosed] at hopen
    simp at hopen
  have hlast := getLast?_scanTemplate hclosed
  rcases List.append_eq_append_iff.mp (scanTemplate_taken_append_rest state (s ++ u)) with
    ⟨inside, hs, -⟩ | ⟨front, htaken, hu⟩
  · exact absurd hs (hends inside)
  · refine ⟨front, htaken, ?_, hu⟩
    cases hfront : front.getLast? with
    | none =>
      rw [List.getLast?_eq_none_iff.mp hfront] at htaken
      exact absurd htaken.symm (by simpa using hends [])
    | some c => simpa [htaken, List.getLast?_append, hfront] using hlast

end

/-- What ends with a character that is not in the lines at hand ends behind them. -/
theorem exists_of_getLast? {front rest lines w : Text} {c : Char} (h : front ++ rest = lines ++ w)
    (hlast : front.getLast? = some c) (hc : c ∉ lines) : ∃ more, front = lines ++ more := by
  rcases List.append_eq_append_iff.mp h with ⟨inside, hlines, -⟩ | ⟨more, hmore, -⟩
  · rw [hlines] at hc
    exact absurd (List.mem_append_left _ (List.mem_of_getLast? hlast)) hc
  · exact ⟨more, hmore⟩

/-! ### Where tokens start -/

/-- What is written behind the gap of the first token does not stand in front of it. -/
theorem size_gap_le {front behind ls : List Lexeme} {l m : Lexeme}
    (h : m :: ls = front ++ l :: behind) :
    Text.size m.gap ≤ Text.size (writeLexemes front ++ l.gap) := by
  cases front with
  | nil =>
    obtain ⟨rfl, -⟩ : m = l ∧ ls = behind := by simpa using h
    simp [writeLexemes]
  | cons first front =>
    obtain ⟨rfl, -⟩ : m = first ∧ ls = front ++ l :: behind := by simpa using h
    simp only [writeLexemes, List.flatMap_cons, Text.size_append]
    omega

/-- A token starts in front of the end of its text. -/
theorem start_lt {state : LexState} {s : Text} {front behind : List Lexeme} {l : Lexeme}
    (h : lexemes state s = front ++ l :: behind) :
    Text.size (writeLexemes front ++ l.gap) < Text.size s := by
  obtain ⟨rest, hrest, -⟩ := exists_of_lexemes_append h
  obtain ⟨_, hfirst, -⟩ := lexeme?_of_lexemes_cons hrest
  obtain ⟨c, tail, htext, -⟩ := exists_cons_of_lexeme? hfirst
  have hwhole := congrArg Text.size (lexemes_flatten state s)
  rw [h, List.flatMap_append, List.flatMap_cons, ← writeLexemes, htext] at hwhole
  simp only [Text.size_append, Text.size_cons] at hwhole ⊢
  have hpos := Char.utf8Size_pos c
  omega

/-- Behind a text that ends cleanly a token is one of the text or starts on a new line. -/
theorem start_cases {state : LexState} {s u : Text} {front behind : List Lexeme} {l : Lexeme}
    (hends : EndsCleanly state s) (h : lexemes state (s ++ '\n' :: u) = front ++ l :: behind) :
    (∃ others, lexemes state s = front ++ l :: others) ∨
      Text.size s + 1 ≤ Text.size (writeLexemes front ++ l.gap) := by
  rw [lexemes_append hends] at h
  have hnext : ∀ own, front = lexemes state s ++ own → behindLine (trailingTrivia state s)
      (lexemes (state.behind ((lexemes state s).map Lexeme.kind)) u) = own ++ l :: behind →
      Text.size s + 1 ≤ Text.size (writeLexemes front ++ l.gap) := by
    rintro own rfl hown
    have hgap : Text.size (trailingTrivia state s) + 1 ≤ Text.size (writeLexemes own ++ l.gap) := by
      cases hls : lexemes (state.behind ((lexemes state s).map Lexeme.kind)) u with
      | nil => simp [hls, behindLine] at hown
      | cons m ms =>
        rw [hls] at hown
        have hle := size_gap_le hown
        simp only [Text.size_append, Text.size_cons, utf8Size_lineFeed] at hle ⊢
        omega
    have hwhole := congrArg Text.size (lexemes_flatten state s)
    rw [← writeLexemes, Text.size_append] at hwhole
    simp only [writeLexemes, List.flatMap_append, Text.size_append] at hgap hwhole ⊢
    omega
  rcases List.append_eq_append_iff.mp h with ⟨own, hfront, hown⟩ | ⟨others, hothers, hrest⟩
  · exact .inr (hnext own hfront hown)
  · cases others with
    | nil => exact .inr (hnext [] (by simpa using hothers.symm) (by simpa using hrest.symm))
    | cons m others =>
      obtain ⟨rfl, -⟩ : l = m ∧ behind = others ++ _ := by simpa using hrest
      exact .inl ⟨others, hothers⟩

/-- Behind a text that ends cleanly, the tokens that are not its own start on a new line. -/
theorem start_behind {state : LexState} {s u : Text} {front behind : List Lexeme} {l : Lexeme}
    (hends : EndsCleanly state s)
    (h : lexemes state (s ++ '\n' :: u) = lexemes state s ++ (front ++ l :: behind)) :
    Text.size s < Text.size (writeLexemes (lexemes state s ++ front) ++ l.gap) := by
  rw [← List.append_assoc] at h
  refine (start_cases hends h).resolve_left ?_
  rintro ⟨others, hothers⟩
  have hlength := congrArg List.length hothers
  simp at hlength

/-! ### Tokens that are open -/

/-- A token that its text leaves open is still open behind a line that closes nothing, or it is a
template that ends with a backquote behind the text. -/
theorem lexeme?_open {state : LexState} {s rest line : Text} {l : Lexeme}
    (hfirst : lexeme? state s = some (l, rest)) (hopen : l.kind = .unterminated)
    (hline : ClosesNothing line) (v : Text) :
    ∃ m rest', lexeme? state (s ++ '\n' :: (line ++ '\n' :: v)) = some (m, rest') ∧
      m.gap = l.gap ∧ (m.kind = .unterminated ∨ l.text.head? = some '\x60' ∧
        ∃ front, m.gap ++ m.text = s ++ front ∧ front.getLast? = some '\x60' ∧
          front ++ rest' = '\n' :: (line ++ '\n' :: v)) := by
  obtain ⟨c, tail, htext, hspacing, hcomment, crosses, htoken⟩ := exists_cons_of_lexeme? hfirst
  have hs : s = l.gap ++ c :: (tail ++ rest) := by
    rw [← lexeme?_gap_append_text hfirst, htext]
    simp
  have hvalue : (scanToken state.regexAllowed c (tail ++ rest)).value.1 = .unterminated := by
    rw [htoken]
    exact hopen
  have hwhole : s ++ '\n' :: (line ++ '\n' :: v) =
      l.gap ++ c :: (tail ++ rest ++ '\n' :: (line ++ '\n' :: v)) := by
    rw [hs]
    simp
  obtain ⟨_, hfound⟩ := lexeme?_trivia (isTrivia_gap hfirst) state
    (c :: (tail ++ rest ++ '\n' :: (line ++ '\n' :: v)))
  rw [lexeme?_of_start hspacing (mt (startsComment_append_lineFeed _).mp hcomment), ← hwhole]
    at hfound
  refine ⟨_, _, hfound, List.append_nil _, ?_⟩
  by_cases htick : c = '\x60'
  · subst htick
    have hopen : (scanTemplate (.text []) (tail ++ rest)).value.closed = false := by
      cases hclosed : (scanTemplate (.text []) (tail ++ rest)).value.closed with
      | false => rfl
      | true => simp [scanToken_backquote, hclosed] at hvalue
    rw [scanToken_backquote]
    cases hclosed : (scanTemplate (.text [])
        (tail ++ rest ++ '\n' :: (line ++ '\n' :: v))).value.closed with
    | false => exact .inl (by rw [Scan.after_value, Scan.map_value, hclosed]; rfl)
    | true =>
      obtain ⟨front, htaken, hlast, hv⟩ := scanTemplate_reaches hopen hclosed
      refine .inr ⟨by simp [htext], front, ?_, hlast, hv.symm⟩
      rw [Scan.after_taken, Scan.map_taken, htaken, hs]
      simp
  · exact .inl (scanToken_open hline v htick hvalue)

/-- What a text leaves open is not closed by a line that closes nothing, if no backquote follows. -/
theorem exists_unterminated_behind {state : LexState} {s line v : Text}
    (hline : ClosesNothing line) (htick : '\x60' ∉ '\n' :: (line ++ '\n' :: v))
    (hopen : ∃ l ∈ lexemes state s, l.kind = .unterminated) :
    ∃ l ∈ lexemes state (s ++ '\n' :: (line ++ '\n' :: v)), l.kind = .unterminated := by
  induction hlength : s.length using Nat.strongRecOn generalizing state s with
  | _ n ih =>
    cases hfirst : lexeme? state s with
    | none => simp [(lexemes_of_none hfirst).1] at hopen
    | some found =>
      obtain ⟨l, rest⟩ := found
      by_cases hkind : l.kind = .unterminated
      · obtain ⟨m, rest', hm, -, hreach⟩ := lexeme?_open hfirst hkind hline v
        rw [(lexemes_of_some hm).1]
        rcases hreach with hreach | ⟨-, front, -, hlast, hfront⟩
        · exact ⟨m, by simp, hreach⟩
        · rw [← hfront] at htick
          exact absurd (List.mem_append_left _ (List.mem_of_getLast? hlast)) htick
      · have hrest : ∃ m ∈ lexemes (state.next l.kind) rest, m.kind = .unterminated := by
          obtain ⟨m, hm, hmkind⟩ := hopen
          rw [(lexemes_of_some hfirst).1] at hm
          rcases List.mem_cons.mp hm with rfl | hm
          · exact absurd hmkind hkind
          · exact ⟨m, hm, hmkind⟩
        obtain ⟨m, hm, hmkind⟩ := ih _ (hlength ▸ lexeme?_length hfirst) hrest rfl
        rw [(lexemes_of_some (lexeme?_append hfirst hkind _)).1]
        exact ⟨m, List.mem_cons_of_mem _ hm, hmkind⟩

/-- A comment that a text leaves open takes a text without a slash along. -/
theorem lexemes_of_open {state : LexState} {s v : Text}
    (hclosed : ∀ l ∈ lexemes state s, l.kind ≠ .unterminated)
    (hopen : leavesCommentOpen (trailingTrivia state s) = true) (hv : '/' ∉ v) :
    lexemes state (s ++ '\n' :: v) = lexemes state s := by
  induction hlength : s.length using Nat.strongRecOn generalizing state s with
  | _ n ih =>
    cases hfirst : lexeme? state s with
    | none =>
      obtain ⟨hnil, htrailing⟩ := lexemes_of_none hfirst
      rw [htrailing] at hopen
      have hrest := scanTrivia_open hv (scanTrivia_rest_of_none hfirst) hopen
      have hnone : lexeme? state (s ++ '\n' :: v) = none := by simp [lexeme?, hrest]
      rw [(lexemes_of_none hnone).1, hnil]
    | some found =>
      obtain ⟨l, rest⟩ := found
      obtain ⟨hlexemes, htrailing⟩ := lexemes_of_some hfirst
      rw [hlexemes] at hclosed
      obtain ⟨hkind, hothers⟩ := List.forall_mem_cons.mp hclosed
      rw [(lexemes_of_some (lexeme?_append hfirst hkind v)).1, hlexemes,
        ih _ (hlength ▸ lexeme?_length hfirst) hothers (htrailing ▸ hopen) rfl]

end ScriptBundle
