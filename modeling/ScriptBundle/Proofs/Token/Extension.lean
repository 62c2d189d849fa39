import ScriptBundle.Proofs.Token.Step

/-!
# Texts That Go On

What a scanner finds at the front of a text is still there when more text follows, as long as
the scanner came to an end of its own and not to the end of the text. For literals and block
comments that means that they are closed. A line comment and a token that could grow need a
line feed behind them.

## Main statements

* `lexeme?_append`: a token that is not left open stays as it is in front of a new line;
* `lexeme?_behind_trivia`: closed trivia and a line feed hide nothing behind them;
* `lexemes_append`: a text that ends cleanly contributes the same lexemes in front of a new line,
  and the lexer reads on from the state behind the last of them.
-/

namespace ScriptBundle

namespace Scan

/-- A scan that leaves another text over. -/
def onto (s : Scan α) (u : Text) : Scan α := { s with rest := u }

@[simp] theorem onto_value (s : Scan α) (u : Text) : (s.onto u).value = s.value := rfl

@[simp] theorem onto_taken (s : Scan α) (u : Text) : (s.onto u).taken = s.taken := rfl

@[simp] theorem onto_rest (s : Scan α) (u : Text) : (s.onto u).rest = u := rfl

@[simp] theorem onto_after (s : Scan α) (front u : Text) :
    (s.after front).onto u = (s.onto u).after front := rfl

@[simp] theorem onto_map (s : Scan α) (f : α → β) (u : Text) :
    (s.map f).onto u = (s.onto u).map f := rfl

end Scan

/-- A text starts like what was taken from it, unless that is nothing. -/
theorem head?_taken_append {taken rest s : Text} (h : taken ++ rest = s) (hne : taken ≠ [])
    (u : Text) : (taken ++ u).head? = s.head? := by
  obtain ⟨c, tail, rfl⟩ := List.exists_cons_of_ne_nil hne
  simp [← h]

/-- Characters of a kind that no line feed is of stop in front of a new line. -/
theorem takeWhile_append_lineFeed {p : Char → Bool} (hp : p '\n' = false) (s u : Text) :
    (s ++ '\n' :: u).takeWhile p = s.takeWhile p ∧
      (s ++ '\n' :: u).dropWhile p = s.dropWhile p ++ '\n' :: u := by
  induction s with
  | nil => simp [hp]
  | cons c s ih =>
    by_cases hc : p c = true
    · simp [hc, ih]
    · simp [hc]

/-! ### Comments -/

/-- A line comes to its end at a line feed, in the text or behind it. -/
theorem scanLine_append_lineFeed (s u : Text) :
    scanLine (s ++ '\n' :: u) = (scanLine s).onto ((scanLine s).rest ++ '\n' :: u) := by
  induction s with
  | nil => rfl
  | cons c s ih =>
    simp only [scanLine, Scan.onto, Scan.mk.injEq, true_and] at ih ⊢
    by_cases hc : c = '\n'
    · simp [hc]
    · rw [List.cons_append, List.takeWhile_cons_of_pos (by simpa using hc),
        List.dropWhile_cons_of_pos (by simpa using hc),
        List.takeWhile_cons_of_pos (by simpa using hc),
        List.dropWhile_cons_of_pos (by simpa using hc), ih.1, ih.2]
      exact ⟨rfl, rfl⟩

/-- A line is the same whatever follows the line feed at its end. -/
theorem scanLine_taken (s u : Text) :
    scanLine ((scanLine s).taken ++ '\n' :: u) = (scanLine s).onto ('\n' :: u) := by
  induction s with
  | nil => rfl
  | cons c s ih =>
    simp only [scanLine, Scan.onto, Scan.mk.injEq, true_and] at ih ⊢
    by_cases hc : c = '\n'
    · simp [hc]
    · rw [List.takeWhile_cons_of_pos (by simpa using hc), List.cons_append,
        List.takeWhile_cons_of_pos (by simpa using hc),
        List.dropWhile_cons_of_pos (by simpa using hc), ih.1, ih.2]
      exact ⟨rfl, rfl⟩

/-- What is left of a line starts with a line feed. -/
theorem scanLine_rest_eq {s : Text} (h : (scanLine s).rest ≠ []) :
    ∃ tail, (scanLine s).rest = '\n' :: tail := by
  obtain ⟨c, tail, hrest⟩ := List.exists_cons_of_ne_nil h
  have hc := List.head?_dropWhile_not (· ≠ '\n') s
  simp only [scanLine] at hrest
  simp only [hrest, List.head?_cons] at hc
  obtain rfl : c = '\n' := by simpa using hc
  exact ⟨tail, hrest⟩

/-- A block comment that is closed takes something. -/
theorem scanBlockComment_taken_ne_nil {s : Text}
    (h : (scanBlockComment s).value.closed = true) : (scanBlockComment s).taken ≠ [] := by
  unfold scanBlockComment at h ⊢
  split <;> simp_all

/-- A block comment that is closed is the same whatever follows. -/
theorem scanBlockComment_taken {s : Text} (h : (scanBlockComment s).value.closed = true)
    (u : Text) :
    scanBlockComment ((scanBlockComment s).taken ++ u) = (scanBlockComment s).onto u := by
  fun_induction scanBlockComment s with
  | case1 => simp at h
  | case2 rest => simp [scanBlockComment, Scan.onto]
  | case3 c rest hopen s ih =>
    have hclosed : (scanBlockComment rest).value.closed = true := by simpa using h
    have hne := scanBlockComment_taken_ne_nil hclosed
    have hnext : c = '*' → ((scanBlockComment rest).taken ++ u).head? ≠ some '/' := by
      rw [head?_taken_append (scanBlockComment_taken_append_rest rest) hne]
      rintro rfl hd
      obtain ⟨tail, rfl⟩ := List.head?_eq_some_iff.mp hd
      exact hopen tail rfl rfl
    simp only [Scan.after_taken, Scan.map_taken, List.cons_append, List.nil_append]
    rw [scanBlockComment_cons hnext, ih hclosed]
    rfl

/-- A block comment that is not closed reaches to the end of its text. -/
theorem scanBlockComment_rest_of_open {s : Text}
    (h : (scanBlockComment s).value.closed = false) : (scanBlockComment s).rest = [] := by
  fun_induction scanBlockComment s with
  | case1 => rfl
  | case2 => simp at h
  | case3 c rest _ s ih => simpa using ih (by simpa using h)

/-- A block comment that is closed is the same if its text goes on. -/
theorem scanBlockComment_append {s : Text} (h : (scanBlockComment s).value.closed = true)
    (u : Text) :
    scanBlockComment (s ++ u) = (scanBlockComment s).onto ((scanBlockComment s).rest ++ u) := by
  rw [← scanBlockComment_taken h, ← List.append_assoc, scanBlockComment_taken_append_rest]

/-! ### Literals -/

/-- A string that ends inside of a text, closed or at a line feed, is the same whatever
follows. -/
theorem scanString_taken {quote : Char} {s : Text}
    (h : (scanString quote s).value ≠ none ∨ (scanString quote s).rest ≠ []) (u : Text) :
    scanString quote ((scanString quote s).taken ++ u) = (scanString quote s).onto u := by
  fun_induction scanString quote s with
  | case1 => simp at h
  | case2 => simp at h
  | case3 c rest ih =>
    simp only [Scan.after_taken, Scan.map_taken, List.cons_append, List.nil_append]
    rw [scanString, ih (by simpa using h)]
    rfl
  | case4 rest => simp [scanString, Scan.onto]
  | case5 rest hone hescape hfeed =>
    rw [List.cons_append, scanString_cons (ne_backslash hone hescape), if_neg hfeed, if_pos rfl]
    rfl
  | case6 c rest hone hescape hfeed hquote ih =>
    simp only [Scan.after_taken, Scan.map_taken, List.cons_append, List.nil_append]
    rw [scanString_cons (ne_backslash hone hescape), if_neg hfeed, if_neg hquote,
      ih (by simpa using h)]
    rfl

/-- A string that is closed is the same if its text goes on. -/
theorem scanString_append {quote : Char} {s : Text} (h : (scanString quote s).value ≠ none)
    (u : Text) :
    scanString quote (s ++ u) = (scanString quote s).onto ((scanString quote s).rest ++ u) := by
  rw [← scanString_taken (.inl h), ← List.append_assoc, scanString_taken_append_rest]

/-- The body of a regular expression that ends inside of a text, closed or at a line feed, is the
same whatever follows. -/
theorem scanRegexBody_taken {inClass : Bool} {s : Text}
    (h : (scanRegexBody inClass s).value = true ∨ (scanRegexBody inClass s).rest ≠ []) (u : Text) :
    scanRegexBody inClass ((scanRegexBody inClass s).taken ++ u) =
      (scanRegexBody inClass s).onto u := by
  fun_induction scanRegexBody inClass s with
  | case1 => simp at h
  | case2 => simp at h
  | case3 inClass c rest ih =>
    simp only [Scan.after_taken, List.cons_append, List.nil_append]
    rw [scanRegexBody, ih (by simpa using h)]
    rfl
  | case4 inClass rest hone hescape =>
    rw [List.cons_append, scanRegexBody_cons (by decide), if_pos rfl]
    rfl
  | case5 inClass c rest hone hescape hfeed hclose =>
    obtain ⟨rfl, hclass⟩ : c = '/' ∧ inClass = false := by simpa using hclose
    rw [List.cons_append, scanRegexBody_cons (by decide), if_neg hfeed, if_pos hclose]
    rfl
  | case6 inClass rest _ _ _ _ ih =>
    simp only [Scan.after_taken, List.cons_append, List.nil_append]
    rw [scanRegexBody_cons (by decide), if_neg (by decide), if_neg (by simp), if_pos rfl,
      ih (by simpa using h)]
    rfl
  | case7 inClass rest _ _ _ _ _ ih =>
    simp only [Scan.after_taken, List.cons_append, List.nil_append]
    rw [scanRegexBody_cons (by decide), if_neg (by decide), if_neg (by simp),
      if_neg (by decide), if_pos rfl, ih (by simpa using h)]
    rfl
  | case8 inClass c rest hone hescape hfeed hclose hopening hclosing ih =>
    simp only [Scan.after_taken, List.cons_append, List.nil_append]
    rw [scanRegexBody_cons (ne_backslash hone hescape), if_neg hfeed, if_neg hclose,
      if_neg hopening, if_neg hclosing, ih (by simpa using h)]
    rfl

/-- A regular expression that is closed is the same in front of a new line, its flags
included. -/
theorem scanRegex_append {s : Text} (h : (scanRegex s).value = true) (u : Text) :
    scanRegex (s ++ '\n' :: u) = (scanRegex s).onto ((scanRegex s).rest ++ '\n' :: u) := by
  have hbody : (scanRegexBody false s).value = true := by
    rw [scanRegex] at h
    split at h
    · assumption
    · exact h
  have hmore : scanRegexBody false (s ++ '\n' :: u) =
      (scanRegexBody false s).onto ((scanRegexBody false s).rest ++ '\n' :: u) := by
    rw [← scanRegexBody_taken (.inl hbody), ← List.append_assoc, scanRegexBody_taken_append_rest]
  have hflags := takeWhile_append_lineFeed (p := isIdentifierPart) (by decide)
    (scanRegexBody false s).rest u
  simp [scanRegex, hmore, hbody, hflags.1, hflags.2, Scan.onto]

/-- A template that is closed takes something. -/
theorem scanTemplate_taken_ne_nil {state : TemplateState} {s : Text}
    (h : (scanTemplate state s).value.closed = true) : (scanTemplate state s).taken ≠ [] := by
  fun_cases scanTemplate state s <;> simp_all [scanTemplate]

/-- A step of the scanner of a template takes the same in front of another text that starts alike.
-/
theorem TemplateStep.moved {state next : TemplateState} {s front rest u : Text} {crosses : Bool}
    (h : TemplateStep state s front crosses next rest) (hne : rest ≠ [])
    (hhead : u.head? = rest.head?) : TemplateStep state (front ++ u) front crosses next u := by
  cases h with
  | outward depth outer => exact .outward depth outer u
  | escape outer c => exact .escape outer c u
  | substitution outer => exact .substitution outer u
  | character outer tick back plain =>
    exact .character outer tick back (by simpa [startsSubstitution, hhead] using plain)
  | inward depth outer => exact .inward depth outer u
  | lineComment depth outer rest =>
    -- The line ends in front of a line feed, with which the other text starts, too.
    obtain ⟨tail, htail⟩ := scanLine_rest_eq hne
    rw [htail, List.head?_cons] at hhead
    obtain ⟨more, rfl⟩ := List.head?_eq_some_iff.mp hhead
    have hline := scanLine_taken rest more
    simpa [hline] using
      TemplateStep.lineComment depth outer ((scanLine rest).taken ++ '\n' :: more)
  | blockComment depth outer rest =>
    have hclosed : (scanBlockComment rest).value.closed = true := by
      cases hopen : (scanBlockComment rest).value.closed with
      | true => rfl
      | false => exact absurd (scanBlockComment_rest_of_open hopen) hne
    simpa [scanBlockComment_taken hclosed] using
      TemplateStep.blockComment depth outer ((scanBlockComment rest).taken ++ u)
  | quoted depth outer c rest quote =>
    simpa [scanString_taken (.inr hne)] using
      TemplateStep.quoted depth outer c ((scanString c rest).taken ++ u) quote
  | code depth outer tick comment quote =>
    exact .code depth outer tick (by simpa [startsComment, hhead] using comment) quote

/-- A template that is closed is the same whatever follows. -/
theorem scanTemplate_taken {state : TemplateState} {s : Text}
    (h : (scanTemplate state s).value.closed = true) (u : Text) :
    scanTemplate state ((scanTemplate state s).taken ++ u) = (scanTemplate state s).onto u := by
  induction hlength : s.length using Nat.strongRecOn generalizing state s with
  | _ n ih =>
    cases templateFront state s with
    | closing rest hstate hs => simp [hstate, hs, scanTemplate, Scan.onto]
    | nothing hs => simp [hs, scanTemplate] at h
    | backslash outer hstate hs => simp [hstate, hs, scanTemplate] at h
    | @step front crosses next rest hstep =>
      rw [hstep.scan] at h ⊢
      have hclosed : (scanTemplate next rest).value.closed = true := by simpa using h
      have hmore := ih _ (hlength ▸ hstep.length_lt) hclosed rfl
      -- A scan that reaches the end of its text has found no closing backquote.
      have hne : rest ≠ [] := by
        rintro rfl
        simp [scanTemplate] at hclosed
      have hhead := head?_taken_append (scanTemplate_taken_append_rest next rest)
        (scanTemplate_taken_ne_nil hclosed) u
      rw [Scan.after_taken, Scan.map_taken, List.append_assoc, (hstep.moved hne hhead).scan, hmore,
        Scan.onto_after, Scan.onto_map]

/-- A template that is closed is the same if its text goes on. -/
theorem scanTemplate_append {state : TemplateState} {s : Text}
    (h : (scanTemplate state s).value.closed = true) (u : Text) :
    scanTemplate state (s ++ u) =
      (scanTemplate state s).onto ((scanTemplate state s).rest ++ u) := by
  rw [← scanTemplate_taken h, ← List.append_assoc, scanTemplate_taken_append_rest]

/-! ### Trivia -/

/-- Whether a text of trivia alone ends inside of a block comment that is not closed. -/
def leavesCommentOpen : Text → Bool
  | [] => false
  | '/' :: '/' :: rest =>
    have := scanLine_length rest
    leavesCommentOpen (scanLine rest).rest
  | '/' :: '*' :: rest =>
    have := scanBlockComment_length rest
    !(scanBlockComment rest).value.closed || leavesCommentOpen (scanBlockComment rest).rest
  | _ :: rest => leavesCommentOpen rest
termination_by s => s.length

/-- Trivia in front of a token are the same in front of a token with more text behind it. -/
theorem scanTrivia_append {s : Text} (h : (scanTrivia s).rest ≠ []) (u : Text) :
    scanTrivia (s ++ '\n' :: u) = (scanTrivia s).onto ((scanTrivia s).rest ++ '\n' :: u) := by
  fun_induction scanTrivia s with
  | case1 => simp at h
  | case2 rest line _ ih =>
    rw [List.cons_append, List.cons_append, scanTrivia, scanLine_append_lineFeed, Scan.onto_taken,
      Scan.onto_rest, ih (by simpa using h)]
    rfl
  | case3 rest comment _ ih =>
    have hrest : (scanTrivia comment.rest).rest ≠ [] := by simpa using h
    have hcomment : comment.value.closed = true := by
      cases hopen : comment.value.closed with
      | true => rfl
      | false =>
        have hnil : comment.rest = [] := scanBlockComment_rest_of_open hopen
        simp [hnil, scanTrivia] at hrest
    rw [List.cons_append, List.cons_append, scanTrivia, scanBlockComment_append hcomment,
      Scan.onto_taken, Scan.onto_rest, Scan.onto_value, ih hrest]
    rfl
  | case4 c rest hline hblock hend ih =>
    have hcomment := mt (startsComment_append_lineFeed u).mp (not_startsComment hline hblock)
    rw [List.cons_append, scanTrivia_cons hcomment, if_pos (by simp [isSpacing, hend]),
      ih (by simpa using h)]
    simp [hend, Scan.map, Scan.after, Scan.onto]
  | case5 c rest hline hblock hend hblank ih =>
    have hcomment := mt (startsComment_append_lineFeed u).mp (not_startsComment hline hblock)
    rw [List.cons_append, scanTrivia_cons hcomment,
      if_pos (by simpa [isSpacing, hend] using hblank),
      ih (by simpa using h)]
    simp [hend, Scan.map, Scan.after, Scan.onto]
  | case6 c rest hline hblock hend hblank =>
    have hcomment := mt (startsComment_append_lineFeed u).mp (not_startsComment hline hblock)
    rw [List.cons_append, scanTrivia_cons hcomment,
      if_neg (by simpa [isSpacing, hend] using hblank)]
    rfl

/-- A character that starts no comment leaves none open. -/
theorem leavesCommentOpen_cons {c : Char} {rest : Text} (hcomment : ¬startsComment c rest) :
    leavesCommentOpen (c :: rest) = leavesCommentOpen rest :=
  leavesCommentOpen.eq_4 _ _ (fun _ hc hrest => hcomment ⟨hc, .inl (by simp [hrest])⟩)
    fun _ hc hrest => hcomment ⟨hc, .inr (by simp [hrest])⟩

/-- Behind trivia that are closed, a line feed leads on to whatever comes next. -/
theorem scanTrivia_behind_trivia {s : Text} (h : (scanTrivia s).rest = [])
    (hclosed : leavesCommentOpen s = false) (u : Text) :
    scanTrivia (s ++ '\n' :: u) =
      ⟨true, s ++ '\n' :: (scanTrivia u).taken, (scanTrivia u).rest⟩ := by
  have hfeed : ∀ u, scanTrivia ('\n' :: u) =
      ⟨true, '\n' :: (scanTrivia u).taken, (scanTrivia u).rest⟩ := by
    intro u
    rw [scanTrivia_cons (not_startsComment_of_ne (by decide)), if_pos (by decide)]
    rfl
  fun_induction scanTrivia s with
  | case1 => exact hfeed u
  | case2 rest line _ ih =>
    rw [leavesCommentOpen] at hclosed
    rw [List.cons_append, List.cons_append, scanTrivia, scanLine_append_lineFeed,
      Scan.onto_taken, Scan.onto_rest, ih (by simpa using h) hclosed]
    have htaken : (scanLine rest).taken ++ line.rest = rest := scanLine_taken_append_rest rest
    simp only [Scan.after, Scan.mk.injEq, true_and, and_true, List.cons_append]
    rw [← List.append_assoc, htaken]
  | case3 rest comment _ ih =>
    simp only [leavesCommentOpen, Bool.or_eq_false_iff, Bool.not_eq_false'] at hclosed
    rw [List.cons_append, List.cons_append, scanTrivia, scanBlockComment_append hclosed.1,
      Scan.onto_taken, Scan.onto_rest, Scan.onto_value, ih (by simpa using h) hclosed.2]
    have htaken : (scanBlockComment rest).taken ++ comment.rest = rest :=
      scanBlockComment_taken_append_rest rest
    simp only [Scan.after, Scan.map, Bool.or_true, Scan.mk.injEq, true_and, and_true,
      List.cons_append]
    rw [← List.append_assoc, htaken]
  | case4 c rest hline hblock hend ih =>
    have hnone := not_startsComment hline hblock
    rw [leavesCommentOpen_cons hnone] at hclosed
    rw [List.cons_append, scanTrivia_cons (mt (startsComment_append_lineFeed u).mp hnone),
      if_pos (by simp [isSpacing, hend]), ih (by simpa using h) hclosed]
    simp [Scan.map, Scan.after]
  | case5 c rest hline hblock hend hblank ih =>
    have hnone := not_startsComment hline hblock
    rw [leavesCommentOpen_cons hnone] at hclosed
    rw [List.cons_append, scanTrivia_cons (mt (startsComment_append_lineFeed u).mp hnone),
      if_pos (by simpa [isSpacing, hend] using hblank), ih (by simpa using h) hclosed]
    simp [Scan.map, Scan.after]
  | case6 => simp at h

/-- Behind trivia that are closed, it depends on what comes next whether a comment is open. -/
theorem leavesCommentOpen_behind_trivia {s : Text} (h : (scanTrivia s).rest = [])
    (hclosed : leavesCommentOpen s = false) (u : Text) :
    leavesCommentOpen (s ++ '\n' :: u) = leavesCommentOpen u := by
  have hfeed : ∀ u, leavesCommentOpen ('\n' :: u) = leavesCommentOpen u := fun u =>
    leavesCommentOpen_cons (not_startsComment_of_ne (by decide))
  fun_induction scanTrivia s with
  | case1 => exact hfeed u
  | case2 rest line _ ih =>
    rw [leavesCommentOpen] at hclosed
    rw [List.cons_append, List.cons_append, leavesCommentOpen, scanLine_append_lineFeed,
      Scan.onto_rest, ih (by simpa using h) hclosed]
  | case3 rest comment _ ih =>
    simp only [leavesCommentOpen, Bool.or_eq_false_iff, Bool.not_eq_false'] at hclosed
    rw [List.cons_append, List.cons_append, leavesCommentOpen,
      scanBlockComment_append hclosed.1, Scan.onto_value, Scan.onto_rest,
      ih (by simpa using h) hclosed.2, hclosed.1]
    rfl
  | case4 c rest hline hblock hend ih =>
    have hnone := not_startsComment hline hblock
    rw [leavesCommentOpen_cons hnone] at hclosed
    rw [List.cons_append, leavesCommentOpen_cons (mt (startsComment_append_lineFeed u).mp hnone),
      ih (by simpa using h) hclosed]
  | case5 c rest hline hblock hend hblank ih =>
    have hnone := not_startsComment hline hblock
    rw [leavesCommentOpen_cons hnone] at hclosed
    rw [List.cons_append, leavesCommentOpen_cons (mt (startsComment_append_lineFeed u).mp hnone),
      ih (by simpa using h) hclosed]
  | case6 => simp at h

/-! ### Tokens -/

/-- A token that is not left open is the same in front of a new line. -/
theorem scanToken_append {regexAllowed : Bool} {c : Char} {s : Text}
    (h : (scanToken regexAllowed c s).value.1 ≠ .unterminated) (u : Text) :
    scanToken regexAllowed c (s ++ '\n' :: u) =
      (scanToken regexAllowed c s).onto ((scanToken regexAllowed c s).rest ++ '\n' :: u) := by
  cases tokenStart regexAllowed c with
  | identifier hname =>
    have hpart := takeWhile_append_lineFeed (p := isIdentifierPart) (by decide) s u
    simp [scanToken_identifier hname, hpart.1, hpart.2, Scan.onto]
  | number hname hdigit =>
    have hpart := takeWhile_append_lineFeed (p := isNumberPart) (by decide) s u
    simp [scanToken_number hname hdigit, hpart.1, hpart.2, Scan.onto]
  | quote hquote =>
    rw [scanToken_quote hquote] at h
    have hvalue : (scanString c s).value ≠ none := by
      intro hnone
      simp [hnone] at h
    rw [scanToken_quote hquote, scanToken_quote hquote, scanString_append hvalue]
    rfl
  | backquote htick =>
    subst htick
    rw [scanToken_backquote] at h
    have hclosed : (scanTemplate (.text []) s).value.closed = true := by
      cases hopen : (scanTemplate (.text []) s).value.closed with
      | true => rfl
      | false => simp [hopen] at h
    rw [scanToken_backquote, scanToken_backquote, scanTemplate_append hclosed]
    rfl
  | regex hslash hallowed =>
    subst hslash hallowed
    rw [scanToken_slash] at h
    have hclosed : (scanRegex s).value = true := by
      cases hopen : (scanRegex s).value with
      | true => rfl
      | false => simp [hopen] at h
    rw [scanToken_slash, scanToken_slash, scanRegex_append hclosed]
    rfl
  | other hname hdigit hquote htick hslash =>
    rw [scanToken_other hname hdigit hquote htick hslash,
      scanToken_other hname hdigit hquote htick hslash]
    rfl

/-- A token that is not left open is the same in front of a new line, and so are the trivia
before it. -/
theorem lexeme?_append {state : LexState} {s rest : Text} {l : Lexeme}
    (h : lexeme? state s = some (l, rest)) (hkind : l.kind ≠ .unterminated) (u : Text) :
    lexeme? state (s ++ '\n' :: u) = some (l, rest ++ '\n' :: u) := by
  rw [lexeme?] at h
  split at h
  · simp at h
  · next c tail htail =>
    simp only [Option.some.injEq, Prod.mk.injEq] at h
    obtain ⟨rfl, rfl⟩ := h
    have htrivia := scanTrivia_append (s := s) (by simp [htail]) u
    simp [lexeme?, htrivia, htail, scanToken_append hkind]

/-- A text without tokens is all trivia. -/
theorem scanTrivia_rest_of_none {state : LexState} {s : Text} (h : lexeme? state s = none) :
    (scanTrivia s).rest = [] := by
  rw [lexeme?] at h
  split at h
  · assumption
  · simp at h

/-- Behind trivia that are closed a new line starts, and its first token is read as if nothing
stood before it. -/
theorem lexeme?_behind_trivia {state : LexState} {s : Text} (h : lexeme? state s = none)
    (hclosed : leavesCommentOpen s = false) (u : Text) :
    lexeme? state (s ++ '\n' :: u) = (lexeme? state u).map fun (l, rest) =>
      ({ l with gap := s ++ '\n' :: l.gap, newlineBefore := true }, rest) := by
  rw [lexeme?, scanTrivia_behind_trivia (scanTrivia_rest_of_none h) hclosed, lexeme?]
  split <;> simp_all

/-! ### Whole texts -/

/-- The state of the lexer **behind** tokens of the given kinds. -/
def LexState.behind (state : LexState) (kinds : List TokenKind) : LexState :=
  kinds.foldl LexState.next state

@[simp] theorem LexState.behind_nil (state : LexState) : state.behind [] = state := rfl

@[simp] theorem LexState.behind_cons (state : LexState) (k : TokenKind) (ks : List TokenKind) :
    state.behind (k :: ks) = (state.next k).behind ks := rfl

@[simp] theorem LexState.behind_append (state : LexState) (ks ms : List TokenKind) :
    state.behind (ks ++ ms) = (state.behind ks).behind ms := List.foldl_append

/-- A text without tokens has no lexemes and is all trivia. -/
theorem lexemes_of_none {state : LexState} {s : Text} (h : lexeme? state s = none) :
    lexemes state s = [] ∧ trailingTrivia state s = s := by
  constructor
  · rw [lexemes]
    split
    · rfl
    · next h' => simp [h] at h'
  · rw [trailingTrivia]
    split
    · rfl
    · next h' => simp [h] at h'

/-- The lexemes of a text are the first one and those of the rest. -/
theorem lexemes_of_some {state : LexState} {s rest : Text} {l : Lexeme}
    (h : lexeme? state s = some (l, rest)) :
    lexemes state s = l :: lexemes (state.next l.kind) rest ∧
      trailingTrivia state s = trailingTrivia (state.next l.kind) rest := by
  constructor
  · rw [lexemes]
    split
    · next h' => simp [h] at h'
    · next h' =>
      obtain ⟨rfl, rfl⟩ : l = _ ∧ rest = _ := by simpa [h] using h'
      rfl
  · rw [trailingTrivia]
    split
    · next h' => simp [h] at h'
    · next h' =>
      obtain ⟨rfl, rfl⟩ : l = _ ∧ rest = _ := by simpa [h] using h'
      rfl

/-- Lexemes of which the first one stands behind some text and a line feed. -/
def behindLine (front : Text) (ls : List Lexeme) : List Lexeme :=
  ls.modifyHead fun l => { l with gap := front ++ '\n' :: l.gap, newlineBefore := true }

/-- Whether a text **ends cleanly**: no literal and no comment is open at its end. -/
structure EndsCleanly (state : LexState) (s : Text) : Prop where
  literals : ∀ l ∈ lexemes state s, l.kind ≠ .unterminated
  comments : leavesCommentOpen (trailingTrivia state s) = false

/-- Of a text that ends cleanly the first token is closed, and what is left ends cleanly. -/
theorem EndsCleanly.behind {state : LexState} {s rest : Text} {l : Lexeme} (h : EndsCleanly state s)
    (hfirst : lexeme? state s = some (l, rest)) :
    l.kind ≠ .unterminated ∧ EndsCleanly (state.next l.kind) rest := by
  obtain ⟨hlexemes, htrivia⟩ := lexemes_of_some hfirst
  exact ⟨h.literals l (by simp [hlexemes]),
    fun m hm => h.literals m (by simp [hlexemes, hm]), htrivia ▸ h.comments⟩

/-- A text without tokens that ends cleanly leaves no comment open. -/
theorem EndsCleanly.trivia {state : LexState} {s : Text} (h : EndsCleanly state s)
    (hfirst : lexeme? state s = none) : leavesCommentOpen s = false :=
  (lexemes_of_none hfirst).2 ▸ h.comments

/-- A text that ends cleanly contributes the same lexemes in front of a new line, and the lexer
reads on from the state behind the last of them. -/
theorem lexemes_append {state : LexState} {s : Text} (h : EndsCleanly state s) (u : Text) :
    lexemes state (s ++ '\n' :: u) = lexemes state s ++
      behindLine (trailingTrivia state s)
        (lexemes (state.behind ((lexemes state s).map Lexeme.kind)) u) := by
  induction hlength : s.length using Nat.strongRecOn generalizing state s with
  | _ n ih =>
    cases hfirst : lexeme? state s with
    | none =>
      obtain ⟨hlexemes, htrivia⟩ := lexemes_of_none hfirst
      have hnext := lexeme?_behind_trivia hfirst (h.trivia hfirst) u
      rw [hlexemes, htrivia, List.nil_append, List.map_nil, LexState.behind_nil]
      cases hu : lexeme? state u with
      | none => rw [(lexemes_of_none hu).1, (lexemes_of_none (by simpa [hu] using hnext)).1]; rfl
      | some found =>
        obtain ⟨l, rest⟩ := found
        rw [(lexemes_of_some hu).1, (lexemes_of_some (by simpa [hu] using hnext)).1]
        rfl
    | some found =>
      obtain ⟨l, rest⟩ := found
      obtain ⟨hlexemes, htrivia⟩ := lexemes_of_some hfirst
      obtain ⟨hkind, hrest⟩ := h.behind hfirst
      have hlt : rest.length < n := hlength ▸ lexeme?_length hfirst
      rw [(lexemes_of_some (lexeme?_append hfirst hkind u)).1, ih _ hlt hrest rfl, hlexemes,
        htrivia, List.map_cons, LexState.behind_cons, List.cons_append]

/-- It depends on the rest of a text whether a comment is open at its end. -/
theorem trailingTrivia_append {state : LexState} {s : Text} (h : EndsCleanly state s) (u : Text) :
    leavesCommentOpen (trailingTrivia state (s ++ '\n' :: u)) =
      leavesCommentOpen (trailingTrivia (state.behind ((lexemes state s).map Lexeme.kind)) u) := by
  induction hlength : s.length using Nat.strongRecOn generalizing state s with
  | _ n ih =>
    cases hfirst : lexeme? state s with
    | none =>
      obtain ⟨hlexemes, -⟩ := lexemes_of_none hfirst
      have hnext := lexeme?_behind_trivia hfirst (h.trivia hfirst) u
      rw [hlexemes, List.map_nil, LexState.behind_nil]
      cases hu : lexeme? state u with
      | none =>
        rw [(lexemes_of_none hu).2, (lexemes_of_none (by simpa [hu] using hnext)).2,
          leavesCommentOpen_behind_trivia (scanTrivia_rest_of_none hfirst) (h.trivia hfirst)]
      | some found =>
        obtain ⟨l, rest⟩ := found
        rw [(lexemes_of_some hu).2, (lexemes_of_some (by simpa [hu] using hnext)).2]
    | some found =>
      obtain ⟨l, rest⟩ := found
      obtain ⟨hlexemes, -⟩ := lexemes_of_some hfirst
      obtain ⟨hkind, hrest⟩ := h.behind hfirst
      have hlt : rest.length < n := hlength ▸ lexeme?_length hfirst
      rw [(lexemes_of_some (lexeme?_append hfirst hkind u)).2, ih _ hlt hrest rfl, hlexemes,
        List.map_cons, LexState.behind_cons]

@[simp] theorem lexeme?_nil (state : LexState) : lexeme? state [] = none := by
  simp [lexeme?, scanTrivia]

@[simp] theorem lexemes_nil (state : LexState) : lexemes state [] = [] :=
  (lexemes_of_none (lexeme?_nil state)).1

@[simp] theorem trailingTrivia_nil (state : LexState) : trailingTrivia state [] = [] :=
  (lexemes_of_none (lexeme?_nil state)).2

/-- Nothing ends cleanly. -/
theorem endsCleanly_nil (state : LexState) : EndsCleanly state [] :=
  ⟨by simp, by simp [leavesCommentOpen]⟩

/-- A line feed in front of a text belongs to the gap before the first token. -/
theorem lexemes_lineFeed (state : LexState) (u : Text) :
    lexemes state ('\n' :: u) = behindLine [] (lexemes state u) := by
  simpa using lexemes_append (endsCleanly_nil state) u

/-- A line feed in front of a text closes no comment. -/
theorem trailingTrivia_lineFeed (state : LexState) (u : Text) :
    leavesCommentOpen (trailingTrivia state ('\n' :: u)) =
      leavesCommentOpen (trailingTrivia state u) := by
  simpa using trailingTrivia_append (endsCleanly_nil state) u

/-- Kinds are the same behind a line. -/
theorem map_behindLine {f : Lexeme → α}
    (hf : ∀ (l : Lexeme) gap, f { l with gap := gap, newlineBefore := true } = f l) (front : Text)
    (ls : List Lexeme) : (behindLine front ls).map f = ls.map f := by
  cases ls <;> simp [behindLine, hf]

/-- Two texts that end cleanly do so as one. -/
theorem EndsCleanly.append {state : LexState} {s u : Text} (hs : EndsCleanly state s)
    (hu : EndsCleanly (state.behind ((lexemes state s).map Lexeme.kind)) u) :
    EndsCleanly state (s ++ '\n' :: u) := by
  refine ⟨?_, by rw [trailingTrivia_append hs, hu.comments]⟩
  rw [lexemes_append hs]
  intro l hl
  rcases List.mem_append.mp hl with hl | hl
  · exact hs.literals l hl
  · have hmap := List.mem_map_of_mem (f := Lexeme.kind) hl
    rw [map_behindLine fun _ _ => rfl] at hmap
    obtain ⟨m, hm, hkind⟩ := List.mem_map.mp hmap
    exact hkind ▸ hu.literals m hm

/-! ### Source texts -/

/-- A line that is read by no one starts with two characters. -/
theorem hashbang_eq_nil_iff {s : Text} : hashbang s = [] ↔ ¬['#', '!'] <+: s := by
  unfold hashbang
  split
  · simp
  · next hnone =>
    refine iff_of_true rfl ?_
    rintro ⟨rest, rfl⟩
    exact hnone rest rfl

/-- A text starts with no such line if it starts with a line feed. -/
theorem hashbang_of_lineFeed {s : Text} (h : ∀ c ∈ s.head?, c = '\n') : hashbang s = [] := by
  unfold hashbang
  split
  · exact absurd (h '#' rfl) (by decide)
  · rfl

/-- A text without a line that is read by no one is read as a whole. -/
theorem afterHashbang_eq_self {s : Text} (h : hashbang s = []) : afterHashbang s = s := by
  simpa [h] using hashbang_append_afterHashbang s

/-- The line that is read by no one reaches to a line feed or to the end of the source. -/
theorem hashbang_cases (s : Text) :
    hashbang s = [] ∨ (∃ body, hashbang s = '#' :: '!' :: body ∧ '\n' ∉ body) ∧
      ∀ c ∈ (afterHashbang s).head?, c = '\n' := by
  unfold hashbang afterHashbang
  split
  · next rest =>
    have hline := List.all_eq_true.mp (List.all_takeWhile (p := (· ≠ '\n')) (l := rest))
    refine .inr ⟨⟨_, rfl, fun hmem => by simpa using hline '\n' hmem⟩, fun c hc => ?_⟩
    have hstop := List.head?_dropWhile_not (· ≠ '\n') rest
    rw [Option.mem_def.mp hc] at hstop
    simpa using hstop
  · exact .inl rfl

/-- Behind such a line stands what begins with a line feed. -/
theorem afterHashbang_of_line {line s : Text} (hline : '\n' ∉ line) (hs : ∀ c ∈ s.head?, c = '\n') :
    afterHashbang ('#' :: '!' :: (line ++ s)) = s := by
  have hpass : ∀ c ∈ line, decide (c ≠ '\n') = true := fun c hc =>
    decide_eq_true fun hfeed => hline (hfeed ▸ hc)
  rw [afterHashbang, List.dropWhile_append_of_pos hpass]
  cases s with
  | nil => rfl
  | cons c s => rw [hs c rfl]; rfl

/-- The tokens of a text that no reader skips the front of are its lexemes. -/
theorem tokenize_of_hashbang {s : Text} (h : hashbang s = []) :
    tokenize s = Token.place 0 (lexemes .initial s) := by
  rw [tokenize, h, afterHashbang_eq_self h]
  rfl

theorem tokenize_map_toLexeme (s : Text) :
    (tokenize s).map Token.toLexeme = lexemes .initial (afterHashbang s) :=
  Token.place_map_toLexeme ..

/-- What is known of tokens wherever they stand is known of the lexemes behind that line. -/
theorem tokenize_map (f : Lexeme → α) (s : Text) :
    (tokenize s).map (fun t => f t.toLexeme) = (lexemes .initial (afterHashbang s)).map f := by
  rw [← tokenize_map_toLexeme, List.map_map]
  rfl

end ScriptBundle
