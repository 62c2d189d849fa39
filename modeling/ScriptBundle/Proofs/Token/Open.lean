import ScriptBundle.Proofs.Token.Relexing

/-!
# What a Text Leaves Open

A literal or a comment that is open at the end of a text goes on in the text behind it. Strings and
regular expressions come to their end at the next line that closes nothing, and are not closed by
it. A comment goes on up to a slash at least.

## Main definitions

* `ClosesNothing`: whether a line ends every string and every regular expression in front of it.

## Main statements

* `exists_unterminated_append`: what a text leaves open is not closed by such a line;
* `scanTrivia_open`: a comment that trivia leave open goes on up to a slash.
-/

namespace ScriptBundle

/-! ### Literals -/

/-- Whether a line **closes nothing**: it holds no quote and no slash, and no backslash that would
take the end of the line along. -/
def ClosesNothing (line : Text) : Prop := ∀ c ∈ line, c ≠ '\'' ∧ c ≠ '"' ∧ c ≠ '/' ∧ c ≠ '\\'

section

variable {line : Text} (hline : ClosesNothing line) (v : Text)
include hline

/-- A string ends unfinished at the end of a line that closes nothing. -/
theorem scanString_line {quote : Char} (hquote : quote = '\'' ∨ quote = '"') :
    (scanString quote (line ++ '\n' :: v)).value = none := by
  induction line with
  | nil =>
    rw [List.nil_append, scanString_cons (by decide), if_pos rfl]
  | cons c line ih =>
    obtain ⟨hsingle, hdouble, -, hescape⟩ := hline c (by simp)
    have hrest := ih fun d hd => hline d (by simp [hd])
    have hne : c ≠ quote := by
      rintro rfl
      exact hquote.elim hsingle hdouble
    rw [List.cons_append, scanString_cons hescape, if_neg hne]
    split
    · rfl
    · rw [Scan.after_value, Scan.map_value, hrest]
      rfl

/-- A string that its text leaves open is still open behind a line that closes nothing. -/
theorem scanString_open {quote : Char} (hquote : quote = '\'' ∨ quote = '"') {s : Text}
    (h : (scanString quote s).value = none) :
    (scanString quote (s ++ '\n' :: (line ++ '\n' :: v))).value = none := by
  fun_induction scanString quote s with
  | case1 => rw [List.nil_append, scanString_cons (by decide), if_pos rfl]
  | case2 =>
    -- The backslash takes the line feed along, and the string goes on in the line behind it.
    rw [List.cons_append, List.nil_append, scanString, Scan.after_value, Scan.map_value,
      scanString_line hline v hquote]
    rfl
  | case3 c rest ih =>
    have hrest : (scanString quote rest).value = none := by simpa using h
    rw [List.cons_append, List.cons_append, scanString, Scan.after_value, Scan.map_value, ih hrest]
    rfl
  | case4 rest => rw [List.cons_append, scanString_cons (by decide), if_pos rfl]
  | case5 => simp at h
  | case6 c rest hone hescape hfeed hne ih =>
    have hrest : (scanString quote rest).value = none := by simpa using h
    rw [List.cons_append, scanString_cons (ne_backslash hone hescape), if_neg hfeed, if_neg hne,
      Scan.after_value, Scan.map_value, ih hrest]
    rfl

/-- A regular expression ends unfinished at the end of a line that closes nothing. -/
theorem scanRegexBody_line (inClass : Bool) :
    (scanRegexBody inClass (line ++ '\n' :: v)).value = false := by
  induction line generalizing inClass with
  | nil => rw [List.nil_append, scanRegexBody_cons (by decide), if_pos rfl]
  | cons c line ih =>
    obtain ⟨-, -, hslash, hescape⟩ := hline c (by simp)
    have hrest := ih fun d hd => hline d (by simp [hd])
    rw [List.cons_append, scanRegexBody_cons hescape]
    simp only [hslash, decide_false, Bool.false_and, Bool.false_eq_true, if_false]
    split
    · rfl
    · split
      · exact hrest true
      · split
        · exact hrest false
        · exact hrest inClass

/-- A regular expression that its text leaves open stays open behind a line that closes nothing. -/
theorem scanRegexBody_open {inClass : Bool} {s : Text}
    (h : (scanRegexBody inClass s).value = false) :
    (scanRegexBody inClass (s ++ '\n' :: (line ++ '\n' :: v))).value = false := by
  fun_induction scanRegexBody inClass s with
  | case1 => rw [List.nil_append, scanRegexBody_cons (by decide), if_pos rfl]
  | case2 =>
    rw [List.cons_append, List.nil_append, scanRegexBody, Scan.after_value]
    exact scanRegexBody_line hline v _
  | case3 inClass c rest ih =>
    rw [List.cons_append, List.cons_append, scanRegexBody, Scan.after_value]
    exact ih (by simpa using h)
  | case4 => rw [List.cons_append, scanRegexBody_cons (by decide), if_pos rfl]
  | case5 => simp at h
  | case6 inClass rest _ _ _ _ ih =>
    rw [List.cons_append, scanRegexBody_cons (by decide), if_neg (by decide), if_neg (by simp),
      if_pos rfl, Scan.after_value]
    exact ih (by simpa using h)
  | case7 inClass rest _ _ _ _ _ ih =>
    rw [List.cons_append, scanRegexBody_cons (by decide), if_neg (by decide), if_neg (by simp),
      if_neg (by decide), if_pos rfl, Scan.after_value]
    exact ih (by simpa using h)
  | case8 inClass c rest hone hescape hfeed hclose hopening hclosing ih =>
    rw [List.cons_append, scanRegexBody_cons (ne_backslash hone hescape), if_neg hfeed,
      if_neg hclose, if_neg hopening, if_neg hclosing, Scan.after_value]
    exact ih (by simpa using h)

/-- A token that its text leaves open is still open behind a line that closes nothing, unless it is
a template. -/
theorem scanToken_open {regexAllowed : Bool} {c : Char} {s : Text} (htick : c ≠ '\x60')
    (h : (scanToken regexAllowed c s).value.1 = .unterminated) :
    (scanToken regexAllowed c (s ++ '\n' :: (line ++ '\n' :: v))).value.1 = .unterminated := by
  cases tokenStart regexAllowed c with
  | identifier hname => simp [scanToken_identifier hname] at h
  | number hname hdigit => simp [scanToken_number hname hdigit] at h
  | quote hquote =>
    rw [scanToken_quote hquote] at h ⊢
    have hvalue : (scanString c s).value = none := by
      cases hs : (scanString c s).value <;> simp [hs] at h ⊢
    simp [scanString_open hline v hquote hvalue]
  | backquote htick' => exact absurd htick' htick
  | regex hslash hallowed =>
    subst hslash hallowed
    rw [scanToken_slash] at h ⊢
    have hvalue : (scanRegexBody false s).value = false := by
      cases hs : (scanRegexBody false s).value <;> simp [scanRegex, hs] at h ⊢
    simp [scanRegex, scanRegexBody_open hline v hvalue]
  | other hname hdigit hquote htick' hslash =>
    simp [scanToken_other hname hdigit hquote htick' hslash] at h

/-- What a text leaves open is not closed by a line that closes nothing, unless it is a template. -/
theorem exists_unterminated_append {state : LexState} {s : Text}
    (htemplates : ∀ l ∈ lexemes state s, l.kind = .unterminated → l.text.head? ≠ some '\x60')
    (hopen : ∃ l ∈ lexemes state s, l.kind = .unterminated) :
    ∃ l ∈ lexemes state (s ++ '\n' :: (line ++ '\n' :: v)), l.kind = .unterminated := by
  induction hlength : s.length using Nat.strongRecOn generalizing state s with
  | _ n ih =>
    cases hfirst : lexeme? state s with
    | none => simp [(lexemes_of_none hfirst).1] at hopen
    | some found =>
      obtain ⟨l, rest⟩ := found
      rw [(lexemes_of_some hfirst).1] at htemplates hopen
      by_cases hkind : l.kind = .unterminated
      · obtain ⟨c, tail, htext, hspacing, hcomment, crosses, htoken⟩ :=
          exists_cons_of_lexeme? hfirst
        have htick : c ≠ '\x60' := by
          rintro rfl
          exact htemplates l (by simp) hkind (by simp [htext])
        have hunterminated : (scanToken state.regexAllowed c (tail ++ rest)).value.1 =
            .unterminated := by
          rw [htoken]
          exact hkind
        have hscan := scanToken_open hline v htick hunterminated
        have hwhole : s ++ '\n' :: (line ++ '\n' :: v) =
            l.gap ++ c :: (tail ++ rest ++ '\n' :: (line ++ '\n' :: v)) := by
          rw [← lexeme?_gap_append_text hfirst, htext]
          simp
        obtain ⟨_, hfound⟩ := lexeme?_trivia (isTrivia_gap hfirst) state
          (c :: (tail ++ rest ++ '\n' :: (line ++ '\n' :: v)))
        rw [lexeme?_of_start hspacing (mt (startsComment_append_lineFeed _).mp hcomment)] at hfound
        rw [hwhole, (lexemes_of_some hfound).1]
        exact ⟨_, List.mem_cons_self, hscan⟩
      · have hlt : rest.length < n := hlength ▸ lexeme?_length hfirst
        have hrest : ∃ m ∈ lexemes (state.next l.kind) rest, m.kind = .unterminated := by
          obtain ⟨m, hm, hmkind⟩ := hopen
          rcases List.mem_cons.mp hm with rfl | hm
          · exact absurd hmkind hkind
          · exact ⟨m, hm, hmkind⟩
        obtain ⟨m, hm, hmkind⟩ := ih _ hlt (fun m hm => htemplates m (by simp [hm])) hrest rfl
        rw [(lexemes_of_some (lexeme?_append hfirst hkind _)).1]
        exact ⟨m, List.mem_cons_of_mem _ hm, hmkind⟩

end

/-! ### Comments -/

/-- A comment that its text leaves open is not closed by a text without a slash. -/
theorem scanBlockComment_open {s v : Text} (hv : '/' ∉ v)
    (h : (scanBlockComment s).value.closed = false) :
    (scanBlockComment (s ++ v)).value.closed = false := by
  have hnone : ∀ {v : Text}, '/' ∉ v → (scanBlockComment v).value.closed = false := by
    intro v hv
    fun_induction scanBlockComment v with
    | case1 => rfl
    | case2 rest => simp at hv
    | case3 c rest _ _ ih => exact ih fun hmem => hv (List.mem_cons_of_mem _ hmem)
  fun_induction scanBlockComment s with
  | case1 => exact hnone hv
  | case2 rest => simp at h
  | case3 c rest hopen _ ih =>
    have hnext : c = '*' → (rest ++ v).head? ≠ some '/' := by
      rintro hc hhead
      cases rest with
      | nil => exact hv (List.mem_of_mem_head? hhead)
      | cons d rest =>
        obtain rfl : d = '/' := by simpa using hhead
        exact hopen rest hc rfl
    rw [List.cons_append, scanBlockComment_cons hnext]
    exact ih h

/-- A comment that trivia leave open takes all lines behind them up to a slash. -/
theorem scanTrivia_open {s v : Text} (hv : '/' ∉ v) (h : (scanTrivia s).rest = [])
    (hopen : leavesCommentOpen s = true) : (scanTrivia (s ++ '\n' :: v)).rest = [] := by
  fun_induction scanTrivia s with
  | case1 => simp [leavesCommentOpen] at hopen
  | case2 rest line _ ih =>
    rw [leavesCommentOpen] at hopen
    rw [List.cons_append, List.cons_append, scanTrivia, scanLine_append_lineFeed]
    exact ih (by simpa using h) hopen
  | case3 rest comment _ ih =>
    rw [leavesCommentOpen, Bool.or_eq_true, Bool.not_eq_true'] at hopen
    rw [List.cons_append, List.cons_append, scanTrivia]
    cases hclosed : (scanBlockComment rest).value.closed with
    | true =>
      rw [scanBlockComment_append hclosed]
      exact ih (by simpa using h) (hopen.resolve_left (by simp [hclosed]))
    | false =>
      have hv' : '/' ∉ '\n' :: v := by simpa using hv
      have hrest := scanBlockComment_rest_of_open (scanBlockComment_open hv' hclosed)
      simp [hrest, scanTrivia]
  | case4 c rest hline hblock hend ih =>
    have hnone := not_startsComment hline hblock
    rw [leavesCommentOpen_cons hnone] at hopen
    rw [List.cons_append, scanTrivia_cons (mt (startsComment_append_lineFeed v).mp hnone),
      if_pos (by simp [isSpacing, hend])]
    exact ih (by simpa using h) hopen
  | case5 c rest hline hblock hend hblank ih =>
    have hnone := not_startsComment hline hblock
    rw [leavesCommentOpen_cons hnone] at hopen
    rw [List.cons_append, scanTrivia_cons (mt (startsComment_append_lineFeed v).mp hnone),
      if_pos (by simpa [isSpacing, hend] using hblank)]
    exact ih (by simpa using h) hopen
  | case6 => simp at h

end ScriptBundle
