import ScriptBundle.Document.BlankLines
import ScriptBundle.Proofs.Module.Remaining
import ScriptBundle.Proofs.Token.Trailing

/-!
# Blank Lines Around and Inside of Tokens

Blank lines are cut down one run at a time, and a run ends at any character that may not stand on a
blank line. A token starts and ends with such a character, so that blank lines are cut down in each
token and between two of them as if nothing else were there. Inside of a token there are blank lines
only if it is a template.

## Main definitions

* `isSolid`: whether a character may not stand on a blank line;
* `isBlankLine`: whether a line holds spaces and tabs alone;
* `HasBlankRun`: whether two blank lines follow each other;
* `Lexeme.collapsed`: a token in which blank lines are cut down.

## Main statements

* `respaced_collapseBlankLines`: cutting down blank lines changes white space alone;
* `collapseBlankLines_solid`: blank lines are cut down in front of such a character by themselves;
* `collapseBlankLines_eq_self_iff`: a text stays as it is exactly if no two blank lines follow each
  other;
* `lexeme?_collapseBlankLines`, `written_collapseBlankLines`: the tokens of a text in which blank
  lines are cut down.
-/

namespace ScriptBundle

/-! ### Runs of blank lines -/

/-- Whether a character may not stand on a blank line, nor end one. -/
def isSolid (c : Char) : Bool := !isIndent c && c != '\n'

/-- A character that is no white space is solid. -/
theorem isSolid_of_not_isBlank {c : Char} (h : isBlank c = false) : isSolid c = true := by
  have hne : ∀ d, isBlank d = true → c ≠ d := fun d hd => (ne_of_isBlank hd h).symm
  simp [isSolid, isIndent, hne ' ' (by decide), hne '\t' (by decide), hne '\n' (by decide)]

/-- Where there is a blank line, there is one more than behind it. -/
theorem dropBlankLines_of_some {s rest : Text} (h : afterBlankLine? s = some rest) :
    dropBlankLines s = ((dropBlankLines rest).1 + 1, (dropBlankLines rest).2) := by
  rw [dropBlankLines]
  split
  · next h' => simp [h] at h'
  · next h' =>
    obtain rfl := Option.some.inj (h.symm.trans h')
    rfl

/-- Where there is no blank line, none is passed. -/
theorem dropBlankLines_of_none {s : Text} (h : afterBlankLine? s = none) :
    dropBlankLines s = (0, s) := by
  rw [dropBlankLines]
  split
  · rfl
  · next h' => simp [h] at h'

/-- A blank line ends in front of a solid character. -/
theorem afterBlankLine?_solid {c : Char} (hc : isSolid c = true) (s t : Text) :
    afterBlankLine? (s ++ c :: t) = (afterBlankLine? s).map (· ++ c :: t) := by
  obtain ⟨hindent, hfeed⟩ : isIndent c = false ∧ c ≠ '\n' := by simpa [isSolid] using hc
  have hdrop : (s ++ c :: t).dropWhile isIndent = s.dropWhile isIndent ++ c :: t := by
    rw [List.dropWhile_append]
    cases hrest : s.dropWhile isIndent <;> simp [hindent]
  rw [afterBlankLine?, afterBlankLine?, hdrop]
  cases s.dropWhile isIndent with
  | nil => simp [hfeed]
  | cons d rest => by_cases hd : d = '\n' <;> simp [hd]

/-- So do several of them. -/
theorem dropBlankLines_solid {c : Char} (hc : isSolid c = true) (s t : Text) :
    dropBlankLines (s ++ c :: t) = ((dropBlankLines s).1, (dropBlankLines s).2 ++ c :: t) := by
  fun_induction dropBlankLines s with
  | case1 s h => exact dropBlankLines_of_none (by rw [afterBlankLine?_solid hc, h]; rfl)
  | case2 s rest h _ n behind hrun ih =>
    have hfound : afterBlankLine? (s ++ c :: t) = some (rest ++ c :: t) := by
      rw [afterBlankLine?_solid hc, h]
      rfl
    rw [dropBlankLines_of_some hfound, ih, hrun]

/-- Whether a line holds spaces and tabs alone. -/
def isBlankLine (line : Text) : Bool := line.all isIndent

/-- Such a line is white space. -/
theorem isBlankText_of_isBlankLine {line : Text} (h : isBlankLine line = true) :
    IsBlankText line := by
  intro c hc
  have hindent : isIndent c = true := List.all_eq_true.mp h c hc
  obtain rfl | rfl : c = ' ' ∨ c = '\t' := by simpa [isIndent] using hindent
  · decide
  · decide

/-- A blank line ends with a line feed. -/
theorem exists_of_afterBlankLine? {s rest : Text} (h : afterBlankLine? s = some rest) :
    ∃ line, isBlankLine line = true ∧ s = line ++ '\n' :: rest := by
  rw [afterBlankLine?] at h
  split at h
  · next tail htail =>
    obtain rfl := Option.some.inj h
    refine ⟨s.takeWhile isIndent, List.all_takeWhile, ?_⟩
    rw [← htail, List.takeWhile_append_dropWhile]
  · simp at h

/-- Blank lines are white space, with a line feed if there are any. -/
theorem exists_of_dropBlankLines (s : Text) :
    ∃ blank, IsBlankText blank ∧ s = blank ++ (dropBlankLines s).2 ∧
      (0 < (dropBlankLines s).1 → '\n' ∈ blank) := by
  fun_induction dropBlankLines s with
  | case1 => exact ⟨[], by simp [IsBlankText], rfl, by simp⟩
  | case2 s rest h _ n behind hrun ih =>
    obtain ⟨line, hline, rfl⟩ := exists_of_afterBlankLine? h
    obtain ⟨blank, hblank, hrest, -⟩ := ih
    rw [hrun] at hrest
    refine ⟨line ++ '\n' :: blank, ?_, by simp [← hrest], fun _ => by simp⟩
    intro c hc
    rcases List.mem_append.mp hc with hc | hc
    · exact isBlankText_of_isBlankLine hline c hc
    · rcases List.mem_cons.mp hc with rfl | hc
      · decide
      · exact hblank c hc

/-- Cutting down blank lines changes white space behind line feeds alone. -/
theorem respaced_collapseBlankLines (offset : Nat) (s : Text) :
    Respaced (fun _ => false) offset s (collapseBlankLines s) := by
  fun_induction collapseBlankLines s generalizing offset with
  | case1 => exact .nil offset
  | case2 rest run _ hrun ih =>
    obtain ⟨blank, hblank, hrest, hfeed⟩ := exists_of_dropBlankLines rest
    have hfeeds : '\n' ∈ blank ↔ '\n' ∈ ['\n'] :=
      iff_of_true (hfeed (Nat.lt_of_lt_of_le Nat.two_pos hrun)) (by simp)
    have hafter : IsBlankText ['\n'] := by simp [IsBlankText, isBlank]
    have hgap : Respaced (fun _ => false) offset _ _ := .gap rfl hblank hafter hfeeds (ih _)
    rwa [← hrest] at hgap
  | case3 rest run _ hrun ih => exact .cons '\n' (ih _)
  | case4 c rest _ ih => exact .cons c (ih _)

/-- Every blank line shortens the text. -/
theorem dropBlankLines_count (s : Text) :
    (dropBlankLines s).2.length + (dropBlankLines s).1 ≤ s.length := by
  fun_induction dropBlankLines s with
  | case1 => exact Nat.le_refl _
  | case2 s rest h hlt n behind hrun ih =>
    rw [hrun] at ih
    simp only at ih ⊢
    omega

@[simp] theorem collapseBlankLines_nil : collapseBlankLines [] = [] := by rw [collapseBlankLines]

/-- Two or more blank lines become one. -/
theorem collapseBlankLines_run {rest : Text} (h : 2 ≤ (dropBlankLines rest).1) :
    collapseBlankLines ('\n' :: rest) =
      '\n' :: '\n' :: collapseBlankLines (dropBlankLines rest).2 := by
  rw [collapseBlankLines, if_pos rfl]
  exact if_pos h

/-- A line feed in front of fewer blank lines is kept. -/
theorem collapseBlankLines_lineFeed {rest : Text} (h : ¬2 ≤ (dropBlankLines rest).1) :
    collapseBlankLines ('\n' :: rest) = '\n' :: collapseBlankLines rest := by
  rw [collapseBlankLines, if_pos rfl]
  exact if_neg h

/-- Any other character is kept. -/
theorem collapseBlankLines_cons {c : Char} (hc : c ≠ '\n') (s : Text) :
    collapseBlankLines (c :: s) = c :: collapseBlankLines s := by
  rw [collapseBlankLines, if_neg hc]

/-- Blank lines in front of a solid character are cut down by themselves, and so are the others. -/
theorem collapseBlankLines_solid {c : Char} (hc : isSolid c = true) (s t : Text) :
    collapseBlankLines (s ++ c :: t) = collapseBlankLines s ++ c :: collapseBlankLines t := by
  have hfeed : c ≠ '\n' := by
    rintro rfl
    exact absurd hc (by decide)
  fun_induction collapseBlankLines s with
  | case1 => exact collapseBlankLines_cons hfeed t
  | case2 rest run _ hrun ih =>
    have hdrop := dropBlankLines_solid hc rest t
    rw [List.cons_append, collapseBlankLines_run (by rw [hdrop]; exact hrun), hdrop]
    exact congrArg ('\n' :: '\n' :: ·) ih
  | case3 rest run _ hrun ih =>
    have hdrop := dropBlankLines_solid hc rest t
    rw [List.cons_append, collapseBlankLines_lineFeed (by rw [hdrop]; exact hrun), ih,
      List.cons_append]
  | case4 d rest hd ih => rw [List.cons_append, collapseBlankLines_cons hd, ih, List.cons_append]

/-- Behind a text that ends with a solid character blank lines are cut down by themselves. -/
theorem collapseBlankLines_append {s : Text} {c : Char} (hlast : s.getLast? = some c)
    (hc : isSolid c = true) (t : Text) :
    collapseBlankLines (s ++ t) = collapseBlankLines s ++ collapseBlankLines t := by
  obtain ⟨init, rfl⟩ := List.getLast?_eq_some_iff.mp hlast
  have hinit : collapseBlankLines (init ++ [c]) = collapseBlankLines init ++ [c] := by
    simpa using collapseBlankLines_solid hc init []
  rw [List.append_assoc, List.singleton_append, collapseBlankLines_solid hc, hinit,
    List.append_assoc, List.singleton_append]

/-- A line stays as it is, whatever is behind it. -/
theorem collapseBlankLines_line {s : Text} (h : '\n' ∉ s) (t : Text) :
    collapseBlankLines (s ++ t) = s ++ collapseBlankLines t := by
  induction s with
  | nil => rfl
  | cons c s ih =>
    obtain ⟨hc, hs⟩ := not_or.mp (mt List.mem_cons.mpr h)
    rw [List.cons_append, collapseBlankLines_cons (Ne.symm hc), ih hs, List.cons_append]

theorem collapseBlankLines_of_line {s : Text} (h : '\n' ∉ s) : collapseBlankLines s = s := by
  simpa using collapseBlankLines_line h []

/-- Behind a line blank lines are cut down by themselves. -/
theorem scanLine_collapseBlankLines (s : Text) :
    (scanLine (collapseBlankLines s)).rest = collapseBlankLines (scanLine s).rest := by
  have htaken : ∀ c ∈ (scanLine s).taken, decide (c ≠ '\n') = true :=
    List.all_eq_true.mp List.all_takeWhile
  have hline : '\n' ∉ (scanLine s).taken := fun hmem => by simpa using htaken '\n' hmem
  have hcollapsed := collapseBlankLines_line hline (scanLine s).rest
  rw [scanLine_taken_append_rest] at hcollapsed
  have hstart : (collapseBlankLines (scanLine s).rest).dropWhile (· ≠ '\n') =
      collapseBlankLines (scanLine s).rest := by
    by_cases hrest : (scanLine s).rest = []
    · simp [hrest]
    · obtain ⟨tail, htail⟩ := scanLine_rest_eq hrest
      have hhead := (respaced_collapseBlankLines 0 ('\n' :: tail)).head?
      obtain ⟨u, hu⟩ := List.head?_eq_some_iff.mp hhead
      rw [htail, hu]
      rfl
  rw [hcollapsed]
  exact (List.dropWhile_append_of_pos htaken).trans hstart

/-- Cutting down blank lines makes no text longer. -/
theorem length_collapseBlankLines_le (s : Text) : (collapseBlankLines s).length ≤ s.length := by
  fun_induction collapseBlankLines s with
  | case1 => exact Nat.le_refl _
  | case2 rest run _ hrun ih =>
    have hcount : run.2.length + run.1 ≤ rest.length := dropBlankLines_count rest
    simp only [List.length_cons]
    omega
  | case3 rest run _ hrun ih => exact Nat.succ_le_succ ih
  | case4 c rest _ ih => exact Nat.succ_le_succ ih

/-- Whether two blank lines follow each other in a text. -/
def HasBlankRun (s : Text) : Prop :=
  ∃ front rest, s = front ++ '\n' :: rest ∧ 2 ≤ (dropBlankLines rest).1

/-- Two blank lines of a longer text stand at its front or behind. -/
theorem hasBlankRun_cons {c : Char} {s : Text} :
    HasBlankRun (c :: s) ↔ c = '\n' ∧ 2 ≤ (dropBlankLines s).1 ∨ HasBlankRun s := by
  constructor
  · rintro ⟨front, rest, hs, hrun⟩
    cases front with
    | nil =>
      obtain ⟨hc, rfl⟩ := List.cons_eq_cons.mp hs
      exact .inl ⟨hc, hrun⟩
    | cons d front => exact .inr ⟨front, rest, (List.cons_eq_cons.mp hs).2, hrun⟩
  · rintro (⟨rfl, hrun⟩ | ⟨front, rest, rfl, hrun⟩)
    · exact ⟨[], s, rfl, hrun⟩
    · exact ⟨c :: front, rest, rfl, hrun⟩

/-- A text stays as it is exactly if no two blank lines follow each other. -/
theorem collapseBlankLines_eq_self_iff {s : Text} :
    collapseBlankLines s = s ↔ ¬HasBlankRun s := by
  fun_induction collapseBlankLines s with
  | case1 => simp [HasBlankRun]
  | case2 rest run _ hrun ih =>
    refine iff_of_false (fun hsame => ?_) (not_not_intro (hasBlankRun_cons.mpr (.inl ⟨rfl, hrun⟩)))
    have hcount : run.2.length + run.1 ≤ rest.length := dropBlankLines_count rest
    have hlength := congrArg List.length hsame
    have hle := length_collapseBlankLines_le run.2
    simp only [List.length_cons] at hlength
    omega
  | case3 rest run _ hrun ih =>
    rw [hasBlankRun_cons, List.cons_inj_right, not_or]
    exact ⟨fun h => ⟨fun hboth => hrun hboth.2, ih.mp h⟩, fun h => ih.mpr h.2⟩
  | case4 c rest hc ih =>
    rw [hasBlankRun_cons, List.cons_inj_right, not_or]
    exact ⟨fun h => ⟨fun hboth => hc hboth.1, ih.mp h⟩, fun h => ih.mpr h.2⟩

/-! ### Blank lines in tokens -/

/-- A string that is closed holds no line feed but behind a backslash, and so no blank line. -/
theorem collapseBlankLines_scanString {quote : Char} {s : Text}
    (h : (scanString quote s).value ≠ none) (hquote : isBlank quote = false) :
    collapseBlankLines (scanString quote s).taken = (scanString quote s).taken := by
  fun_induction scanString quote s with
  | case1 => simp at h
  | case2 => simp at h
  | case3 c rest ih =>
    have hclosed : (scanString quote rest).value ≠ none := by simpa using h
    simp only [Scan.after_taken, Scan.map_taken, List.cons_append, List.nil_append]
    rw [collapseBlankLines_cons (by decide)]
    by_cases hfeed : c = '\n'
    · subst hfeed
      have hnone : ¬2 ≤ (dropBlankLines (scanString quote rest).taken).1 := by
        intro hrun
        obtain ⟨blank, hblank, htaken, hfeeds⟩ :=
          exists_of_dropBlankLines (scanString quote rest).taken
        obtain ⟨_, _, -, hscan⟩ := scanString_blank_lineFeed hblank
          ((dropBlankLines (scanString quote rest).taken).2 ++ (scanString quote rest).rest)
          (hfeeds (by omega)) hquote
        rw [← List.append_assoc, ← htaken, scanString_taken_append_rest] at hscan
        exact hclosed (congrArg Scan.value hscan)
      rw [collapseBlankLines_lineFeed hnone, ih hclosed]
    · rw [collapseBlankLines_cons hfeed, ih hclosed]
  | case4 => simp at h
  | case5 rest _ _ hfeed => exact collapseBlankLines_of_line (by simpa using Ne.symm hfeed)
  | case6 c rest _ _ hfeed _ ih =>
    simp only [Scan.after_taken, Scan.map_taken, List.cons_append, List.nil_append]
    rw [collapseBlankLines_cons hfeed, ih (by simpa using h)]

/-- Nor does a regular expression that is closed. -/
theorem collapseBlankLines_scanRegexBody {inClass : Bool} {s : Text}
    (h : (scanRegexBody inClass s).value = true) :
    collapseBlankLines (scanRegexBody inClass s).taken = (scanRegexBody inClass s).taken := by
  fun_induction scanRegexBody inClass s with
  | case1 => simp at h
  | case2 => simp at h
  | case3 inClass c rest ih =>
    have hclosed : (scanRegexBody inClass rest).value = true := by simpa using h
    simp only [Scan.after_taken, List.cons_append, List.nil_append]
    rw [collapseBlankLines_cons (by decide)]
    by_cases hfeed : c = '\n'
    · subst hfeed
      have hnone : ¬2 ≤ (dropBlankLines (scanRegexBody inClass rest).taken).1 := by
        intro hrun
        obtain ⟨blank, hblank, htaken, hfeeds⟩ :=
          exists_of_dropBlankLines (scanRegexBody inClass rest).taken
        obtain ⟨_, _, -, hscan⟩ := scanRegexBody_blank_lineFeed hblank
          ((dropBlankLines (scanRegexBody inClass rest).taken).2 ++
            (scanRegexBody inClass rest).rest)
          (hfeeds (by omega)) inClass
        rw [← List.append_assoc, ← htaken, scanRegexBody_taken_append_rest] at hscan
        exact absurd (hclosed.symm.trans (congrArg Scan.value hscan)) (by simp)
      rw [collapseBlankLines_lineFeed hnone, ih hclosed]
    · rw [collapseBlankLines_cons hfeed, ih hclosed]
  | case4 => simp at h
  | case5 => exact collapseBlankLines_of_line (by simp)
  | case6 inClass rest _ _ _ _ ih =>
    simp only [Scan.after_taken, List.cons_append, List.nil_append]
    rw [collapseBlankLines_cons (by decide), ih (by simpa using h)]
  | case7 inClass rest _ _ _ _ _ ih =>
    simp only [Scan.after_taken, List.cons_append, List.nil_append]
    rw [collapseBlankLines_cons (by decide), ih (by simpa using h)]
  | case8 inClass c rest _ _ hfeed _ _ _ ih =>
    simp only [Scan.after_taken, List.cons_append, List.nil_append]
    rw [collapseBlankLines_cons hfeed, ih (by simpa using h)]

/-- Characters of names and numbers are no line feeds. -/
theorem lineFeed_notMem_takeWhile {p : Char → Bool} (hp : p '\n' = false) (s : Text) :
    '\n' ∉ s.takeWhile p := by
  intro hmem
  have hall := List.all_eq_true.mp List.all_takeWhile '\n' hmem
  simp [hp] at hall

/-- Blank lines stand in no token but in templates, if it is closed. -/
theorem collapseBlankLines_scanToken {regexAllowed : Bool} {c : Char} {s : Text}
    (hspacing : isSpacing c = false)
    (hclosed : (scanToken regexAllowed c s).value.1 ≠ .unterminated)
    (htemplate : (scanToken regexAllowed c s).value.1 ≠ .template) :
    collapseBlankLines (scanToken regexAllowed c s).taken = (scanToken regexAllowed c s).taken := by
  have hfeed : '\n' ≠ c := by
    rintro rfl
    exact absurd hspacing (by decide)
  cases tokenStart regexAllowed c with
  | identifier hname =>
    rw [scanToken_identifier hname]
    refine collapseBlankLines_of_line fun hmem => ?_
    rcases List.mem_cons.mp hmem with heq | hmem
    · exact hfeed heq
    · exact lineFeed_notMem_takeWhile (by decide) s hmem
  | number hname hdigit =>
    rw [scanToken_number hname hdigit]
    refine collapseBlankLines_of_line fun hmem => ?_
    rcases List.mem_cons.mp hmem with heq | hmem
    · exact hfeed heq
    · exact lineFeed_notMem_takeWhile (by decide) s hmem
  | quote hquote =>
    rw [scanToken_quote hquote] at hclosed ⊢
    have hblank : isBlank c = false := by rcases hquote with rfl | rfl <;> decide
    have hvalue : (scanString c s).value ≠ none := by
      intro hnone
      simp [hnone] at hclosed
    simp only [Scan.after_taken, Scan.map_taken, List.singleton_append]
    rw [collapseBlankLines_cons (Ne.symm hfeed), collapseBlankLines_scanString hvalue hblank]
  | backquote htick =>
    subst htick
    rw [scanToken_backquote] at hclosed htemplate
    cases hopen : (scanTemplate (.text []) s).value.closed <;> simp [hopen] at hclosed htemplate
  | regex hslash hallowed =>
    subst hslash hallowed
    rw [scanToken_slash] at hclosed ⊢
    cases hvalue : (scanRegexBody false s).value with
    | false => simp [scanRegex, hvalue] at hclosed
    | true =>
      simp only [scanRegex, hvalue, if_true, Scan.after_taken, Scan.map_taken,
        List.singleton_append]
      rw [collapseBlankLines_cons (by decide),
        collapseBlankLines_append (getLast?_scanRegexBody hvalue) (by decide),
        collapseBlankLines_scanRegexBody hvalue,
        collapseBlankLines_of_line (lineFeed_notMem_takeWhile (by decide) _)]
  | other hname hdigit hquote htick hslash =>
    rw [scanToken_other hname hdigit hquote htick hslash]
    exact collapseBlankLines_of_line (by simpa using hfeed)

/-! ### Tokens of a text in which blank lines are cut down -/

/-- Blank lines in trivia leave trivia behind. -/
theorem IsTrivia.collapseBlankLines {g : Text} (h : IsTrivia g) :
    IsTrivia (ScriptBundle.collapseBlankLines g) := by
  have hstop : scanTrivia [';'] = ⟨false, [], [';']⟩ := by
    rw [scanTrivia_cons (not_startsComment_of_ne (by decide)), if_neg (by decide)]
  obtain ⟨crosses, hg⟩ := h
  have hscan := hg [';']
  rw [hstop] at hscan
  have hrespaced := respaced_collapseBlankLines 0 (g ++ [';'])
  rw [collapseBlankLines_solid (by decide), collapseBlankLines_nil] at hrespaced
  have hrest := (scanTrivia_respaced hrespaced).2.tight rfl
  rw [hscan] at hrest
  obtain ⟨t, ht, hnil⟩ := hrest.cons_of_ne (by decide)
  rw [hnil.eq_nil] at ht
  have hsplit := scanTrivia_taken_append_rest (ScriptBundle.collapseBlankLines g ++ [';'])
  rw [ht, List.append_cancel_right_eq] at hsplit
  rw [← hsplit]
  exact isTrivia_taken (by simp [ht])

/-- A template is closed at the same place. -/
theorem scanTemplate_collapseBlankLines {state : TemplateState} {s : Text}
    (h : (scanTemplate state s).value.closed = true) (u : Text) :
    ∃ crosses, scanTemplate state (collapseBlankLines (scanTemplate state s).taken ++ u) =
      ⟨⟨true, crosses⟩, collapseBlankLines (scanTemplate state s).taken, u⟩ := by
  have hwhole := scanTemplate_taken h []
  rw [List.append_nil] at hwhole
  generalize (scanTemplate state s).taken = taken at hwhole
  obtain ⟨hvalue, hstop⟩ := scanTemplate_respaced (respaced_collapseBlankLines 0 taken) state
  have hrest := hstop.tight rfl
  rw [hwhole] at hvalue hrest
  have hnil : (scanTemplate state (collapseBlankLines taken)).rest = [] := hrest.eq_nil
  have hclosed : (scanTemplate state (collapseBlankLines taken)).value.closed = true := by
    rw [hvalue]
    exact h
  have htaken := scanTemplate_taken_append_rest state (collapseBlankLines taken)
  rw [hnil, List.append_nil] at htaken
  have hmore := scanTemplate_taken hclosed u
  rw [htaken, Scan.onto, htaken] at hmore
  refine ⟨(scanTemplate state (collapseBlankLines taken)).value.crossesLine, ?_⟩
  rw [hmore, ← hclosed]

/-- Only a backquote starts a template. -/
theorem scanToken_ne_template {c : Char} (h : c ≠ '\x60') (regexAllowed : Bool) (s : Text) :
    (scanToken regexAllowed c s).value.1 ≠ .template := by
  cases tokenStart regexAllowed c with
  | identifier hname => simp [scanToken_identifier hname]
  | number hname hdigit => simp [scanToken_number hname hdigit]
  | quote hquote =>
    rw [scanToken_quote hquote]
    cases hvalue : (scanString c s).value <;> simp [hvalue]
  | backquote htick => exact absurd htick h
  | regex hslash hallowed =>
    subst hslash hallowed
    rw [scanToken_slash]
    cases hvalue : (scanRegex s).value <;> simp [hvalue]
  | other hname hdigit hquote htick hslash =>
    simp [scanToken_other hname hdigit hquote htick hslash]

/-- A token that is closed is found again, with blank lines in it cut down. -/
theorem scanToken_collapseBlankLines {regexAllowed : Bool} {c : Char} {s : Text}
    (hspacing : isSpacing c = false)
    (hclosed : (scanToken regexAllowed c s).value.1 ≠ .unterminated) :
    ∃ crosses, scanToken regexAllowed c (collapseBlankLines s) =
      ⟨((scanToken regexAllowed c s).value.1, crosses),
        collapseBlankLines (scanToken regexAllowed c s).taken,
        collapseBlankLines (scanToken regexAllowed c s).rest⟩ := by
  have hfeed : c ≠ '\n' := by
    rintro rfl
    exact absurd hspacing (by decide)
  obtain ⟨d, hlast, hd⟩ := exists_getLast?_scanToken hspacing hclosed
  have hsplit := collapseBlankLines_append hlast (isSolid_of_not_isBlank hd)
    (scanToken regexAllowed c s).rest
  rw [scanToken_taken_append_rest, collapseBlankLines_cons hfeed] at hsplit
  by_cases htick : c = '\x60'
  · subst htick
    rw [scanToken_backquote] at hclosed hsplit ⊢
    have hvalue : (scanTemplate (.text []) s).value.closed = true := by
      cases hopen : (scanTemplate (.text []) s).value.closed with
      | true => rfl
      | false => simp [hopen] at hclosed
    simp only [Scan.after_taken, Scan.map_taken, Scan.after_rest, Scan.map_rest,
      collapseBlankLines_cons hfeed, List.cons_append, List.nil_append, List.cons.injEq,
      true_and] at hsplit
    obtain ⟨crosses, hscan⟩ := scanTemplate_collapseBlankLines hvalue
      (collapseBlankLines (scanTemplate (.text []) s).rest)
    rw [scanToken_backquote, hsplit, hscan]
    refine ⟨crosses, ?_⟩
    simp [Scan.after, Scan.map, hvalue, collapseBlankLines_cons hfeed]
  · have hsame := collapseBlankLines_scanToken hspacing hclosed (scanToken_ne_template htick _ s)
    have hgoes : GoesOnLike (scanToken regexAllowed c s).rest
        (collapseBlankLines (scanToken regexAllowed c s).rest) :=
      .inl (respaced_collapseBlankLines 0 _).head?
    have htail := congrArg List.tail hsplit
    rw [hsame, List.tail_cons, List.tail_append_of_ne_nil (scanToken_taken_ne_nil _ _ _)] at htail
    rw [htail, scanToken_taken hgoes, hsame]
    exact ⟨_, rfl⟩

/-- A token in which blank lines are cut down. -/
def Lexeme.collapsed (l : Lexeme) : TokenKind × Text := (l.kind, collapseBlankLines l.text)

/-- The first token of a text is found again if it is closed. -/
theorem lexeme?_collapseBlankLines {state : LexState} {s rest : Text} {l : Lexeme}
    (h : lexeme? state s = some (l, rest)) (hclosed : l.kind ≠ .unterminated) :
    ∃ m, lexeme? state (collapseBlankLines s) = some (m, collapseBlankLines rest) ∧
      m.written = l.collapsed := by
  obtain ⟨c, tail, htext, hspacing, hcomment, crosses, htoken⟩ := exists_cons_of_lexeme? h
  have hsolid : isSolid c = true := by
    refine isSolid_of_not_isBlank ?_
    rw [← Bool.not_eq_true]
    exact fun hblank => by simp [isSpacing_of_isBlank hblank] at hspacing
  have hwhole : collapseBlankLines s =
      collapseBlankLines l.gap ++ c :: collapseBlankLines (tail ++ rest) := by
    rw [← collapseBlankLines_solid hsolid, ← List.cons_append, ← htext, ← List.append_assoc,
      lexeme?_gap_append_text h]
  have hrespaced := respaced_collapseBlankLines 0 (c :: (tail ++ rest))
  rw [collapseBlankLines_cons (by rintro rfl; exact absurd hspacing (by decide))] at hrespaced
  obtain ⟨crosses', hscan⟩ :=
    scanToken_collapseBlankLines hspacing (by rw [htoken]; exact hclosed)
  rw [htoken] at hscan
  obtain ⟨_, hfound⟩ := lexeme?_trivia (isTrivia_gap h).collapseBlankLines state
    (c :: collapseBlankLines (tail ++ rest))
  rw [lexeme?_of_start hspacing (mt hrespaced.startsComment_iff.mp hcomment), hscan] at hfound
  rw [hwhole, hfound]
  exact ⟨_, rfl, rfl⟩

/-- **Tokens behind cut blank lines.** If all tokens of a text are closed they are found again once
blank lines are cut down, and blank lines are cut down in them. -/
theorem written_collapseBlankLines {state : LexState} {s : Text}
    (hclosed : ∀ l ∈ lexemes state s, l.kind ≠ .unterminated) :
    (lexemes state (collapseBlankLines s)).map Lexeme.written =
      (lexemes state s).map Lexeme.collapsed := by
  fun_induction lexemes state s with
  | case1 state s h =>
    have hfound := lexeme?_respaced (respaced_collapseBlankLines 0 s) state
    rw [h] at hfound
    generalize hcollapsed : lexeme? state (collapseBlankLines s) = found at hfound
    cases hfound
    rw [(lexemes_of_none hcollapsed).1]
    rfl
  | case2 state s l rest h _ ih =>
    obtain ⟨hl, hothers⟩ := List.forall_mem_cons.mp hclosed
    obtain ⟨m, hm, hwritten⟩ := lexeme?_collapseBlankLines h hl
    have hkind : m.kind = l.kind := congrArg Prod.fst hwritten
    rw [(lexemes_of_some hm).1, hkind, List.map_cons, List.map_cons, hwritten, ih hothers]

end ScriptBundle
