import ScriptBundle.Proofs.Token.State

/-!
# Tokens in Other Surroundings

A token that is moved in front of another text, behind other trivia and in another state, stays what
it is as long as nothing that follows could belong to it, and no slash is taken for the start of
something else.

## Main definitions

* `IsTrivia`: whether a text adds to the gap of whatever follows and does nothing else;
* `GoesOnLike`: whether tokens that end in front of one text end in front of another one as well.

## Main statements

* `isTrivia_gap`: the gap in front of a token is such a text;
* `lexeme?_moved`: a token is found again in other surroundings;
* `text_of_identifier`: a name is written as it is called;
* `exists_of_lexemes_append`: tokens behind others are found in what these leave.
-/

namespace ScriptBundle

/-! ### Trivia -/

/-- Whether a text adds to the gap of whatever follows, and does nothing else. -/
def IsTrivia (g : Text) : Prop :=
  ∃ crosses, ∀ u, scanTrivia (g ++ u) =
    ⟨crosses || (scanTrivia u).value, g ++ (scanTrivia u).taken, (scanTrivia u).rest⟩

theorem isTrivia_nil : IsTrivia [] := ⟨false, fun u => by simp⟩

/-- Trivia may stand behind each other. -/
theorem IsTrivia.append {g g' : Text} (h : IsTrivia g) (h' : IsTrivia g') : IsTrivia (g ++ g') := by
  obtain ⟨crosses, hg⟩ := h
  obtain ⟨crosses', hg'⟩ := h'
  refine ⟨crosses || crosses', fun u => ?_⟩
  rw [List.append_assoc, hg, hg', Bool.or_assoc, List.append_assoc]

/-- White space at the front of trivia. -/
theorem IsTrivia.cons {c : Char} {g : Text} (hc : isSpacing c = true) (h : IsTrivia g) :
    IsTrivia (c :: g) := by
  obtain ⟨crosses, hg⟩ := h
  refine ⟨isLineEnd c || crosses, fun u => ?_⟩
  have hcomment : ¬startsComment c (g ++ u) := by
    rintro ⟨rfl, -⟩
    exact absurd hc (by decide)
  rw [List.cons_append, scanTrivia_cons hcomment, if_pos hc, hg]
  simp [Scan.map, Scan.after, Bool.or_assoc]

/-- A line comment at the front of trivia, in which a line feed follows it. -/
theorem IsTrivia.lineComment {s g : Text} (h : IsTrivia ('\n' :: g)) :
    IsTrivia ('/' :: '/' :: (scanLine s).taken ++ '\n' :: g) := by
  obtain ⟨crosses, hg⟩ := h
  refine ⟨crosses, fun u => ?_⟩
  have hline := scanLine_taken s (g ++ u)
  rw [List.cons_append, List.cons_append, List.cons_append, List.cons_append, List.append_assoc,
    List.cons_append, scanTrivia, hline, Scan.onto_rest, ← List.cons_append, hg]
  simp [Scan.after]

/-- A block comment at the front of trivia. -/
theorem IsTrivia.blockComment {s g : Text} (hclosed : (scanBlockComment s).value.closed = true)
    (h : IsTrivia g) : IsTrivia ('/' :: '*' :: (scanBlockComment s).taken ++ g) := by
  obtain ⟨crosses, hg⟩ := h
  refine ⟨(scanBlockComment s).value.crossesLine || crosses, fun u => ?_⟩
  rw [List.cons_append, List.cons_append, List.cons_append, List.cons_append, List.append_assoc,
    scanTrivia, scanBlockComment_taken hclosed, Scan.onto_rest, hg]
  simp [Scan.after, Scan.map, Bool.or_assoc]

/-- What stands in front of something that is no trivia. -/
theorem isTrivia_taken {s : Text} (h : (scanTrivia s).rest ≠ []) :
    IsTrivia (scanTrivia s).taken := by
  fun_induction scanTrivia s with
  | case1 => simp at h
  | case2 rest line _ ih =>
    have hrest : (scanTrivia (scanLine rest).rest).rest ≠ [] := by simpa using h
    have hne : (scanLine rest).rest ≠ [] := by
      intro hnil
      simp [hnil, scanTrivia] at hrest
    obtain ⟨tail, htail⟩ := scanLine_rest_eq hne
    have htaken : (scanTrivia ('\n' :: tail)).taken = '\n' :: (scanTrivia tail).taken := by
      rw [scanTrivia_cons (not_startsComment_of_ne (by decide)), if_pos (by decide)]
      rfl
    have hih := ih hrest
    rw [htail, htaken] at hih
    change IsTrivia ('/' :: '/' :: (scanLine rest).taken ++ (scanTrivia (scanLine rest).rest).taken)
    rw [htail, htaken]
    exact hih.lineComment
  | case3 rest comment _ ih =>
    have hrest : (scanTrivia (scanBlockComment rest).rest).rest ≠ [] := by simpa using h
    have hclosed : (scanBlockComment rest).value.closed = true := by
      cases hopen : (scanBlockComment rest).value.closed with
      | true => rfl
      | false => simp [scanBlockComment_rest_of_open hopen, scanTrivia] at hrest
    simpa using (ih (by simpa using h)).blockComment hclosed
  | case4 c rest _ _ hend ih =>
    exact (ih (by simpa using h)).cons (by simp [isSpacing, hend])
  | case5 c rest _ _ _ hblank ih =>
    refine (ih (by simpa using h)).cons ?_
    rw [isSpacing, Bool.or_assoc, hblank, Bool.or_true]
  | case6 => exact isTrivia_nil

/-- The gap in front of a token. -/
theorem isTrivia_gap {state : LexState} {s rest : Text} {l : Lexeme}
    (h : lexeme? state s = some (l, rest)) : IsTrivia l.gap := by
  rw [lexeme?] at h
  split at h
  · simp at h
  · next c tail htail =>
    obtain ⟨rfl, -⟩ : _ = l ∧ _ = rest := by simpa using h
    exact isTrivia_taken (by simp [htail])

/-! ### Tokens -/

/-- Whether tokens that end in front of `rest` end in front of `u` as well: both start alike, or
`rest` starts with a character that any name or number would have taken along. -/
def GoesOnLike (rest u : Text) : Prop :=
  u.head? = rest.head? ∨
    ∃ d, rest.head? = some d ∧ isIdentifierPart d = true ∧ isNumberPart d = true

/-- Nothing goes on like nothing, and nothing else does. -/
theorem GoesOnLike.eq_nil {u : Text} (h : GoesOnLike [] u) : u = [] := by
  rcases h with h | ⟨d, h, -⟩
  · simpa using h
  · simp at h

/-- Characters of one kind are the same in front of a text that goes on alike. -/
theorem takeWhile_taken {p : Char → Bool} (hp : ∀ d, isIdentifierPart d = true →
    isNumberPart d = true → p d = true) {s u : Text} (h : GoesOnLike (s.dropWhile p) u) :
    (s.takeWhile p ++ u).takeWhile p = s.takeWhile p ∧ (s.takeWhile p ++ u).dropWhile p = u := by
  have hstop := List.head?_dropWhile_not p s
  have hu : ∀ c ∈ u.head?, p c = false := by
    intro c hc
    rcases h with h | ⟨d, hd, hname, hnumber⟩
    · rw [Option.mem_def, h] at hc
      simpa [hc] using hstop
    · rw [hd] at hstop
      simp [hp d hname hnumber] at hstop
  have htaken : ∀ a ∈ s.takeWhile p, p a = true := List.all_eq_true.mp List.all_takeWhile
  rw [List.takeWhile_append_of_pos htaken, List.dropWhile_append_of_pos htaken]
  cases u with
  | nil => simp
  | cons c u =>
    have hc : p c = false := hu c rfl
    simp [hc]

/-- A scan of a whole text finds the same if nothing follows. -/
theorem scan_taken_of_rest_nil {scan : Text → Scan α} {s u : Text}
    (happend : (scan s).taken ++ (scan s).rest = s) (hrest : (scan s).rest = [])
    (h : GoesOnLike (scan s).rest u) : scan ((scan s).taken ++ u) = (scan s).onto u := by
  rw [hrest] at h
  obtain rfl := h.eq_nil
  rw [hrest, List.append_nil] at happend
  rw [List.append_nil, happend, Scan.onto, ← hrest]

/-- A string is the same in front of a text that goes on alike. -/
theorem scanString_goesOn {quote : Char} {s u : Text} (h : GoesOnLike (scanString quote s).rest u) :
    scanString quote ((scanString quote s).taken ++ u) = (scanString quote s).onto u := by
  by_cases hrest : (scanString quote s).rest = []
  · exact scan_taken_of_rest_nil (scanString_taken_append_rest quote s) hrest h
  · exact scanString_taken (.inr hrest) u

/-- A template that is not closed takes the whole text. -/
theorem scanTemplate_rest_of_open {state : TemplateState} {s : Text}
    (h : (scanTemplate state s).value.closed = false) : (scanTemplate state s).rest = [] := by
  fun_induction scanTemplate state s <;> simp_all

/-- A template is the same in front of a text that goes on alike. -/
theorem scanTemplate_goesOn {state : TemplateState} {s u : Text}
    (h : GoesOnLike (scanTemplate state s).rest u) :
    scanTemplate state ((scanTemplate state s).taken ++ u) = (scanTemplate state s).onto u := by
  cases hclosed : (scanTemplate state s).value.closed with
  | true => exact scanTemplate_taken hclosed u
  | false =>
    exact scan_taken_of_rest_nil (scanTemplate_taken_append_rest state s)
      (scanTemplate_rest_of_open hclosed) h

/-- A regular expression is the same in front of a text that goes on alike. -/
theorem scanRegex_goesOn {s u : Text} (h : GoesOnLike (scanRegex s).rest u) :
    scanRegex ((scanRegex s).taken ++ u) = (scanRegex s).onto u := by
  by_cases hrest : (scanRegex s).rest = []
  · exact scan_taken_of_rest_nil (scanRegex_taken_append_rest s) hrest h
  · cases hclosed : (scanRegexBody false s).value with
    | true =>
      simp only [scanRegex, hclosed, if_true] at h ⊢
      obtain ⟨htake, hdrop⟩ := takeWhile_taken (fun d hd _ => hd) h
      rw [List.append_assoc, scanRegexBody_taken (.inl hclosed)]
      simp [hclosed, htake, hdrop, Scan.onto]
    | false =>
      simp only [scanRegex, hclosed] at h hrest ⊢
      have hbody : (scanRegexBody false s).rest ≠ [] := by simpa using hrest
      simp [scanRegexBody_taken (.inr hbody), hclosed]

/-- A token is the same in front of a text that goes on alike. -/
theorem scanToken_taken {regexAllowed : Bool} {c : Char} {s u : Text}
    (h : GoesOnLike (scanToken regexAllowed c s).rest u) :
    scanToken regexAllowed c ((scanToken regexAllowed c s).taken.tail ++ u) =
      (scanToken regexAllowed c s).onto u := by
  cases tokenStart regexAllowed c with
  | identifier hname =>
    rw [scanToken_identifier hname] at h ⊢
    obtain ⟨htake, hdrop⟩ := takeWhile_taken (fun d hd _ => hd) h
    rw [scanToken_identifier hname, List.tail_cons, htake, hdrop]
    rfl
  | number hname hdigit =>
    rw [scanToken_number hname hdigit] at h ⊢
    obtain ⟨htake, hdrop⟩ := takeWhile_taken (fun d _ hd => hd) h
    rw [scanToken_number hname hdigit, List.tail_cons, htake, hdrop]
    rfl
  | quote hquote =>
    rw [scanToken_quote hquote] at h ⊢
    have hmore : scanString c ((scanString c s).taken ++ u) = (scanString c s).onto u :=
      scanString_goesOn h
    rw [scanToken_quote hquote]
    simp [hmore]
  | backquote htick =>
    subst htick
    rw [scanToken_backquote] at h ⊢
    have hmore := scanTemplate_goesOn (s := s) h
    rw [scanToken_backquote]
    simp [hmore]
  | regex hslash hallowed =>
    subst hslash hallowed
    rw [scanToken_slash] at h ⊢
    have hmore := scanRegex_goesOn (s := s) h
    rw [scanToken_slash]
    simp [hmore]
  | other hname hdigit hquote htick hslash =>
    rw [scanToken_other hname hdigit hquote htick hslash,
      scanToken_other hname hdigit hquote htick hslash]
    rfl

/-! ### Lexemes -/

/-- A token has characters of its own, and they are no trivia. -/
theorem exists_cons_of_lexeme? {state : LexState} {s rest : Text} {l : Lexeme}
    (h : lexeme? state s = some (l, rest)) :
    ∃ c tail, l.text = c :: tail ∧ isSpacing c = false ∧ ¬startsComment c (tail ++ rest) ∧
      ∃ crosses, scanToken state.regexAllowed c (tail ++ rest) =
        ⟨(l.kind, crosses), l.text, rest⟩ := by
  rw [lexeme?] at h
  split at h
  · simp at h
  · next c tail htail =>
    obtain ⟨rfl, rfl⟩ : _ = l ∧ _ = rest := by simpa using h
    have hsplit := scanToken_taken_append_rest state.regexAllowed c tail
    obtain ⟨d, others, hcons⟩ :=
      List.exists_cons_of_ne_nil (scanToken_taken_ne_nil state.regexAllowed c tail)
    rw [hcons, List.cons_append, List.cons.injEq] at hsplit
    obtain ⟨rfl, hothers⟩ := hsplit
    obtain ⟨hspacing, hcomment⟩ := scanTrivia_rest_start htail
    exact ⟨d, others, hcons, hspacing, by rwa [hothers], _, by rw [hothers]⟩

/-- A token in front of which there are no trivia is found at once. -/
theorem lexeme?_of_start {state : LexState} {c : Char} {tail : Text}
    (hspacing : isSpacing c = false)
    (hcomment : ¬startsComment c tail) :
    lexeme? state (c :: tail) =
      let token := scanToken state.regexAllowed c tail
      some (⟨[], token.taken, token.value.1, token.value.2⟩, token.rest) := by
  have htrivia : scanTrivia (c :: tail) = ⟨false, [], c :: tail⟩ := by
    rw [scanTrivia_cons hcomment, if_neg (by simp [hspacing])]
  simp [lexeme?, htrivia]

/-- A semicolon is a token by itself. -/
theorem lexeme?_semicolon (state : LexState) (s : Text) :
    lexeme? state (';' :: s) = some (⟨[], [';'], .punctuator ';', false⟩, s) := by
  rw [lexeme?_of_start (by decide) (not_startsComment_of_ne (by decide)),
    scanToken_other (by decide) (by decide) (by decide) (by decide)
      fun hslash => absurd hslash (by decide)]

/-- Trivia in front of a text belong to the gap before the first token. -/
theorem lexeme?_trivia {g : Text} (hg : IsTrivia g) (state : LexState) (s : Text) :
    ∃ crosses, lexeme? state (g ++ s) = (lexeme? state s).map fun (l, rest) =>
      ({ l with gap := g ++ l.gap, newlineBefore := crosses || l.newlineBefore }, rest) := by
  obtain ⟨crosses, htrivia⟩ := hg
  refine ⟨crosses, ?_⟩
  rw [lexeme?, htrivia, lexeme?]
  cases (scanTrivia s).rest <;> simp [Bool.or_assoc]

/-- A token is found again behind other trivia, in front of a text that goes on alike, and in
another state, unless it is a slash that is read differently there. -/
theorem lexeme?_moved {state other : LexState} {s rest g u : Text} {l : Lexeme}
    (h : lexeme? state s = some (l, rest)) (hg : IsTrivia g) (hu : GoesOnLike rest u)
    (hstate : l.text.head? = some '/' → other.regexAllowed = state.regexAllowed)
    (hslash : l.text = ['/'] → ¬startsComment '/' u) :
    ∃ m, lexeme? other (g ++ (l.text ++ u)) = some (m, u) ∧ m.kind = l.kind ∧ m.text = l.text ∧
      m.gap = g := by
  obtain ⟨c, tail, htext, hspacing, hcomment, crosses, htoken⟩ := exists_cons_of_lexeme? h
  have hother : scanToken other.regexAllowed c (tail ++ u) = ⟨(l.kind, crosses), l.text, u⟩ := by
    have hsame : scanToken state.regexAllowed c (tail ++ u) = ⟨(l.kind, crosses), l.text, u⟩ := by
      have htaken : GoesOnLike (scanToken state.regexAllowed c (tail ++ rest)).rest u := by
        rw [htoken]
        exact hu
      simpa [htoken, htext, Scan.onto] using scanToken_taken htaken
    by_cases hc : c = '/'
    · rw [hstate (by rw [htext, hc, List.head?_cons]), hsame]
    · rw [scanToken_eq_of_ne_slash hc other.regexAllowed state.regexAllowed, hsame]
  have hcomment' : ¬startsComment c (tail ++ u) := by
    cases tail with
    | nil =>
      intro hstart
      obtain rfl := hstart.1
      exact hslash htext hstart
    | cons d others => simpa [startsComment] using hcomment
  obtain ⟨crosses', hfound⟩ := lexeme?_trivia hg other (c :: (tail ++ u))
  rw [lexeme?_of_start hspacing hcomment', hother] at hfound
  rw [htext, List.cons_append, hfound]
  exact ⟨_, rfl, rfl, htext.symm ▸ rfl, List.append_nil g⟩

/-! ### Names -/

/-- A token that is a name starts like one. -/
theorem isIdentifierStart_of_kind {regexAllowed : Bool} {c : Char} {rest : Text} {name : String}
    (h : (scanToken regexAllowed c rest).value.1 = .identifier name) :
    isIdentifierStart c = true := by
  cases tokenStart regexAllowed c with
  | identifier hname => exact hname
  | number hname hdigit => simp [scanToken_number hname hdigit] at h
  | quote hquote =>
    rw [scanToken_quote hquote] at h
    cases hclosed : (scanString c rest).value <;> simp [hclosed] at h
  | backquote htick =>
    subst htick
    rw [scanToken_backquote] at h
    cases hclosed : (scanTemplate (.text []) rest).value.closed <;> simp [hclosed] at h
  | regex hslash hallowed =>
    subst hslash
    rw [hallowed, scanToken_slash] at h
    cases hclosed : (scanRegex rest).value <;> simp [hclosed] at h
  | other hname hdigit hquote htick hslash =>
    simp [scanToken_other hname hdigit hquote htick hslash] at h

/-- A name is written as it is called: with a character that it may start with, and others that it
may go on with. -/
theorem exists_of_identifier {state : LexState} {s rest : Text} {l : Lexeme} {name : String}
    (h : lexeme? state s = some (l, rest)) (hkind : l.kind = .identifier name) :
    ∃ c tail, l.text = c :: tail ∧ name.toList = c :: tail ∧ isIdentifierStart c = true ∧
      ∀ d ∈ tail, isIdentifierPart d = true := by
  obtain ⟨c, tail, htext, -, -, crosses, htoken⟩ := exists_cons_of_lexeme? h
  have hstart : isIdentifierStart c = true := isIdentifierStart_of_kind (by rw [htoken, hkind])
  rw [scanToken_identifier hstart, hkind, htext, Scan.mk.injEq, Prod.mk.injEq,
    TokenKind.identifier.injEq, List.cons.injEq] at htoken
  obtain ⟨⟨hname, -⟩, ⟨-, htail⟩, -⟩ := htoken
  refine ⟨c, tail, htext, ?_, hstart, ?_⟩
  · rw [← hname, String.toList_ofList, htail]
  · rw [← htail]
    exact List.all_eq_true.mp List.all_takeWhile

/-- A name is written as it is called. -/
theorem text_of_identifier {state : LexState} {s rest : Text} {l : Lexeme} {name : String}
    (h : lexeme? state s = some (l, rest)) (hkind : l.kind = .identifier name) :
    l.text = name.toList := by
  obtain ⟨c, tail, htext, hname, -⟩ := exists_of_identifier h hkind
  rw [htext, hname]

/-! ### Lexemes one by one -/

theorem lexeme?_of_lexemes_nil {state : LexState} {s : Text} (h : lexemes state s = []) :
    lexeme? state s = none := by
  cases hfirst : lexeme? state s with
  | none => rfl
  | some found => simp [(lexemes_of_some hfirst).1] at h

/-- The first lexeme is found first, and the others in what it leaves. -/
theorem lexeme?_of_lexemes_cons {state : LexState} {s : Text} {l : Lexeme} {ls : List Lexeme}
    (h : lexemes state s = l :: ls) :
    ∃ rest, lexeme? state s = some (l, rest) ∧ lexemes (state.next l.kind) rest = ls ∧
      trailingTrivia (state.next l.kind) rest = trailingTrivia state s := by
  cases hfirst : lexeme? state s with
  | none => simp [(lexemes_of_none hfirst).1] at h
  | some found =>
    obtain ⟨first, rest⟩ := found
    obtain ⟨hlexemes, htrailing⟩ := lexemes_of_some hfirst
    rw [hlexemes, List.cons.injEq] at h
    obtain ⟨rfl, rfl⟩ := h
    exact ⟨rest, rfl, rfl, htrailing.symm⟩

/-- Lexemes behind others are found in what these leave. -/
theorem exists_of_lexemes_append {state : LexState} {s : Text} {ls others : List Lexeme}
    (h : lexemes state s = ls ++ others) :
    ∃ rest, lexemes (state.behind (ls.map Lexeme.kind)) rest = others ∧
      trailingTrivia (state.behind (ls.map Lexeme.kind)) rest = trailingTrivia state s := by
  induction ls generalizing state s with
  | nil => exact ⟨s, h, rfl⟩
  | cons l ls ih =>
    obtain ⟨rest, -, hlexemes, htrailing⟩ := lexeme?_of_lexemes_cons h
    obtain ⟨further, hfurther, htrailing'⟩ := ih hlexemes
    exact ⟨further, hfurther, htrailing'.trans htrailing⟩

/-- What holds of a lexeme wherever it is found holds of all lexemes. -/
theorem forall_mem_lexemes {p : Lexeme → Prop}
    (h : ∀ {state s rest l}, lexeme? state s = some (l, rest) → p l) {state : LexState} {s : Text} :
    ∀ l ∈ lexemes state s, p l := by
  fun_induction lexemes state s with
  | case1 state s hnone => simp
  | case2 state s l rest hfirst _ ih => exact List.forall_mem_cons.mpr ⟨h hfirst, ih⟩

/-- Every lexeme has characters of its own. -/
theorem text_ne_nil_of_mem_lexemes {state : LexState} {s : Text} :
    ∀ l ∈ lexemes state s, l.text ≠ [] :=
  forall_mem_lexemes lexeme?_text_ne_nil

theorem text_of_mem_lexemes {state : LexState} {s : Text} {name : String} :
    ∀ l ∈ lexemes state s, l.kind = .identifier name → l.text = name.toList :=
  forall_mem_lexemes text_of_identifier

theorem toLexeme_mem_lexemes {s : Text} {t : Token} (h : t ∈ tokenize s) :
    t.toLexeme ∈ lexemes .initial (afterHashbang s) := by
  rw [← tokenize_map_toLexeme]
  exact List.mem_map_of_mem h

theorem text_ne_nil_of_mem_tokenize {s : Text} : ∀ t ∈ tokenize s, t.text ≠ [] :=
  fun _ ht => text_ne_nil_of_mem_lexemes _ (toLexeme_mem_lexemes ht)

end ScriptBundle
