import ScriptBundle.Proofs.Token.RespacedLexer
import ScriptBundle.Proofs.Token.Relexing

/-!
# White Space at the End

A body is trimmed before it is put into the document. White space that a text ends with is not part
of any token: a token in front of it is complete, and a literal that the text leaves open is left
open by the white space, too.

## Main definitions

* `LeavesBlank`: what is left of a text if white space stands at its end.

## Main statements

* `scan_blank_behind`: white space behind a text closes nothing that the text leaves open;
* `shapes_blank_behind`: white space behind a text changes none of its tokens.
-/

namespace ScriptBundle

/-- The code points of white space. -/
def blankCodes : List Nat :=
  List.range' 0x09 5 ++ [0x20, 0x85, 0xA0, 0x1680] ++ List.range' 0x2000 11 ++
    [0x2028, 0x2029, 0x202F, 0x205F, 0x3000]

/-- White space is no part of a name or of a number. -/
theorem isBlank_not_part {c : Char} (h : isBlank c = true) :
    isIdentifierPart c = false ∧ isNumberPart c = false := by
  have hcodes : ∀ n ∈ blankCodes,
      isIdentifierPart (Char.ofNat n) = false ∧ isNumberPart (Char.ofNat n) = false := by
    decide +kernel
  have hmem : c.toNat ∈ blankCodes := by
    simp only [isBlank, Bool.or_eq_true, Bool.and_eq_true, decide_eq_true_eq, beq_iff_eq] at h
    simp only [blankCodes, List.mem_append, List.mem_range'_1, List.mem_cons, List.not_mem_nil,
      or_false]
    omega
  simpa [Char.ofNat_toNat] using hcodes c.toNat hmem

/-- Characters of one kind stop in front of white space that is of another kind. -/
theorem takeWhile_blank_behind {p : Char → Bool} (hp : ∀ c, isBlank c = true → p c = false)
    {b : Text} (hb : IsBlankText b) (s : Text) :
    (s ++ b).takeWhile p = s.takeWhile p ∧ (s ++ b).dropWhile p = s.dropWhile p ++ b := by
  induction s with
  | nil =>
    cases b with
    | nil => exact ⟨rfl, rfl⟩
    | cons c b =>
      have hc := hp c (hb c (by simp))
      simp [hc]
  | cons c s ih =>
    by_cases hc : p c = true
    · simp [hc, ih]
    · simp [hc]

/-! ### Scanners -/

/-- What is left of a text in front of white space: the same as without it and the white space, or
only white space if nothing is left without it. -/
inductive LeavesBlank (b rest : Text) : Text → Prop
  | kept : LeavesBlank b rest (rest ++ b)
  | blank {rest' : Text} (hrest : rest = []) (hblank : IsBlankText rest') : LeavesBlank b rest rest'

/-- The body of a regular expression that is closed ends with a slash. -/
theorem getLast?_scanRegexBody {inClass : Bool} {s : Text}
    (h : (scanRegexBody inClass s).value = true) :
    (scanRegexBody inClass s).taken.getLast? = some '/' := by
  fun_induction scanRegexBody inClass s
  all_goals simp_all [List.getLast?_cons]

section

variable {b : Text} (hb : IsBlankText b)
include hb

/-- White space behind a text closes nothing that the text leaves open. -/
theorem scan_blank_behind {scan : Text → Scan α} (closed : α → Bool)
    (hsplit : ∀ s, (scan s).taken ++ (scan s).rest = s)
    (htaken : ∀ s, closed (scan s).value = true ∨ (scan s).rest ≠ [] →
      ∀ u, scan ((scan s).taken ++ u) = (scan s).onto u)
    (hlast : ∀ s, closed (scan s).value = true →
      ∃ c, (scan s).taken.getLast? = some c ∧ isBlank c = false) (s : Text) :
    closed (scan (s ++ b)).value = closed (scan s).value ∧
      LeavesBlank b (scan s).rest (scan (s ++ b)).rest := by
  by_cases hends : closed (scan s).value = true ∨ (scan s).rest ≠ []
  · have hmore := htaken s hends ((scan s).rest ++ b)
    rw [← List.append_assoc, hsplit] at hmore
    rw [hmore]
    exact ⟨rfl, .kept⟩
  · obtain ⟨hopen, hrest⟩ := not_or.mp hends
    have hrest := Classical.not_not.mp hrest
    have hwhole := hsplit (s ++ b)
    -- The scan cannot end inside of `s`, as it would have ended there without `b`, too.
    have hbehind : ∃ front, (scan (s ++ b)).taken = s ++ front ∧
        b = front ++ (scan (s ++ b)).rest := by
      rcases List.append_eq_append_iff.mp hwhole with ⟨inside, hs, hleft⟩ | ⟨front, htook, hleft⟩
      · cases inside with
        | nil => exact ⟨[], by simpa using hs.symm, by simpa using hleft.symm⟩
        | cons c inside =>
          have hmore := htaken (s ++ b) (.inr (by simp [hleft])) (c :: inside)
          rw [← hs] at hmore
          simp [hmore] at hrest
      · exact ⟨front, htook, hleft⟩
    obtain ⟨front, htook, hleft⟩ := hbehind
    refine ⟨?_, .blank hrest (.of_append_right (hleft ▸ hb))⟩
    cases hclosed : closed (scan (s ++ b)).value with
    | false => simpa using hopen
    | true =>
      exfalso
      obtain ⟨c, hc, hblank⟩ := hlast _ hclosed
      cases hfront : front.getLast? with
      | some d =>
        have hd := hb d (by rw [hleft]; exact List.mem_append_left _ (List.mem_of_getLast? hfront))
        obtain rfl : d = c := by simpa [htook, List.getLast?_append, hfront] using hc
        simp [hd] at hblank
      | none =>
        have hmore := htaken (s ++ b) (.inl hclosed) []
        rw [htook, List.getLast?_eq_none_iff.mp hfront, List.append_nil, List.append_nil] at hmore
        rw [hmore] at hopen
        exact hopen hclosed

/-- A string in front of white space. -/
theorem scanString_blank_behind {quote : Char} (hquote : isBlank quote = false) (s : Text) :
    (scanString quote (s ++ b)).value.isSome = (scanString quote s).value.isSome ∧
      LeavesBlank b (scanString quote s).rest (scanString quote (s ++ b)).rest := by
  refine scan_blank_behind hb Option.isSome (scanString_taken_append_rest quote) ?_ ?_ s
  · intro s hends u
    refine scanString_taken (hends.imp_left fun hclosed hnone => ?_) u
    simp [hnone] at hclosed
  · intro s hclosed
    refine ⟨quote, getLast?_scanString fun hnone => ?_, hquote⟩
    simp [hnone] at hclosed

/-- A template in front of white space. -/
theorem scanTemplate_blank_behind (state : TemplateState) (s : Text) :
    (scanTemplate state (s ++ b)).value.closed = (scanTemplate state s).value.closed ∧
      LeavesBlank b (scanTemplate state s).rest (scanTemplate state (s ++ b)).rest := by
  refine scan_blank_behind hb Template.closed (scanTemplate_taken_append_rest state) ?_ ?_ s
  · intro s hends u
    cases hclosed : (scanTemplate state s).value.closed with
    | true => exact scanTemplate_taken hclosed u
    | false => simp [hclosed, scanTemplate_rest_of_open hclosed] at hends
  · intro s hclosed
    exact ⟨'\x60', getLast?_scanTemplate hclosed, by decide⟩

/-- A regular expression in front of white space. -/
theorem scanRegex_blank_behind (s : Text) :
    (scanRegex (s ++ b)).value = (scanRegex s).value ∧
      LeavesBlank b (scanRegex s).rest (scanRegex (s ++ b)).rest := by
  have hbody := scan_blank_behind hb id (scanRegexBody_taken_append_rest false)
    (fun s hends u => scanRegexBody_taken hends u)
    (fun s hclosed => ⟨'/', getLast?_scanRegexBody hclosed, by decide⟩) s
  cases hclosed : (scanRegexBody false s).value with
  | false =>
    have hopen : (scanRegexBody false (s ++ b)).value = false := hbody.1.trans hclosed
    simpa [scanRegex, hclosed, hopen] using hbody.2
  | true =>
    have hmore := scanRegexBody_taken (.inl hclosed) ((scanRegexBody false s).rest ++ b)
    rw [← List.append_assoc, scanRegexBody_taken_append_rest] at hmore
    have hflags := takeWhile_blank_behind (fun c hc => (isBlank_not_part hc).1) hb
      (scanRegexBody false s).rest
    simp only [scanRegex, hmore, Scan.onto_value, Scan.onto_rest, hclosed, if_true, hflags.2]
    exact ⟨trivial, .kept⟩

/-- A token in front of white space. -/
theorem scanToken_blank_behind (regexAllowed : Bool) (c : Char) (s : Text) :
    (scanToken regexAllowed c (s ++ b)).value.1.shape = (scanToken regexAllowed c s).value.1.shape ∧
      LeavesBlank b (scanToken regexAllowed c s).rest (scanToken regexAllowed c (s ++ b)).rest := by
  cases tokenStart regexAllowed c with
  | identifier hname =>
    have hpart := takeWhile_blank_behind (fun c hc => (isBlank_not_part hc).1) hb s
    rw [scanToken_identifier hname, scanToken_identifier hname, hpart.1, hpart.2]
    exact ⟨rfl, .kept⟩
  | number hname hdigit =>
    have hpart := takeWhile_blank_behind (fun c hc => (isBlank_not_part hc).2) hb s
    rw [scanToken_number hname hdigit, scanToken_number hname hdigit, hpart.2]
    exact ⟨rfl, .kept⟩
  | quote hquote =>
    have hblank : isBlank c = false := by rcases hquote with rfl | rfl <;> decide
    obtain ⟨hvalue, hrest⟩ := scanString_blank_behind hb hblank s
    rw [scanToken_quote hquote, scanToken_quote hquote]
    refine ⟨?_, hrest⟩
    cases hs : (scanString c s).value <;> cases ht : (scanString c (s ++ b)).value <;>
      simp_all [TokenKind.shape]
  | backquote htick =>
    subst htick
    obtain ⟨hvalue, hrest⟩ := scanTemplate_blank_behind hb (.text []) s
    rw [scanToken_backquote, scanToken_backquote]
    exact ⟨by simp [hvalue], hrest⟩
  | regex hslash hallowed =>
    subst hslash hallowed
    obtain ⟨hvalue, hrest⟩ := scanRegex_blank_behind hb s
    rw [scanToken_slash, scanToken_slash]
    exact ⟨by simp [hvalue], hrest⟩
  | other hname hdigit hquote htick hslash =>
    rw [scanToken_other hname hdigit hquote htick hslash,
      scanToken_other hname hdigit hquote htick hslash]
    exact ⟨rfl, .kept⟩

/-- A token that is closed is the same in front of white space. -/
theorem scanToken_closed_behind {regexAllowed : Bool} {c : Char} {s : Text}
    (hclosed : (scanToken regexAllowed c s).value.1 ≠ .unterminated) :
    scanToken regexAllowed c (s ++ b) =
      (scanToken regexAllowed c s).onto ((scanToken regexAllowed c s).rest ++ b) := by
  cases tokenStart regexAllowed c with
  | identifier hname =>
    have hpart := takeWhile_blank_behind (fun c hc => (isBlank_not_part hc).1) hb s
    rw [scanToken_identifier hname, scanToken_identifier hname, hpart.1, hpart.2]
    rfl
  | number hname hdigit =>
    have hpart := takeWhile_blank_behind (fun c hc => (isBlank_not_part hc).2) hb s
    rw [scanToken_number hname hdigit, scanToken_number hname hdigit, hpart.1, hpart.2]
    rfl
  | quote hquote =>
    rw [scanToken_quote hquote] at hclosed
    have hvalue : (scanString c s).value ≠ none := fun hnone => by simp [hnone] at hclosed
    rw [scanToken_quote hquote, scanToken_quote hquote, scanString_append hvalue]
    rfl
  | backquote htick =>
    subst htick
    rw [scanToken_backquote] at hclosed
    have hvalue : (scanTemplate (.text []) s).value.closed = true := by
      cases hopen : (scanTemplate (.text []) s).value.closed with
      | true => rfl
      | false => simp [hopen] at hclosed
    rw [scanToken_backquote, scanToken_backquote, scanTemplate_append hvalue]
    rfl
  | regex hslash hallowed =>
    subst hslash hallowed
    rw [scanToken_slash] at hclosed
    cases hvalue : (scanRegexBody false s).value with
    | false => simp [scanRegex, hvalue] at hclosed
    | true =>
      have hmore := scanRegexBody_taken (.inl hvalue) ((scanRegexBody false s).rest ++ b)
      rw [← List.append_assoc, scanRegexBody_taken_append_rest] at hmore
      have hflags := takeWhile_blank_behind (fun c hc => (isBlank_not_part hc).1) hb
        (scanRegexBody false s).rest
      rw [scanToken_slash, scanToken_slash]
      simp [scanRegex, hmore, hvalue, hflags, Scan.onto, Scan.after, Scan.map]
  | other hname hdigit hquote htick hslash =>
    rw [scanToken_other hname hdigit hquote htick hslash,
      scanToken_other hname hdigit hquote htick hslash]
    rfl

end

/-- Characters that are no white space end with one. -/
theorem exists_getLast?_takeWhile {p : Char → Bool} (hp : ∀ d, isBlank d = true → p d = false)
    {c : Char} (hc : isBlank c = false) (front s : Text) :
    ∃ d, (front ++ c :: s.takeWhile p).getLast? = some d ∧ isBlank d = false := by
  cases hlast : (s.takeWhile p).getLast? with
  | none => exact ⟨c, by simp [List.getLast?_append, List.getLast?_cons, hlast], hc⟩
  | some d =>
    refine ⟨d, by simp [List.getLast?_append, List.getLast?_cons, hlast], ?_⟩
    have hd := List.all_eq_true.mp List.all_takeWhile d (List.mem_of_getLast? hlast)
    rw [← Bool.not_eq_true]
    exact fun hblank => by simp [hp d hblank] at hd

/-- A token that is closed ends with a character that is no white space. -/
theorem exists_getLast?_scanToken {regexAllowed : Bool} {c : Char} {s : Text}
    (hspacing : isSpacing c = false)
    (hclosed : (scanToken regexAllowed c s).value.1 ≠ .unterminated) :
    ∃ d, (scanToken regexAllowed c s).taken.getLast? = some d ∧ isBlank d = false := by
  have hc : isBlank c = false := by
    rw [← Bool.not_eq_true]
    exact fun hblank => by simp [isSpacing_of_isBlank hblank] at hspacing
  cases tokenStart regexAllowed c with
  | identifier hname =>
    rw [scanToken_identifier hname]
    exact exists_getLast?_takeWhile (fun d hd => (isBlank_not_part hd).1) hc [] s
  | number hname hdigit =>
    rw [scanToken_number hname hdigit]
    exact exists_getLast?_takeWhile (fun d hd => (isBlank_not_part hd).2) hc [] s
  | quote hquote =>
    rw [scanToken_quote hquote] at hclosed ⊢
    have hvalue : (scanString c s).value ≠ none := by
      intro hnone
      simp [hnone] at hclosed
    exact ⟨c, by simp [List.getLast?_cons, getLast?_scanString hvalue], hc⟩
  | backquote htick =>
    subst htick
    rw [scanToken_backquote] at hclosed ⊢
    have hvalue : (scanTemplate (.text []) s).value.closed = true := by
      cases hopen : (scanTemplate (.text []) s).value.closed with
      | true => rfl
      | false => simp [hopen] at hclosed
    exact ⟨'\x60', by simp [List.getLast?_cons, getLast?_scanTemplate hvalue], hc⟩
  | regex hslash hallowed =>
    subst hslash hallowed
    rw [scanToken_slash] at hclosed ⊢
    cases hvalue : (scanRegexBody false s).value with
    | false => simp [scanRegex, hvalue] at hclosed
    | true =>
      obtain ⟨init, hinit⟩ := List.getLast?_eq_some_iff.mp (getLast?_scanRegexBody hvalue)
      obtain ⟨d, hd, hblank⟩ := exists_getLast?_takeWhile (fun d hd => (isBlank_not_part hd).1) hc
        ('/' :: init) (scanRegexBody false s).rest
      refine ⟨d, ?_, hblank⟩
      simpa [scanRegex, hvalue, hinit] using hd
  | other hname hdigit hquote htick hslash =>
    rw [scanToken_other hname hdigit hquote htick hslash]
    exact ⟨c, rfl, hc⟩

/-! ### Lexemes -/

section

variable {b : Text} (hb : IsBlankText b)
include hb

/-- A character starts a comment with what follows it, not with the white space behind that. -/
theorem startsComment_blank_behind (c : Char) (s : Text) :
    startsComment c (s ++ b) ↔ startsComment c s := by
  cases s with
  | cons d s => exact startsComment_append (by simp) b
  | nil =>
    cases b with
    | nil => simp
    | cons d b =>
      have hd : ∀ e, isBlank e = false → d ≠ e := fun e he => ne_of_isBlank (hb d (by simp)) he
      simp [startsComment, hd '/' (by decide), hd '*' (by decide)]

/-- A token is found in front of white space as it is found at the end of a text. -/
theorem lexeme?_blank_behind {state : LexState} {s rest : Text} {l : Lexeme}
    (h : lexeme? state s = some (l, rest)) :
    ∃ m rest', lexeme? state (s ++ b) = some (m, rest') ∧ m.kind.shape = l.kind.shape ∧
      LeavesBlank b rest rest' := by
  obtain ⟨c, tail, htext, hspacing, hcomment, crosses, htoken⟩ := exists_cons_of_lexeme? h
  have hwhole : s ++ b = l.gap ++ c :: (tail ++ rest ++ b) := by
    rw [← lexeme?_gap_append_text h, htext]
    simp
  obtain ⟨hshape, hleaves⟩ := scanToken_blank_behind hb state.regexAllowed c (tail ++ rest)
  rw [htoken] at hshape hleaves
  obtain ⟨crosses', hfound⟩ := lexeme?_trivia (isTrivia_gap h) state (c :: (tail ++ rest ++ b))
  rw [lexeme?_of_start hspacing (mt (startsComment_blank_behind hb c _).mp hcomment)] at hfound
  rw [hwhole, hfound]
  exact ⟨_, _, rfl, hshape, hleaves⟩

/-- A token that is closed is found again in front of white space. -/
theorem lexeme?_closed_behind {state : LexState} {s rest : Text} {l : Lexeme}
    (h : lexeme? state s = some (l, rest)) (hclosed : l.kind ≠ .unterminated) :
    ∃ m, lexeme? state (s ++ b) = some (m, rest ++ b) ∧ m.kind = l.kind ∧ m.text = l.text := by
  obtain ⟨c, tail, htext, hspacing, hcomment, crosses, htoken⟩ := exists_cons_of_lexeme? h
  have hwhole : s ++ b = l.gap ++ c :: (tail ++ rest ++ b) := by
    rw [← lexeme?_gap_append_text h, htext]
    simp
  have hscan := scanToken_closed_behind hb (s := tail ++ rest) (by rw [htoken]; exact hclosed)
  rw [htoken] at hscan
  obtain ⟨_, hfound⟩ := lexeme?_trivia (isTrivia_gap h) state (c :: (tail ++ rest ++ b))
  rw [lexeme?_of_start hspacing (mt (startsComment_blank_behind hb c _).mp hcomment), hscan]
    at hfound
  rw [hwhole, hfound]
  exact ⟨_, rfl, rfl, rfl⟩

/-- White space behind a text without tokens holds none, either. -/
theorem lexeme?_blank_behind_of_none {state : LexState} {s : Text}
    (h : lexeme? state s = none) : lexeme? state (s ++ b) = none := by
  cases hfound : lexeme? state (s ++ b) with
  | none => rfl
  | some found =>
    exfalso
    obtain ⟨l, rest⟩ := found
    obtain ⟨c, tail, htext, hspacing, hcomment, -⟩ := exists_cons_of_lexeme? hfound
    have hwhole := lexeme?_gap_append_text hfound
    rw [htext, List.append_assoc, List.cons_append] at hwhole
    -- The token starts inside of `s`, as its first character is no white space.
    rcases List.append_eq_append_iff.mp hwhole with ⟨inside, hs, hleft⟩ | ⟨front, -, hleft⟩
    · cases inside with
      | nil =>
        have hc := hb c (by rw [← List.nil_append b, ← hleft]; simp)
        simp [isSpacing_of_isBlank hc] at hspacing
      | cons d inside =>
        obtain ⟨rfl, htail⟩ : c = d ∧ tail ++ rest = inside ++ b := by simpa using hleft
        rw [htail, startsComment_blank_behind hb] at hcomment
        obtain ⟨_, hfirst⟩ := lexeme?_trivia (isTrivia_gap hfound) state (c :: inside)
        rw [← hs, h, lexeme?_of_start hspacing hcomment] at hfirst
        simp at hfirst
    · have hc := hb c (by rw [hleft]; simp)
      simp [isSpacing_of_isBlank hc] at hspacing

end

/-- White space alone holds no tokens. -/
theorem lexemes_blank {b : Text} (hb : IsBlankText b) (state : LexState) :
    lexemes state b = [] := by
  have hnone : lexeme? state b = none :=
    lexeme?_blank_behind_of_none (s := []) hb (lexeme?_nil state)
  exact (lexemes_of_none hnone).1

/-- White space behind a text changes none of its tokens. -/
theorem shapes_blank_behind {b : Text} (hb : IsBlankText b) {inner outer : LexState}
    (hstate : LexState.Within [] [] inner outer) (s : Text) :
    (lexemes outer (s ++ b)).map (·.kind.shape) = (lexemes inner s).map (·.kind.shape) := by
  induction hlength : s.length using Nat.strongRecOn generalizing s inner outer with
  | _ n ih =>
    have hsame := lexeme?_congr hstate.regexAllowed (s ++ b)
    cases hfirst : lexeme? inner s with
    | none =>
      have hnone := lexeme?_blank_behind_of_none hb hfirst
      rw [(lexemes_of_none hfirst).1, (lexemes_of_none (hsame.trans hnone)).1]
    | some found =>
      obtain ⟨l, rest⟩ := found
      obtain ⟨m, rest', hfirst', hshape, hleaves⟩ := lexeme?_blank_behind hb hfirst
      rw [(lexemes_of_some hfirst).1, (lexemes_of_some (hsame.trans hfirst')).1, List.map_cons,
        List.map_cons, hshape]
      cases hleaves with
      | kept =>
        have hlt : rest.length < n := hlength ▸ lexeme?_length hfirst
        rw [ih _ hlt (hstate.next_of_shape hshape) rest rfl]
      | blank hrest hblank => rw [hrest, lexemes_blank hblank, lexemes_nil]

/-- What is left in front of white space holds the tokens that are left without it. -/
theorem shapes_of_leavesBlank {b rest rest' : Text} (hb : IsBlankText b)
    (h : LeavesBlank b rest rest') (state : LexState) :
    (lexemes state rest').map (·.kind.shape) = (lexemes state rest).map (·.kind.shape) := by
  cases h with
  | kept => exact shapes_blank_behind hb (.refl state) rest
  | blank hrest hblank => rw [hrest, lexemes_blank hblank, lexemes_nil]

end ScriptBundle
