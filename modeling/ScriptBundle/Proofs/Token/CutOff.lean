import ScriptBundle.Proofs.Text.Position
import ScriptBundle.Proofs.Token.Bounded
import ScriptBundle.Proofs.Token.Relexing

/-!
# Sources Cut Off Behind a Token

A token is told by its own characters and by what stands in front of it. Each scanner that has come
to an end comes to the same end where the text is cut off there, or further on, since it has looked
at nothing behind it but to see that the next character does not belong to the token. A text that
ends is no different from one that goes on with such a character.

## Main statements

* `scanToken_of_isPrefix`: a token in front of a part of what stands behind it;
* `lexeme?_of_isPrefix`: so with the trivia in front of it, and with whether a line ends there;
* `lexemes_cut`: the text up to the end of a lexeme has the lexemes up to it;
* `tokenize_cut`: a source that is cut off at the end of a token has the tokens up to it.
-/

namespace ScriptBundle

/-! ### Scanners -/

/-- A scanner finds the same in what it has taken if it does so where it has left something. -/
theorem scan_taken {scan : Text → Scan α} {s : Text}
    (happend : (scan s).taken ++ (scan s).rest = s)
    (hends : (scan s).rest ≠ [] → scan (scan s).taken = (scan s).onto []) :
    scan (scan s).taken = (scan s).onto [] := by
  by_cases hrest : (scan s).rest = []
  · rw [hrest, List.append_nil] at happend
    rw [happend, Scan.onto, ← hrest]
  · exact hends hrest

/-- A regular expression is the same by itself, its flags included. -/
theorem scanRegex_taken (s : Text) : scanRegex (scanRegex s).taken = (scanRegex s).onto [] := by
  refine scan_taken (scanRegex_taken_append_rest s) fun hrest => ?_
  cases hclosed : (scanRegexBody false s).value with
  | true =>
    have hflags : ∀ c ∈ (scanRegexBody false s).rest.takeWhile isIdentifierPart,
        isIdentifierPart c = true := fun c hc => List.mem_takeWhile_imp hc
    have hbody := scanRegexBody_taken (.inl hclosed)
      ((scanRegexBody false s).rest.takeWhile isIdentifierPart)
    simp only [scanRegex, hclosed, if_true, hbody, Scan.onto_value, Scan.onto_taken,
      Scan.onto_rest, List.takeWhile_eq_self_iff.mpr hflags, List.dropWhile_eq_nil_iff.mpr hflags]
    rfl
  | false =>
    have hopen : scanRegex s = scanRegexBody false s := by simp [scanRegex, hclosed]
    rw [hopen] at hrest ⊢
    have hbody := scanRegexBody_taken (.inr hrest) []
    rw [List.append_nil] at hbody
    simp [scanRegex, hbody, hclosed]

/-- A token is the same by itself. -/
theorem scanToken_tail_taken (regexAllowed : Bool) (c : Char) (s : Text) :
    scanToken regexAllowed c (scanToken regexAllowed c s).taken.tail =
      (scanToken regexAllowed c s).onto [] := by
  cases tokenStart regexAllowed c with
  | identifier hname =>
    have hpart : ∀ d ∈ s.takeWhile isIdentifierPart, isIdentifierPart d = true :=
      fun d hd => List.mem_takeWhile_imp hd
    rw [scanToken_identifier hname, scanToken_identifier hname, List.tail_cons,
      List.takeWhile_eq_self_iff.mpr hpart, List.dropWhile_eq_nil_iff.mpr hpart]
    rfl
  | number hname hdigit =>
    have hpart : ∀ d ∈ s.takeWhile isNumberPart, isNumberPart d = true :=
      fun d hd => List.mem_takeWhile_imp hd
    rw [scanToken_number hname hdigit, scanToken_number hname hdigit, List.tail_cons,
      List.takeWhile_eq_self_iff.mpr hpart, List.dropWhile_eq_nil_iff.mpr hpart]
    rfl
  | quote hquote =>
    have hmore : scanString c (scanString c s).taken = (scanString c s).onto [] :=
      scan_taken (scanString_taken_append_rest c s) fun hrest => by
        simpa using scanString_taken (.inr hrest) []
    rw [scanToken_quote hquote, scanToken_quote hquote]
    simp [hmore]
  | backquote htick =>
    subst htick
    have hmore : scanTemplate (.text []) (scanTemplate (.text []) s).taken =
        (scanTemplate (.text []) s).onto [] := by
      refine scan_taken (scanTemplate_taken_append_rest _ s) fun hrest => ?_
      have hclosed : (scanTemplate (.text []) s).value.closed = true := by
        rw [← Bool.not_eq_false]
        exact mt scanTemplate_rest_of_open hrest
      simpa using scanTemplate_taken hclosed []
    rw [scanToken_backquote, scanToken_backquote]
    simp [hmore]
  | regex hslash hallowed =>
    subst hslash hallowed
    rw [scanToken_slash, scanToken_slash]
    simp [scanRegex_taken]
  | other hname hdigit hquote htick hslash =>
    rw [scanToken_other hname hdigit hquote htick hslash,
      scanToken_other hname hdigit hquote htick hslash]
    rfl

/-- A token is the same in front of a part of what stands behind it. -/
theorem scanToken_of_isPrefix {regexAllowed : Bool} {c : Char} {s u : Text}
    (h : u <+: (scanToken regexAllowed c s).rest) :
    scanToken regexAllowed c ((scanToken regexAllowed c s).taken.tail ++ u) =
      (scanToken regexAllowed c s).onto u := by
  cases u with
  | nil => simpa using scanToken_tail_taken regexAllowed c s
  | cons d u =>
    obtain ⟨behind, hrest⟩ := h
    exact scanToken_taken (.inl (by simp [← hrest]))

/-! ### Lexemes -/

/-- A comment that starts in front of a part of a text starts in front of the text. -/
theorem startsComment_of_isPrefix {c : Char} {s u : Text} (h : u <+: s) (hu : startsComment c u) :
    startsComment c s := by
  obtain ⟨behind, rfl⟩ := h
  have hne : u ≠ [] := by
    rintro rfl
    simp [startsComment] at hu
  exact (startsComment_append hne behind).mpr hu

/-- The first token of a text is the same in front of a part of what stands behind it, and so is
whether a line ends in front of it. -/
theorem lexeme?_of_isPrefix {state : LexState} {s rest u : Text} {l : Lexeme}
    (h : lexeme? state s = some (l, rest)) (hu : u <+: rest) :
    lexeme? state (l.gap ++ (l.text ++ u)) = some (l, u) := by
  obtain ⟨c, tail, htext, hspacing, hcomment, crosses, htoken⟩ := exists_cons_of_lexeme? h
  obtain ⟨breaks, hgap⟩ := isTrivia_gap h
  -- the gap is read alike in front of the token, whatever stands behind it
  have hread : ∀ v, ¬startsComment c v → lexeme? state (l.gap ++ c :: v) =
      let token := scanToken state.regexAllowed c v
      some (⟨l.gap, token.taken, token.value.1, breaks || token.value.2⟩, token.rest) := by
    intro v hv
    rw [lexeme?, hgap, scanTrivia_cons hv, if_neg (by simp [hspacing])]
    simp
  have hwhole := hread (tail ++ rest) hcomment
  rw [htoken, ← List.cons_append, ← htext, ← List.append_assoc, lexeme?_gap_append_text h, h]
    at hwhole
  have hcut : ¬startsComment c (tail ++ u) :=
    mt (startsComment_of_isPrefix ((List.prefix_append_right_inj tail).mpr hu)) hcomment
  have hsame := @scanToken_of_isPrefix state.regexAllowed c (tail ++ rest) u (by rwa [htoken])
  rw [htoken, htext, List.tail_cons] at hsame
  rw [htext, List.cons_append, hread _ hcut, hsame]
  simpa [htext] using hwhole.symm

/-- The text up to the end of a lexeme has the **lexemes up to it**, and no others. -/
theorem lexemes_cut {state : LexState} {s : Text} {ls others : List Lexeme}
    (h : lexemes state s = ls ++ others) :
    lexemes state (ls.flatMap fun l => l.gap ++ l.text) = ls := by
  induction ls generalizing state s with
  | nil => exact lexemes_nil state
  | cons l ls ih =>
    rw [List.cons_append] at h
    obtain ⟨rest, hfirst, hlexemes, -⟩ := lexeme?_of_lexemes_cons h
    have hprefix : (ls.flatMap fun l => l.gap ++ l.text) <+: rest := by
      have hwhole := lexemes_flatten (state.next l.kind) rest
      rw [hlexemes, List.flatMap_append, List.append_assoc] at hwhole
      exact ⟨_, hwhole⟩
    have hcut := lexeme?_of_isPrefix hfirst hprefix
    rw [List.flatMap_cons, List.append_assoc, (lexemes_of_some hcut).1, ih hlexemes]

/-! ### Sources -/

/-- A line that is read by no one is the same in front of a part of what stands behind it. -/
theorem hashbang_of_isPrefix {s u : Text} (h : u <+: afterHashbang s) :
    hashbang (hashbang s ++ u) = hashbang s ∧ afterHashbang (hashbang s ++ u) = u := by
  have hafter : afterHashbang (hashbang s ++ u) = u := by
    rcases hashbang_cases s with hnone | ⟨⟨body, hbody, hline⟩, hfeed⟩
    · have hnone' : hashbang u = [] := by
        rw [afterHashbang_eq_self hnone] at h
        rw [hashbang_eq_nil_iff] at hnone ⊢
        exact mt (List.IsPrefix.trans · h) hnone
      rw [hnone, List.nil_append, afterHashbang_eq_self hnone']
    · rw [hbody, List.cons_append, List.cons_append]
      refine afterHashbang_of_line hline fun c hc => hfeed c ?_
      obtain ⟨behind, hbehind⟩ := h
      rw [← hbehind, List.head?_append, Option.mem_def.mp hc]
      rfl
  have hwhole := hashbang_append_afterHashbang (hashbang s ++ u)
  rw [hafter] at hwhole
  exact ⟨List.append_cancel_right hwhole, hafter⟩

/-- A token ends where the text of the lexemes up to it does. -/
theorem stop_of_getElem?_place {offset k : Nat} {ls : List Lexeme} {t : Token}
    (h : (Token.place offset ls)[k]? = some t) :
    t.stop = offset + Text.size ((ls.take (k + 1)).flatMap fun l => l.gap ++ l.text) := by
  induction ls generalizing offset k with
  | nil => simp [Token.place] at h
  | cons l ls ih =>
    rw [Token.place] at h
    cases k with
    | zero =>
      obtain rfl : _ = t := by simpa using h
      simp [Token.stop, Nat.add_assoc]
    | succ k =>
      have hstop := ih (by simpa using h)
      simp only [List.take_succ_cons, List.flatMap_cons, Text.size_append] at hstop ⊢
      omega

/-- The first of some lexemes have the places that they have among all of them. -/
theorem Token.place_take (offset n : Nat) (ls : List Lexeme) :
    Token.place offset (ls.take n) = (Token.place offset ls).take n := by
  induction ls generalizing offset n with
  | nil => simp [Token.place]
  | cons l ls ih => cases n <;> simp [Token.place, ih]

/-- **Tokens do not depend on later text.** A source can be cut off at the end of each of its
tokens, and what stands in front of the cut has the tokens of the source up to this one, with their
kinds, their places and the lines that end in front of them. -/
theorem tokenize_cut {s : Text} {k : Nat} (h : k < (tokenize s).length) :
    ∃ front behind, Text.cut? (tokenize s)[k].stop s = some (front, behind) ∧
      tokenize front = (tokenize s).take (k + 1) := by
  let ls := lexemes .initial (afterHashbang s)
  let written := (ls.take (k + 1)).flatMap fun l => l.gap ++ l.text
  obtain ⟨behind, hbehind⟩ : written <+: afterHashbang s := by
    have hwhole := lexemes_flatten .initial (afterHashbang s)
    rw [← List.take_append_drop (k + 1) (lexemes .initial (afterHashbang s)), List.flatMap_append,
      List.append_assoc] at hwhole
    exact ⟨_, hwhole⟩
  obtain ⟨hline, hafter⟩ := hashbang_of_isPrefix ⟨behind, hbehind⟩
  refine ⟨hashbang s ++ written, behind, ?_, ?_⟩
  · have hstop : (tokenize s)[k].stop = Text.size (hashbang s ++ written) := by
      rw [stop_of_getElem?_place (List.getElem?_eq_getElem h), Text.size_append]
    have hsplit : s = hashbang s ++ written ++ behind := by
      rw [List.append_assoc, hbehind, hashbang_append_afterHashbang]
    have hcut := Text.cut?_size (hashbang s ++ written) behind
    rwa [← hsplit, ← hstop] at hcut
  · have hcut : lexemes .initial written = ls.take (k + 1) :=
      lexemes_cut (List.take_append_drop (k + 1) ls).symm
    rw [tokenize, hline, hafter, hcut, Token.place_take]
    rfl

/-- A source with a line that is read by no one and with a regular expression that has flags. -/
def flaggedSource : Text := "#!n\né = /[/]\\//gi\n\x60a${1}\x60.c".toList

/-- Cut off behind the flags, it has the tokens up to them. -/
theorem tokenize_cut_of_flagged :
    2 < (tokenize flaggedSource).length ∧
      (tokenize flaggedSource).map (·.stop) = [6, 8, 18, 26, 27, 28] ∧
      tokenize "#!n\né = /[/]\\//gi".toList = (tokenize flaggedSource).take 3 := by
  have hread : tokenize flaggedSource =
      [⟨⟨['\n'], ['é'], .identifier "é", true⟩, 4⟩, ⟨⟨[' '], ['='], .punctuator '=', false⟩, 7⟩,
        ⟨⟨[' '], "/[/]\\//gi".toList, .regex, false⟩, 9⟩,
        ⟨⟨['\n'], "\x60a${1}\x60".toList, .template, true⟩, 19⟩,
        ⟨⟨[], ['.'], .punctuator '.', false⟩, 26⟩, ⟨⟨[], ['c'], .identifier "c", false⟩, 27⟩] := by
    rw [tokenize_eq_upTo]
    cbv
  have hlength : 2 < (tokenize flaggedSource).length := by
    rw [hread]
    decide
  obtain ⟨front, behind, hcut, hfront⟩ := tokenize_cut hlength
  have hstop : (tokenize flaggedSource)[2].stop = 18 := by
    rw [List.getElem_of_eq hread]
    rfl
  obtain rfl : front = "#!n\né = /[/]\\//gi".toList := by
    rw [hstop] at hcut
    have hgiven : Text.cut? 18 flaggedSource =
        some ("#!n\né = /[/]\\//gi".toList, "\n\x60a${1}\x60.c".toList) := by decide
    exact (Prod.mk.inj (Option.some.inj (hcut.symm.trans hgiven))).1
  refine ⟨hlength, ?_, hfront⟩
  rw [hread]
  decide

end ScriptBundle
