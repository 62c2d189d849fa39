import ScriptBundle.Proofs.Module.Remaining
import ScriptBundle.Proofs.Token.Open
import ScriptBundle.Proofs.Token.Trailing

/-!
# Where Tokens Start

A token starts at the end of its gap. If a text ends cleanly, then the first token of the next line
starts where it would start if that line were alone. If a token starts behind white space on a line
of its own, then the text in front of that line ends cleanly: whatever was open there would go on
over the white space.

## Main definitions

* `StartsAt`: whether a token of a text starts at an offset.

## Main statements

* `startsAt_of_endsCleanly`: behind a text that ends cleanly the first token of the next line
  starts;
* `endsCleanly_of_startsAt`: in front of white space and a token nothing is open.
-/

namespace ScriptBundle

/-! ### First tokens -/

/-- A token is found behind trivia if these do not take the whole text. -/
theorem exists_lexeme?_iff {state : LexState} {s gap : Text} :
    (∃ l rest, lexeme? state s = some (l, rest) ∧ l.gap = gap) ↔
      (scanTrivia s).rest ≠ [] ∧ (scanTrivia s).taken = gap := by
  rw [lexeme?]
  cases (scanTrivia s).rest with
  | nil => simp
  | cons c tail => simp [eq_comm]

/-- The first token of a text stands where it is if a new line follows the text. -/
theorem exists_lexeme?_append {state : LexState} {s rest : Text} {l : Lexeme}
    (h : lexeme? state s = some (l, rest)) (u : Text) :
    ∃ m rest', lexeme? state (s ++ '\n' :: u) = some (m, rest') ∧ m.gap = l.gap := by
  obtain ⟨hrest, hgap⟩ := exists_lexeme?_iff.mp ⟨l, rest, h, rfl⟩
  refine exists_lexeme?_iff.mpr ?_
  rw [scanTrivia_append hrest, ← hgap]
  simp

/-! ### Places of tokens -/

/-- Whether a token of a text **starts at** an offset. -/
def StartsAt (s : Text) (offset : Nat) : Prop := ∃ t ∈ tokenize s, t.start = offset

/-- The text of lexemes, with the trivia in front of each. -/
def writeLexemes (ls : List Lexeme) : Text := ls.flatMap fun l => l.gap ++ l.text

/-- A token is placed behind those in front of it and its gap. -/
theorem mem_place_iff {offset : Nat} {ls : List Lexeme} {t : Token} :
    t ∈ Token.place offset ls ↔ ∃ front behind, ls = front ++ t.toLexeme :: behind ∧
      t.start = offset + Text.size (writeLexemes front ++ t.gap) := by
  induction ls generalizing offset with
  | nil => simp [Token.place]
  | cons l ls ih =>
    rw [Token.place, List.mem_cons, ih]
    constructor
    · rintro (rfl | ⟨front, behind, rfl, hstart⟩)
      · exact ⟨[], ls, rfl, by simp [writeLexemes]⟩
      · refine ⟨l :: front, behind, rfl, ?_⟩
        rw [hstart]
        simp only [writeLexemes, List.flatMap_cons, Text.size_append]
        omega
    · rintro ⟨front, behind, hls, hstart⟩
      cases front with
      | nil =>
        obtain ⟨rfl, rfl⟩ : l = t.toLexeme ∧ ls = behind := by simpa using hls
        left
        have hsame : t.start = offset + Text.size t.gap := by simpa [writeLexemes] using hstart
        rw [← hsame]
      | cons first front =>
        obtain ⟨rfl, rfl⟩ : l = first ∧ ls = front ++ t.toLexeme :: behind := by simpa using hls
        refine .inr ⟨front, behind, rfl, ?_⟩
        rw [hstart]
        simp only [writeLexemes, List.flatMap_cons, Text.size_append]
        omega

/-- A token starts at an offset if that is where its gap ends. -/
theorem startsAt_iff {s : Text} (h : hashbang s = []) {offset : Nat} :
    StartsAt s offset ↔ ∃ front l behind, lexemes .initial s = front ++ l :: behind ∧
      offset = Text.size (writeLexemes front ++ l.gap) := by
  simp only [StartsAt, tokenize_of_hashbang h, mem_place_iff, Nat.zero_add]
  constructor
  · rintro ⟨t, ⟨front, behind, hls, hstart⟩, rfl⟩
    exact ⟨front, t.toLexeme, behind, hls, hstart⟩
  · rintro ⟨front, l, behind, hls, hoffset⟩
    exact ⟨⟨l, offset⟩, ⟨front, behind, hls, hoffset⟩, rfl⟩

/-- Behind a text that ends cleanly and a line feed, the first token of the next line starts. -/
theorem startsAt_of_endsCleanly {s u rest : Text} {l : Lexeme}
    (hhashbang : hashbang (s ++ '\n' :: u) = []) (h : EndsCleanly .initial s)
    (hfirst : lexeme? (LexState.initial.behind ((lexemes .initial s).map Lexeme.kind)) u =
      some (l, rest)) : StartsAt (s ++ '\n' :: u) (Text.size s + 1 + Text.size l.gap) := by
  rw [startsAt_iff hhashbang, lexemes_append h, (lexemes_of_some hfirst).1]
  refine ⟨lexemes .initial s, _, _, rfl, ?_⟩
  have hsize := congrArg Text.size (lexemes_flatten .initial s)
  rw [Text.size_append] at hsize
  rw [writeLexemes, Text.size_append, Text.size_append, Text.size_cons, utf8Size_lineFeed, ← hsize]
  omega

/-! ### What is open in front of a token -/

/-- A token that is closed is still closed if something else follows its characters. -/
theorem scanToken_closed_of_taken {regexAllowed : Bool} {c : Char} {s : Text}
    (hclosed : (scanToken regexAllowed c s).value.1 ≠ .unterminated) (u : Text) :
    (scanToken regexAllowed c ((scanToken regexAllowed c s).taken.tail ++ u)).value.1 ≠
      .unterminated := by
  cases tokenStart regexAllowed c with
  | identifier hname => simp [scanToken_identifier hname]
  | number hname hdigit => simp [scanToken_number hname hdigit]
  | quote hquote =>
    rw [scanToken_quote hquote] at hclosed ⊢
    have hvalue : (scanString c s).value ≠ none := fun hnone => by simp [hnone] at hclosed
    rw [scanToken_quote hquote]
    simpa [scanString_taken (.inl hvalue)] using hclosed
  | backquote htick =>
    subst htick
    rw [scanToken_backquote] at hclosed ⊢
    have hvalue : (scanTemplate (.text []) s).value.closed = true := by
      cases hopen : (scanTemplate (.text []) s).value.closed with
      | true => rfl
      | false => simp [hopen] at hclosed
    rw [scanToken_backquote]
    simp [scanTemplate_taken hvalue, hvalue]
  | regex hslash hallowed =>
    subst hslash hallowed
    rw [scanToken_slash] at hclosed ⊢
    cases hvalue : (scanRegexBody false s).value with
    | false => simp [scanRegex, hvalue] at hclosed
    | true =>
      rw [scanToken_slash]
      simp [scanRegex, hvalue, scanRegexBody_taken (.inl hvalue)]
  | other hname hdigit hquote htick hslash =>
    simp [scanToken_other hname hdigit hquote htick hslash]

/-- A token that is closed in front of a line feed is found at the end of a text as well. -/
theorem lexeme?_of_append {state : LexState} {s u rest : Text} {l : Lexeme}
    (h : lexeme? state (l.gap ++ (l.text ++ s) ++ '\n' :: u) = some (l, rest))
    (hclosed : l.kind ≠ .unterminated) : lexeme? state (l.gap ++ (l.text ++ s)) = some (l, s) := by
  obtain ⟨c, tail, htext, hspacing, hcomment, crosses, htoken⟩ := exists_cons_of_lexeme? h
  have hrest : rest = s ++ '\n' :: u := by
    have hwhole := lexeme?_gap_append_text h
    simpa using hwhole
  have hnone : ¬startsComment c (tail ++ s) := by
    rw [hrest, ← List.append_assoc] at hcomment
    exact mt (startsComment_append_lineFeed u).mpr hcomment
  have hopen : (scanToken state.regexAllowed c (tail ++ s)).value.1 ≠ .unterminated := by
    have hkept := scanToken_closed_of_taken (s := tail ++ rest) (by rw [htoken]; exact hclosed) s
    rw [htoken, htext] at hkept
    exact hkept
  obtain ⟨m, behind, hm, hmclosed⟩ : ∃ m behind,
      lexeme? state (l.gap ++ c :: (tail ++ s)) = some (m, behind) ∧ m.kind ≠ .unterminated := by
    obtain ⟨_, hfound⟩ := lexeme?_trivia (isTrivia_gap h) state (c :: (tail ++ s))
    rw [lexeme?_of_start hspacing hnone] at hfound
    exact ⟨_, _, hfound, hopen⟩
  rw [htext, List.cons_append] at h ⊢
  rw [lexeme?_append hm hmclosed u, Option.some.injEq, Prod.mk.injEq, hrest] at h
  obtain ⟨rfl, hsame⟩ := h
  rw [hm, List.append_cancel_right hsame]

/-- What ends with a visible character does not reach into white space at the end. -/
theorem exists_of_append_blank {u x s b : Text} {d : Char} (hlast : u.getLast? = some d)
    (hd : isBlank d = false) (hb : IsBlankText b) (h : u ++ x = s ++ b) :
    ∃ s', s = u ++ s' ∧ x = s' ++ b := by
  rcases List.append_eq_append_iff.mp h with h | ⟨inside, hu, hinside⟩
  · exact h
  · have hnone : inside = [] := by
      refine List.getLast?_eq_none_iff.mp ?_
      cases hinsideLast : inside.getLast? with
      | none => rfl
      | some e =>
        obtain rfl : e = d := by simpa [hu, List.getLast?_append, hinsideLast] using hlast
        have he := hb e (by
          rw [hinside]
          exact List.mem_append_left _ (List.mem_of_getLast? hinsideLast))
        simp [he] at hd
    rw [hnone] at hu hinside
    exact ⟨[], by simpa using hu.symm, by simpa using hinside.symm⟩

/-- A token that is closed ends with a character that is no white space. -/
theorem exists_getLast?_text {state : LexState} {s rest : Text} {l : Lexeme}
    (h : lexeme? state s = some (l, rest)) (hclosed : l.kind ≠ .unterminated) :
    ∃ d, l.text.getLast? = some d ∧ isBlank d = false := by
  obtain ⟨c, tail, -, hspacing, -, crosses, htoken⟩ := exists_cons_of_lexeme? h
  have hscan : (scanToken state.regexAllowed c (tail ++ rest)).value.1 ≠ .unterminated := by
    rw [htoken]
    exact hclosed
  have hlast := exists_getLast?_scanToken hspacing hscan
  rwa [htoken] at hlast

/-- Text that is in the gap of a token, and white space on a new line behind it, leaves nothing
open. -/
theorem endsCleanly_of_gap {l : Lexeme} {rest : Text} {state : LexState} {s b w : Text}
    (hb : IsBlankText b) (hfirst : lexeme? state (s ++ '\n' :: (b ++ w)) = some (l, rest))
    (hgap : l.gap = s ++ '\n' :: b) : EndsCleanly state s := by
  have hnone : lexeme? state s = none := by
    cases hs : lexeme? state s with
    | none => rfl
    | some found =>
      -- Such a token would be the first one of the whole text, too, and its gap is a part of `s`.
      exfalso
      obtain ⟨m, _, hm, hmgap⟩ := exists_lexeme?_append hs (b ++ w)
      obtain rfl : m = l := by simpa [hm] using congrArg (Option.map Prod.fst) hfirst
      have hlength := congrArg List.length (lexeme?_gap_append_text hs)
      rw [← hmgap, hgap] at hlength
      simp at hlength
  obtain ⟨hnil, htrailing⟩ := lexemes_of_none hnone
  refine ⟨by simp [hnil], ?_⟩
  rw [htrailing, ← Bool.not_eq_true]
  intro hopen
  -- A comment that is open would take a semicolon behind the gap along, and the gap does not.
  obtain ⟨crosses, htrivia⟩ := isTrivia_gap hfirst
  have hslash : '/' ∉ b ++ [';'] := by
    intro hmem
    rcases List.mem_append.mp hmem with hmem | hmem
    · exact absurd (hb _ hmem) (by decide)
    · simp at hmem
  have hrest := scanTrivia_open hslash (scanTrivia_rest_of_none hnone) hopen
  have hsemicolon : (scanTrivia [';']).rest = [';'] := by
    rw [scanTrivia_cons (not_startsComment_of_ne (by decide)), if_neg (by decide)]
  have hbehind := congrArg Scan.rest (htrivia [';'])
  rw [hgap, List.append_assoc, List.cons_append, hrest, hsemicolon] at hbehind
  simp at hbehind

/-- In front of white space and a token nothing is open. -/
theorem endsCleanly_of_lexemes {ls others : List Lexeme} {l : Lexeme} {state : LexState}
    {s b w : Text} (hb : IsBlankText b) (hclosed : ∀ m ∈ ls, m.kind ≠ .unterminated)
    (hlexemes : lexemes state (s ++ '\n' :: (b ++ w)) = ls ++ l :: others)
    (hplace : writeLexemes ls ++ l.gap = s ++ '\n' :: b) : EndsCleanly state s := by
  induction ls generalizing state s with
  | nil =>
    obtain ⟨_, hfirst, -⟩ := lexeme?_of_lexemes_cons hlexemes
    exact endsCleanly_of_gap hb hfirst (by simpa [writeLexemes] using hplace)
  | cons first ls ih =>
    obtain ⟨hfirstClosed, hclosed⟩ := List.forall_mem_cons.mp hclosed
    obtain ⟨rest, hfirst, hothers, -⟩ := lexeme?_of_lexemes_cons hlexemes
    have hwhole := lexeme?_gap_append_text hfirst
    obtain ⟨s', hs', hrest'⟩ : ∃ s', s = first.gap ++ (first.text ++ s') ∧
        writeLexemes ls ++ l.gap = s' ++ '\n' :: b := by
      obtain ⟨d, hlast, hd⟩ := exists_getLast?_text hfirst hfirstClosed
      have hfeed : IsBlankText ('\n' :: b) := List.forall_mem_cons.mpr ⟨by decide, hb⟩
      have hsplit : first.gap ++ first.text ++ (writeLexemes ls ++ l.gap) = s ++ '\n' :: b := by
        rw [← hplace]
        simp [writeLexemes]
      obtain ⟨s', rfl, hbehind⟩ := exists_of_append_blank
        (by rw [List.getLast?_append, hlast, Option.some_or]) hd hfeed hsplit
      exact ⟨s', List.append_assoc .., hbehind⟩
    have hrest : rest = s' ++ '\n' :: (b ++ w) := by
      rw [hs'] at hwhole
      simpa using hwhole
    rw [hs'] at hfirst
    have hs := lexeme?_of_append hfirst hfirstClosed
    rw [← hs'] at hs
    have hends := ih hclosed (hrest ▸ hothers) hrest'
    refine ⟨?_, by rw [(lexemes_of_some hs).2, hends.comments]⟩
    rw [(lexemes_of_some hs).1]
    exact List.forall_mem_cons.mpr ⟨hfirstClosed, hends.literals⟩

/-- A text is cut at an offset in one way. -/
theorem eq_of_append_eq {s t s' t' : Text} (h : s ++ t = s' ++ t')
    (hsize : Text.size s = Text.size s') : s = s' ∧ t = t' := by
  have hcut := Text.cut?_size s t
  rw [h, hsize, Text.cut?_size] at hcut
  simpa [eq_comm] using hcut

/-- If a token starts behind white space on a new line, then nothing is open in front of it. -/
theorem endsCleanly_of_startsAt {s b w : Text} (hhashbang : hashbang (s ++ '\n' :: (b ++ w)) = [])
    (hclosed : ∀ l ∈ lexemes .initial (s ++ '\n' :: (b ++ w)), l.kind ≠ .unterminated)
    (hb : IsBlankText b)
    (h : StartsAt (s ++ '\n' :: (b ++ w)) (Text.size s + 1 + Text.size b)) :
    EndsCleanly .initial s := by
  obtain ⟨front, l, behind, hlexemes, hoffset⟩ := (startsAt_iff hhashbang).mp h
  rw [hlexemes] at hclosed
  refine endsCleanly_of_lexemes hb (fun m hm => hclosed m (List.mem_append_left _ hm)) hlexemes ?_
  have hwhole := lexemes_flatten .initial (s ++ '\n' :: (b ++ w))
  rw [hlexemes, List.flatMap_append, List.flatMap_cons] at hwhole
  have hsplit : writeLexemes front ++ l.gap ++ (l.text ++ (writeLexemes behind ++
      trailingTrivia .initial (s ++ '\n' :: (b ++ w)))) = s ++ '\n' :: b ++ w := by
    simpa [writeLexemes] using hwhole
  refine (eq_of_append_eq hsplit ?_).1
  rw [← hoffset, Text.size_append, Text.size_cons, utf8Size_lineFeed, Nat.add_assoc]

end ScriptBundle
