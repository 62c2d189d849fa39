import ScriptBundle.Proofs.Document.Reading
import ScriptBundle.Proofs.Token.Boundary
import ScriptBundle.Proofs.Token.Facing

/-!
# Written Tokens

How names, strings and marks are written, and that the lexer reads back what was written. A string
of any characters can be quoted. A name is kept apart from the token in front of it by a space, all
other tokens may follow each other at once.

## Main definitions

* `isWord`: whether a string is a name for the lexer;
* `Quote.literal`: a string between quotes;
* `Lexeme.word`, `Lexeme.literal`, `Lexeme.mark`: written tokens;
* `Lexeme.IsApart`: whether a written token is kept apart from what is in front of it;
* `IsWrittenLine`: a line that starts with a name.

## Main statements

* `scanString_escape`: a quoted string stands for itself;
* `isWord_iff`: the names for the lexer;
* `reads_writeLexemes`: written tokens are read back;
* `kinds_joinLines`: the tokens of written lines.
-/

namespace ScriptBundle

/-! ### Words -/

/-- Whether a string is a name for the lexer, be it a keyword or not. -/
def isWord (name : String) : Bool :=
  match name.toList with
  | [] => false
  | c :: rest => isIdentifierStart c && rest.all isIdentifierPart

/-- A character of a name is no white space. -/
theorem isSpacing_of_part {c : Char} (h : isIdentifierPart c = true) : isSpacing c = false := by
  rw [← Bool.not_eq_true]
  intro hspacing
  simp only [isSpacing, isLineEnd, Bool.or_eq_true, beq_iff_eq] at hspacing
  rcases hspacing with (((rfl | rfl) | rfl) | hblank) | rfl
  · exact absurd h (by decide)
  · exact absurd h (by decide)
  · exact absurd h (by decide)
  · simp [(isBlank_not_part hblank).1] at h
  · exact absurd h (by decide)

/-- A character of a name starts no comment. -/
theorem not_startsComment_of_part {c : Char} (h : isIdentifierPart c = true) (rest : Text) :
    ¬startsComment c rest := by
  rintro ⟨rfl, -⟩
  exact absurd h (by decide)

/-! ### Strings -/

/-- The **quotes** that a string may be written between. -/
inductive Quote where
  | single
  | double
  deriving DecidableEq, Repr

namespace Quote

/-- The character of a quote. -/
def char : Quote → Char
  | single => '\''
  | double => '"'

/-- How a character of a string is written between quotes. -/
def escape (quote : Quote) (c : Char) : Text :=
  if c = '\n' then ['\\', 'n']
  else if c = '\\' ∨ c = quote.char then ['\\', c]
  else [c]

/-- A string between quotes. -/
def literal (quote : Quote) (value : String) : Text :=
  quote.char :: (value.toList.flatMap quote.escape ++ [quote.char])

theorem char_eq (quote : Quote) : quote.char = '\'' ∨ quote.char = '"' := by
  cases quote <;> simp [char]

end Quote

/-- A quoted string stands for itself. -/
theorem scanString_escape (quote : Quote) (value rest : Text) :
    scanString quote.char (value.flatMap quote.escape ++ quote.char :: rest) =
      ⟨some value, value.flatMap quote.escape ++ [quote.char], rest⟩ := by
  have hquote : quote.char ≠ '\\' ∧ quote.char ≠ '\n' := by cases quote <;> decide
  induction value with
  | nil => simp [scanString_cons hquote.1, hquote.2]
  | cons c value ih =>
    rw [List.flatMap_cons, List.append_assoc, Quote.escape]
    split
    · next hfeed =>
      subst hfeed
      simp [scanString, ih, escapedText, Scan.map, Scan.after]
    · next hfeed =>
      split
      · next hspecial =>
        have hitself : escapedText c = [c] := by
          rcases hspecial with rfl | rfl
          · decide
          · cases quote <;> decide
        simp [scanString, ih, hitself, Scan.map, Scan.after]
      · next hplain =>
        obtain ⟨hback, hend⟩ := not_or.mp hplain
        simp [scanString_cons hback, hfeed, hend, ih, Scan.map, Scan.after]

/-! ### Tokens -/

namespace Lexeme

/-- A name behind a gap. -/
def word (gap : Text) (name : String) : Lexeme := ⟨gap, name.toList, .identifier name, false⟩

/-- A quoted string behind a gap. -/
def literal (gap : Text) (quote : Quote) (value : String) : Lexeme :=
  ⟨gap, quote.literal value, .string value, false⟩

/-- A character by itself behind a gap. -/
def mark (gap : Text) (c : Char) : Lexeme := ⟨gap, [c], .punctuator c, false⟩

end Lexeme

/-- The characters that are tokens by themselves wherever they stand outside of strings. -/
def marks : List Char := ['{', '}', '[', ']', ',', ':', ';', '*', '=']

/-- Whether a written token is kept **apart** from what is in front of it. -/
inductive Lexeme.IsApart : Lexeme → Prop
  | word {gap : Text} (hgap : IsBlankText gap) (hne : gap ≠ []) {name : String}
      (h : isWord name = true) : (Lexeme.word gap name).IsApart
  | literal {gap : Text} (hgap : IsBlankText gap) (quote : Quote) (value : String) :
      (Lexeme.literal gap quote value).IsApart
  | mark {gap : Text} (hgap : IsBlankText gap) {c : Char} (h : c ∈ marks) :
      (Lexeme.mark gap c).IsApart

theorem isBlankText_nil : IsBlankText [] := by simp [IsBlankText]

theorem isBlankText_space : IsBlankText [' '] := by
  intro c hc
  obtain rfl := List.mem_singleton.mp hc
  decide

/-- A name behind a space is kept apart. -/
theorem Lexeme.IsApart.spaced {name : String} (h : isWord name = true) :
    (Lexeme.word [' '] name).IsApart :=
  .word isBlankText_space (by simp) h

/-- A name is read up to what is no part of it. -/
theorem lexeme?_word {name : String} (h : isWord name = true) {rest : Text}
    (hrest : ∀ c ∈ rest.head?, isIdentifierPart c = false) (state : LexState) :
    lexeme? state (name.toList ++ rest) = some (.word [] name, rest) := by
  rw [isWord] at h
  split at h
  · simp at h
  · next c tail hname =>
    obtain ⟨hstart, htail⟩ := Bool.and_eq_true_iff.mp h
    have hpart := isIdentifierPart_of_start hstart
    have htake : rest.takeWhile isIdentifierPart = [] ∧ rest.dropWhile isIdentifierPart = rest := by
      cases rest with
      | nil => exact ⟨rfl, rfl⟩
      | cons d rest => simp [hrest d rfl]
    have hall : ∀ d ∈ tail, isIdentifierPart d = true := List.all_eq_true.mp htail
    rw [hname, List.cons_append, lexeme?_of_start (isSpacing_of_part hpart)
      (not_startsComment_of_part hpart _), scanToken_identifier hstart,
      List.takeWhile_append_of_pos hall, List.dropWhile_append_of_pos hall, htake.1, htake.2,
      List.append_nil, ← hname, String.ofList_toList]
    rfl

/-- A quoted string is read as the string. -/
theorem lexeme?_literal (quote : Quote) (value : String) (rest : Text) (state : LexState) :
    lexeme? state (quote.literal value ++ rest) = some (.literal [] quote value, rest) := by
  have hspacing : isSpacing quote.char = false := by cases quote <;> decide
  have hcomment : ∀ s, ¬startsComment quote.char s := fun s hstart =>
    absurd hstart.1 (by cases quote <;> decide)
  rw [Quote.literal, List.cons_append, lexeme?_of_start hspacing (hcomment _),
    scanToken_quote quote.char_eq, List.append_assoc, List.singleton_append, scanString_escape]
  simp [Lexeme.literal, Quote.literal, Scan.map, Scan.after]

/-- A mark is read as such. -/
theorem lexeme?_mark {c : Char} (h : c ∈ marks) (rest : Text) (state : LexState) :
    lexeme? state (c :: rest) = some (.mark [] c, rest) := by
  have hmarks : marks.all (fun d => !isIdentifierStart d && !d.isDigit && d != '\'' && d != '"' &&
      d != '\x60' && d != '/' && !isSpacing d) = true := by decide
  have hother := List.all_eq_true.mp hmarks c h
  simp only [Bool.and_eq_true, Bool.not_eq_true', bne_iff_ne] at hother
  obtain ⟨⟨⟨⟨⟨⟨hstart, hdigit⟩, hsingle⟩, hdouble⟩, htick⟩, hslash⟩, hspacing⟩ := hother
  rw [lexeme?_of_start hspacing (not_startsComment_of_ne hslash),
    scanToken_other hstart hdigit (not_or.mpr ⟨hsingle, hdouble⟩) htick
      fun heq => absurd heq hslash]
  rfl

/-- A text that starts with a name starts with no line that is read by no one. -/
theorem afterHashbang_word {name : String} (h : isWord name = true) (rest : Text) :
    afterHashbang (name.toList ++ rest) = name.toList ++ rest := by
  rw [isWord] at h
  split at h
  · simp at h
  · next c tail hname =>
    have hmark : c ≠ '#' := by
      rintro rfl
      exact absurd (Bool.and_eq_true_iff.mp h).1 (by decide)
    rw [hname, List.cons_append, afterHashbang]
    intro others heq
    simp [hmark] at heq

/-- The names for the lexer are the strings of which it makes one token, a name. -/
theorem isWord_iff {name : String} :
    isWord name = true ↔ (tokenize name.toList).map (·.kind) = [.identifier name] := by
  rw [tokenize_map Lexeme.kind]
  constructor
  · intro h
    have hafter := afterHashbang_word h []
    have hfirst : lexeme? .initial (name.toList ++ []) = some (.word [] name, []) :=
      lexeme?_word h (by simp) .initial
    rw [List.append_nil] at hafter hfirst
    rw [hafter, (lexemes_of_some hfirst).1, lexemes_nil]
    rfl
  · intro h
    obtain ⟨l, hlexemes, hkind⟩ := List.map_eq_singleton_iff.mp h
    obtain ⟨rest, hfirst, -⟩ := lexeme?_of_lexemes_cons hlexemes
    obtain ⟨c, tail, -, hname, hstart, htail⟩ := exists_of_identifier hfirst hkind
    rw [isWord, hname]
    exact Bool.and_eq_true_iff.mpr ⟨hstart, List.all_eq_true.mpr htail⟩

/-! ### Lines of tokens -/

/-- A token in front of others is read first. -/
theorem Reads.cons {state : LexState} {s rest : Text} {l : Lexeme}
    {xs : List (TokenKind × Option Text)} (h : lexeme? state s = some (l, rest))
    (hkind : l.kind ≠ .unterminated) (hrest : Reads (state.next l.kind) rest xs) :
    Reads state s (l.content :: xs) := by
  obtain ⟨hlexemes, htrailing⟩ := lexemes_of_some h
  refine ⟨⟨?_, htrailing ▸ hrest.ends.comments⟩, ?_⟩
  · rw [hlexemes]
    exact List.forall_mem_cons.mpr ⟨hkind, hrest.ends.literals⟩
  · rw [hlexemes, List.map_cons, hrest.contents]

/-- A token behind a gap of white space is read first. -/
theorem Reads.written {state : LexState} {rest : Text} {l : Lexeme}
    {xs : List (TokenKind × Option Text)} (hgap : IsBlankText l.gap)
    (h : lexeme? state (l.text ++ rest) = some ({ l with gap := [] }, rest))
    (hkind : l.kind ≠ .unterminated) (hrest : Reads (state.next l.kind) rest xs) :
    Reads state (l.gap ++ (l.text ++ rest)) (l.content :: xs) :=
  .of_blank hgap (.cons (l := { l with gap := [] }) h hkind hrest)

theorem writeLexemes_cons (l : Lexeme) (ls : List Lexeme) :
    writeLexemes (l :: ls) = l.gap ++ (l.text ++ writeLexemes ls) := by
  rw [writeLexemes, List.flatMap_cons, List.append_assoc]
  rfl

/-- A token that is kept apart does not go on with a name. -/
theorem Lexeme.IsApart.head? {l : Lexeme} (h : l.IsApart) (rest : Text) :
    ∀ c ∈ (l.gap ++ (l.text ++ rest)).head?, isIdentifierPart c = false := by
  have hblank : ∀ {gap s : Text}, IsBlankText gap → gap ≠ [] →
      ∀ c ∈ (gap ++ s).head?, isIdentifierPart c = false := by
    intro gap s hgap hne c hc
    obtain ⟨d, others, rfl⟩ := List.exists_cons_of_ne_nil hne
    obtain rfl : d = c := by simpa using hc
    exact (isBlank_not_part (hgap d List.mem_cons_self)).1
  cases h with
  | word hgap hne => exact hblank hgap hne
  | @literal gap hgap quote value =>
    by_cases hne : gap = []
    · subst hne
      intro c hc
      obtain rfl : quote.char = c := by simpa [Lexeme.literal, Quote.literal] using hc
      cases quote <;> decide
    · exact hblank hgap hne
  | @mark gap hgap c hmark =>
    by_cases hne : gap = []
    · subst hne
      intro d hd
      obtain rfl : c = d := by simpa [Lexeme.mark] using hd
      have hmarks : marks.all (!isIdentifierPart ·) = true := by decide
      simpa using List.all_eq_true.mp hmarks c hmark
    · exact hblank hgap hne

/-- Parts of tokens that are kept apart can be written with commas between them. -/
theorem isApart_commaSeparated {parts : List (List Lexeme)}
    (h : ∀ part ∈ parts, ∀ l ∈ part, l.IsApart) (trailing : Bool) :
    ∀ l ∈ commaSeparated (Lexeme.mark [] ',') trailing parts, l.IsApart :=
  forall_mem_commaSeparated (.mark isBlankText_nil (by decide)) trailing h

/-- A name is read in front of tokens that are kept apart. -/
theorem lexeme?_word_writeLexemes {name : String} (h : isWord name = true) {ls : List Lexeme}
    (hls : ∀ l ∈ ls, l.IsApart) (state : LexState) :
    lexeme? state (name.toList ++ writeLexemes ls) = some (.word [] name, writeLexemes ls) := by
  refine lexeme?_word h ?_ state
  cases ls with
  | nil => simp [writeLexemes]
  | cons next ls =>
    rw [writeLexemes_cons]
    exact (hls next List.mem_cons_self).head? _

/-- Tokens that are kept apart are read back. -/
theorem reads_writeLexemes {ls : List Lexeme} (h : ∀ l ∈ ls, l.IsApart) (state : LexState) :
    Reads state (writeLexemes ls) (ls.map Lexeme.content) := by
  induction ls generalizing state with
  | nil => exact Reads.nil state
  | cons l ls ih =>
    obtain ⟨hl, hls⟩ := List.forall_mem_cons.mp h
    have hrest := ih hls (state.next l.kind)
    rw [writeLexemes_cons, List.map_cons]
    cases hl with
    | word hgap _ hname =>
      exact .written hgap (lexeme?_word_writeLexemes hname hls state) (by simp [Lexeme.word]) hrest
    | literal hgap quote value =>
      exact .written hgap (lexeme?_literal quote value _ state) (by simp [Lexeme.literal]) hrest
    | mark hgap hmark =>
      exact .written hgap (lexeme?_mark hmark _ state) (by simp [Lexeme.mark]) hrest

/-- A **written line** starts with a name, and all other tokens are kept apart. -/
inductive IsWrittenLine : List Lexeme → Prop
  | mk {name : String} (h : isWord name = true) {ls : List Lexeme} (hls : ∀ l ∈ ls, l.IsApart) :
      IsWrittenLine (.word [] name :: ls)

/-- No characters but marks are tokens of a written line by themselves. -/
theorem IsWrittenLine.mem_marks {line : List Lexeme} (h : IsWrittenLine line) {l : Lexeme}
    (hl : l ∈ line) {c : Char} (hkind : l.kind = .punctuator c) : c ∈ marks := by
  cases h with
  | mk hname hls =>
    rcases List.mem_cons.mp hl with rfl | hl
    · cases hkind
    · cases hls l hl with
      | mark hgap hmark =>
        obtain rfl := TokenKind.punctuator.inj hkind
        exact hmark
      | word => cases hkind
      | literal => cases hkind

/-- A written line is read back. -/
theorem IsWrittenLine.reads {line : List Lexeme} (h : IsWrittenLine line) (state : LexState) :
    Reads state (writeLexemes line) (line.map Lexeme.content) := by
  cases h with
  | mk hname hls =>
    rw [writeLexemes_cons, List.map_cons]
    exact .written isBlankText_nil (lexeme?_word_writeLexemes hname hls state)
      (by simp [Lexeme.word]) (reads_writeLexemes hls _)

/-- Written lines are read back, one behind the other. -/
theorem readsLines_written {lines : List (List Lexeme)} (h : ∀ line ∈ lines, IsWrittenLine line)
    (state : LexState) :
    ∃ stop, ReadsLines state (lines.map writeLexemes) (lines.flatten.map Lexeme.content) stop := by
  induction lines generalizing state with
  | nil => exact ⟨state, .nil state⟩
  | cons line lines ih =>
    obtain ⟨hline, hlines⟩ := List.forall_mem_cons.mp h
    obtain ⟨stop, hstop⟩ :=
      ih hlines (state.behind ((line.map Lexeme.content).map Prod.fst))
    rw [List.map_cons, List.flatten_cons, List.map_append]
    exact ⟨stop, .cons (hline.reads state) hstop⟩

/-- Written lines hold the tokens that were written. -/
theorem kinds_joinLines {lines : List (List Lexeme)} (h : ∀ line ∈ lines, IsWrittenLine line) :
    (tokenize (Text.joinLines (lines.map writeLexemes))).map (·.kind) =
      lines.flatten.map Lexeme.kind := by
  obtain ⟨stop, hreads⟩ := readsLines_written h .initial
  have hafter : afterHashbang (Text.joinLines (lines.map writeLexemes)) =
      Text.joinLines (lines.map writeLexemes) := by
    cases lines with
    | nil => rfl
    | cons line lines =>
      cases h line List.mem_cons_self with
      | mk hname hls =>
        rw [List.map_cons, joinLines_cons, writeLexemes_cons, List.append_assoc, List.append_assoc]
        exact afterHashbang_word hname _
  have hkinds := hreads.joinLines.kinds
  rw [List.map_map] at hkinds
  rw [tokenize_map Lexeme.kind, hafter, hkinds]
  rfl

/-- A written line holds the tokens that were written. -/
theorem kinds_writeLexemes {line : List Lexeme} (h : IsWrittenLine line) :
    (tokenize (writeLexemes line)).map (·.kind) = line.map Lexeme.kind := by
  simpa [Text.joinLines] using kinds_joinLines (List.forall_mem_singleton.mpr h)

end ScriptBundle
