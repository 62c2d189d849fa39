import ScriptBundle.Proofs.Token.Bounded
import ScriptBundle.Proofs.Token.LineEnds
import ScriptBundle.Proofs.Token.Relexing

/-!
# Code in Substitutions

The lexer reads the tokens of a script. The scanner of a template reads the code of a substitution
once more, with no other aim than to find its end: it counts braces and steps over strings, comments
and templates, and it knows no regular expressions. Both come to the end of each token of the code
at the same place, except that the scanner reads a regular expression as if it were other code.

## Main definitions

* `IsPlainCode`: whether a character is taken as such wherever it stands in code;
* `PassesAsCode`: whether the scanner comes to the end of a text as it comes to that of other code;
* `substituted`: a template with nothing but one substitution.

## Main statements

* `walk_trivia`, `walk_token`, `walk_lexeme`: the scanner takes what stands between tokens, a token,
  and both;
* `walk_lexemes`: it takes all tokens of a text, braces being counted;
* `tokenize_substituted`: code in a substitution is one token with its template.
-/

namespace ScriptBundle

open Relation (ReflTransGen)

/-! ### Characters -/

/-- Whether the scanner of a template takes a character as such wherever it stands in code. -/
def IsPlainCode (c : Char) : Prop :=
  c ≠ '\'' ∧ c ≠ '"' ∧ c ≠ '\x60' ∧ c ≠ '/' ∧ c ≠ '\x7b' ∧ c ≠ '\x7d'

instance (c : Char) : Decidable (IsPlainCode c) := inferInstanceAs (Decidable (_ ∧ _))

/-- Characters of a kind that none of the special ones is of. -/
theorem isPlainCode_of_kind {p : Char → Bool}
    (hp : (['\'', '"', '\x60', '/', '\x7b', '\x7d'].all fun d => !p d) = true) {c : Char}
    (hc : p c = true) : IsPlainCode c := by
  have hne : ∀ d ∈ ['\'', '"', '\x60', '/', '\x7b', '\x7d'], c ≠ d := by
    rintro d hd rfl
    have hpd := List.all_eq_true.mp hp c hd
    simp [hc] at hpd
  simpa [IsPlainCode] using hne

/-- Where only braces count, other characters leave the scanner where it is. -/
theorem behindCode_of_ne {c : Char} (hopen : c ≠ '\x7b') (hclose : c ≠ '\x7d') (depth : Nat)
    (outer : List Nat) : behindCode depth outer c = .code depth outer := by
  rw [behindCode, if_neg hopen, if_neg hclose]

section

variable (depth : Nat) (outer : List Nat)

/-- The scanner takes plain characters one by one. -/
theorem walk_plain {s : Text} (hs : ∀ c ∈ s, IsPlainCode c) (u : Text) :
    ReflTransGen TemplateMove (.code depth outer, s ++ u) (.code depth outer, u) := by
  induction s with
  | nil => exact .refl
  | cons c s ih =>
    obtain ⟨hsingle, hdouble, htick, hslash, hopen, hclose⟩ := hs c List.mem_cons_self
    have hcomment : ¬startsComment c (s ++ u) := not_startsComment_of_ne hslash
    have hstep := TemplateStep.code depth outer htick hcomment (not_or.mpr ⟨hsingle, hdouble⟩)
    rw [behindCode_of_ne hopen hclose] at hstep
    rw [List.cons_append]
    exact .head ⟨_, _, hstep⟩ (ih fun d hd => hs d (List.mem_cons_of_mem _ hd))

/-- The scanner takes characters of such a kind as far as they reach. -/
theorem walk_word {p : Char → Bool}
    (hp : (['\'', '"', '\x60', '/', '\x7b', '\x7d'].all fun d => !p d) = true) {c : Char}
    (hc : p c = true) (s : Text) :
    ReflTransGen TemplateMove (.code depth outer, c :: s) (.code depth outer, s.dropWhile p) := by
  have hplain : ∀ d ∈ c :: s.takeWhile p, IsPlainCode d := by
    intro d hd
    refine isPlainCode_of_kind hp ?_
    rcases List.mem_cons.mp hd with rfl | hd
    · exact hc
    · exact List.all_eq_true.mp List.all_takeWhile d hd
  have hwalk := walk_plain depth outer hplain (s.dropWhile p)
  rwa [List.cons_append, List.takeWhile_append_dropWhile] at hwalk

/-! ### Between tokens -/

/-- What stands between tokens is plain. -/
theorem isPlainCode_of_isSpacing {c : Char} (hc : isSpacing c = true) : IsPlainCode c :=
  isPlainCode_of_kind (by decide) hc

/-- The scanner takes what stands in front of a token. -/
theorem walk_trivia (s : Text) :
    ReflTransGen TemplateMove (.code depth outer, s) (.code depth outer, (scanTrivia s).rest) := by
  have hspacing : ∀ (c : Char) (rest : Text), isSpacing c = true →
      ReflTransGen TemplateMove (.code depth outer, c :: rest) (.code depth outer, rest) := by
    intro c rest hc
    exact walk_plain depth outer (s := [c]) (by simpa using isPlainCode_of_isSpacing hc) rest
  fun_induction scanTrivia s with
  | case1 => exact .refl
  | case2 rest line _ ih => exact .head ⟨_, _, .lineComment depth outer rest⟩ ih
  | case3 rest comment _ ih => exact .head ⟨_, _, .blockComment depth outer rest⟩ ih
  | case4 c rest _ _ hend ih => exact (hspacing c rest (by simp [isSpacing, hend])).trans ih
  | case5 c rest _ _ _ hblank ih =>
    refine (hspacing c rest ?_).trans ih
    rw [isSpacing, Bool.or_assoc, hblank, Bool.or_true]
  | case6 => exact .refl

/-! ### Templates -/

/-- The same place of a template in a substitution of another one. -/
def TemplateState.within (outer : List Nat) : TemplateState → TemplateState
  | .text inner => .text (inner ++ outer)
  | .code depth inner => .code depth (inner ++ outer)

/-- A step is made in a substitution, too. -/
theorem TemplateStep.within {state next : TemplateState} {s front rest : Text} {crosses : Bool}
    (h : TemplateStep state s front crosses next rest) :
    TemplateStep (state.within outer) s front crosses (next.within outer) rest := by
  cases h with
  | outward depth inner => exact .outward depth (inner ++ outer) rest
  | escape inner c => exact .escape (inner ++ outer) c rest
  | substitution inner => exact .substitution (inner ++ outer) rest
  | character inner tick back plain => exact .character (inner ++ outer) tick back plain
  | inward depth inner => exact .inward depth (inner ++ outer) rest
  | lineComment depth inner rest => exact .lineComment depth (inner ++ outer) rest
  | blockComment depth inner rest => exact .blockComment depth (inner ++ outer) rest
  | quoted depth inner c rest quote => exact .quoted depth (inner ++ outer) c rest quote
  | @code depth inner c _ tick comment quote =>
    have hbehind : (behindCode depth inner c).within outer =
        behindCode depth (inner ++ outer) c := by
      unfold behindCode
      split
      · rfl
      · split
        · split <;> rfl
        · rfl
    rw [hbehind]
    exact .code depth (inner ++ outer) tick comment quote

/-- The scanner takes a template that is closed, and goes on in the code around it. -/
theorem walk_template {state : TemplateState} {s : Text}
    (h : (scanTemplate state s).value.closed = true) :
    ReflTransGen TemplateMove (state.within (depth :: outer), s)
      (.code depth outer, (scanTemplate state s).rest) := by
  induction hlength : s.length using Nat.strongRecOn generalizing state s with
  | _ n ih =>
    cases templateFront state s with
    | closing rest hstate hs =>
      subst hstate hs
      rw [scanTemplate]
      exact .single ⟨_, _, .outward depth outer rest⟩
    | nothing hs => simp [hs, scanTemplate] at h
    | backslash inner hstate hs => simp [hstate, hs, scanTemplate] at h
    | step hstep =>
      rw [hstep.scan] at h ⊢
      exact .head ⟨_, _, hstep.within (depth :: outer)⟩
        (ih _ (hlength ▸ hstep.length_lt) (by simpa using h) rfl)

end

/-! ### Tokens -/

/-- Whether the scanner of a template **passes** a text as code in front of another one: it comes to
the end of the text with as many braces open as before. -/
def PassesAsCode (s u : Text) : Prop :=
  ∀ depth outer,
    ReflTransGen TemplateMove (.code (depth + 1) outer, s ++ u) (.code (depth + 1) outer, u)

/-- Nothing is passed. -/
theorem passesAsCode_nil (u : Text) : PassesAsCode [] u := fun _ _ => .refl

/-- Two texts are passed one after the other. -/
theorem PassesAsCode.append {s t u : Text} (hs : PassesAsCode s (t ++ u)) (ht : PassesAsCode t u) :
    PassesAsCode (s ++ t) u := fun depth outer => by
  rw [List.append_assoc]
  exact (hs depth outer).trans (ht depth outer)

/-- A text is passed if nothing in it is special. -/
theorem passesAsCode_of_plain {s : Text} (hs : ∀ c ∈ s, IsPlainCode c) (u : Text) :
    PassesAsCode s u := fun depth outer => walk_plain (depth + 1) outer hs u

/-- Braces around a text that is passed are passed with it. -/
theorem PassesAsCode.braced {s u : Text} (hs : PassesAsCode s ('\x7d' :: u)) :
    PassesAsCode ('\x7b' :: s ++ ['\x7d']) u := fun depth outer => by
  have hopen : TemplateMove (.code (depth + 1) outer, '\x7b' :: (s ++ '\x7d' :: u))
      (.code (depth + 2) outer, s ++ '\x7d' :: u) :=
    ⟨_, _, .code _ outer (by decide) (not_startsComment_of_ne (by decide)) (by decide)⟩
  have hclose : TemplateMove (.code (depth + 2) outer, '\x7d' :: u) (.code (depth + 1) outer, u) :=
    ⟨_, _, .code _ outer (by decide) (not_startsComment_of_ne (by decide)) (by decide)⟩
  rw [List.append_assoc, List.cons_append, List.singleton_append]
  exact .head hopen ((hs (depth + 1) outer).tail hclose)

/-- A regular expression is passed if what stands between its slashes is, and if neither of them
starts a comment. -/
theorem passesAsCode_regex {body flags u : Text}
    (hopening : ¬startsComment '/' (body ++ '/' :: (flags ++ u)))
    (hbody : PassesAsCode body ('/' :: (flags ++ u))) (hclosing : ¬startsComment '/' (flags ++ u))
    (hflags : ∀ c ∈ flags, isIdentifierPart c = true) :
    PassesAsCode ('/' :: (body ++ '/' :: flags)) u := by
  have hslash : ∀ {s : Text}, ¬startsComment '/' s → PassesAsCode ['/'] s := by
    intro s hs depth outer
    have hstep := TemplateStep.code (depth + 1) outer (by decide) hs (by decide)
    rw [behindCode_of_ne (by decide) (by decide)] at hstep
    exact .single ⟨_, _, hstep⟩
  have hplain : PassesAsCode flags u :=
    passesAsCode_of_plain (fun c hc => isPlainCode_of_kind (by decide) (hflags c hc)) u
  have hparts : '/' :: (body ++ '/' :: flags) = ['/'] ++ (body ++ (['/'] ++ flags)) := by simp
  rw [hparts]
  exact .append (by simpa using hslash hopening)
    (.append (by simpa using hbody) (.append (hslash hclosing) hplain))

/-- The scanner counts the braces that are due to be closed, and one more for the substitution. -/
theorem behindCode_of_expectedAfter {expected due : List Char} {c : Char}
    (hdue : expectedAfter expected (.punctuator c) = some due) (outer : List Nat) :
    behindCode (expected.count '\x7d' + 1) outer c = .code (due.count '\x7d' + 1) outer := by
  cases hopening : closingOf c with
  | some closing =>
    rw [expectedAfter_of_opening hopening, Option.some.injEq] at hdue
    subst hdue
    unfold closingOf at hopening
    split at hopening
    · obtain rfl : ')' = closing := by simpa using hopening
      rw [behindCode_of_ne (by decide) (by decide), List.count_cons_of_ne (by decide)]
    · obtain rfl : ']' = closing := by simpa using hopening
      rw [behindCode_of_ne (by decide) (by decide), List.count_cons_of_ne (by decide)]
    · obtain rfl : '\x7d' = closing := by simpa using hopening
      rw [behindCode, if_pos rfl, List.count_cons_self]
    · simp at hopening
  | none =>
    have hopen : c ≠ '\x7b' := by
      rintro rfl
      simp [closingOf] at hopening
    by_cases hclosing : c = ')' ∨ c = ']' ∨ c = '\x7d'
    · rw [expectedAfter_of_closing hclosing hdue]
      by_cases hclose : c = '\x7d'
      · subst hclose
        rw [behindCode, if_neg hopen, if_pos rfl, List.count_cons_self, if_neg (by omega),
          Nat.add_sub_cancel]
      · rw [behindCode_of_ne hopen hclose, List.count_cons_of_ne hclose]
    · have hsame : expected = due := by simpa [expectedAfter, hopening, hclosing] using hdue
      rw [behindCode_of_ne hopen fun hclose => hclosing (.inr (.inr hclose)), hsame]

/-- The scanner takes a token that is not left open, as long as it passes it if it is a regular
expression. Behind it as many braces are open as are due to be closed. -/
theorem walk_token {regexAllowed : Bool} {c : Char} {s : Text} (hcomment : ¬startsComment c s)
    (hclosed : (scanToken regexAllowed c s).value.1 ≠ .unterminated)
    (hregex : (scanToken regexAllowed c s).value.1 = .regex →
      PassesAsCode (scanToken regexAllowed c s).taken (scanToken regexAllowed c s).rest)
    {expected due : List Char}
    (hdue : expectedAfter expected (scanToken regexAllowed c s).value.1 = some due)
    (outer : List Nat) :
    ReflTransGen TemplateMove (.code (expected.count '\x7d' + 1) outer, c :: s)
      (.code (due.count '\x7d' + 1) outer, (scanToken regexAllowed c s).rest) := by
  cases tokenStart regexAllowed c with
  | identifier hname =>
    rw [scanToken_identifier hname] at hdue ⊢
    obtain rfl : expected = due := by simpa [expectedAfter] using hdue
    exact walk_word _ outer (by decide) (isIdentifierPart_of_start hname) s
  | number hname hdigit =>
    rw [scanToken_number hname hdigit] at hdue ⊢
    obtain rfl : expected = due := by simpa [expectedAfter] using hdue
    exact walk_word _ outer (by decide) (by simp [isNumberPart, Char.isAlphanum, hdigit]) s
  | quote hquote =>
    rw [scanToken_quote hquote] at hdue ⊢
    obtain rfl : expected = due := by
      cases hvalue : (scanString c s).value <;> simpa [expectedAfter, hvalue] using hdue
    exact .single ⟨_, _, .quoted _ outer c s hquote⟩
  | backquote htick =>
    subst htick
    rw [scanToken_backquote] at hclosed hdue ⊢
    have htemplate : (scanTemplate (.text []) s).value.closed = true := by
      cases hvalue : (scanTemplate (.text []) s).value.closed with
      | true => rfl
      | false => simp [hvalue] at hclosed
    obtain rfl : expected = due := by simpa [expectedAfter, htemplate] using hdue
    exact .head ⟨_, _, .inward _ outer s⟩ (walk_template _ outer htemplate)
  | regex hslash hallowed =>
    subst hslash hallowed
    have hkind : (scanToken true '/' s).value.1 = .regex := by
      rw [scanToken_slash] at hclosed ⊢
      cases hvalue : (scanRegex s).value with
      | true => simp [hvalue]
      | false => simp [hvalue] at hclosed
    rw [hkind] at hdue
    obtain rfl : expected = due := by simpa [expectedAfter] using hdue
    have hwalk := hregex hkind (expected.count '\x7d') outer
    rwa [scanToken_taken_append_rest] at hwalk
  | other hname hdigit hquote htick hslash =>
    rw [scanToken_other hname hdigit hquote htick hslash] at hdue ⊢
    have hstep := TemplateStep.code (expected.count '\x7d' + 1) outer htick hcomment hquote
    rw [behindCode_of_expectedAfter hdue] at hstep
    exact .single ⟨_, _, hstep⟩

/-- The scanner takes the trivia in front of a token with the token. -/
theorem walk_lexeme {state : LexState} {s rest : Text} {l : Lexeme}
    (h : lexeme? state s = some (l, rest)) (hclosed : l.kind ≠ .unterminated)
    (hregex : l.kind = .regex → PassesAsCode l.text rest) {expected due : List Char}
    (hdue : expectedAfter expected l.kind = some due) (outer : List Nat) :
    ReflTransGen TemplateMove (.code (expected.count '\x7d' + 1) outer, s)
      (.code (due.count '\x7d' + 1) outer, rest) := by
  rw [lexeme?] at h
  split at h
  · simp at h
  · next c tail htail =>
    simp only [Option.some.injEq, Prod.mk.injEq] at h
    obtain ⟨rfl, rfl⟩ := h
    have htrivia := walk_trivia (expected.count '\x7d' + 1) outer s
    rw [htail] at htrivia
    exact htrivia.trans (walk_token (scanTrivia_rest_start htail).2 hclosed hregex hdue outer)

/-- The scanner takes all of a text that ends cleanly and goes on in the next line, as long as it
passes each regular expression in front of what stands behind it. -/
theorem walk_lexemes {state : LexState} {front s u : Text} (hends : EndsCleanly state s)
    (hregex : ∀ t ∈ Token.place (Text.size front) (lexemes state s), t.kind = .regex →
      PassesAsCode t.text (Text.dropBytes t.stop (front ++ s) ++ '\n' :: u))
    {expected due : List Char}
    (hdue : dueAfter expected ((lexemes state s).map Lexeme.kind) = some due) (outer : List Nat) :
    ReflTransGen TemplateMove (.code (expected.count '\x7d' + 1) outer, s ++ '\n' :: u)
      (.code (due.count '\x7d' + 1) outer, (scanTrivia u).rest) := by
  induction hlength : s.length using Nat.strongRecOn generalizing state front s expected with
  | _ n ih =>
    cases hfirst : lexeme? state s with
    | none =>
      obtain rfl : expected = due := by simpa [(lexemes_of_none hfirst).1] using hdue
      have hwalk := walk_trivia (expected.count '\x7d' + 1) outer (s ++ '\n' :: u)
      rwa [scanTrivia_behind_trivia (scanTrivia_rest_of_none hfirst) (hends.trivia hfirst)] at hwalk
    | some found =>
      obtain ⟨l, rest⟩ := found
      obtain ⟨hclosed, hrest⟩ := hends.behind hfirst
      have hsplit : front ++ s = front ++ l.gap ++ l.text ++ rest := by
        rw [← lexeme?_gap_append_text hfirst]
        simp only [List.append_assoc]
      rw [(lexemes_of_some hfirst).1] at hdue hregex
      obtain ⟨next, hnext, hothers⟩ := exists_dueAfter hdue
      rw [Token.place, hsplit, ← Text.size_append, ← Text.size_append, List.forall_mem_cons]
        at hregex
      obtain ⟨hlexeme, hplaced⟩ := hregex
      have hbehind : Text.dropBytes (Text.size (front ++ l.gap ++ l.text))
          (front ++ l.gap ++ l.text ++ rest) = rest := by
        simpa using Text.dropBytes_append (front ++ l.gap ++ l.text) rest 0
      rw [Token.stop, ← Text.size_append, hbehind] at hlexeme
      have hwalk := walk_lexeme (lexeme?_append hfirst hclosed u) hclosed hlexeme hnext outer
      exact hwalk.trans (ih _ (hlength ▸ lexeme?_length hfirst) hrest hplaced hothers rfl)

/-! ### Templates with one substitution -/

/-- What the scanner finds from a place on that it comes to decides what it finds. -/
theorem scanTemplate_of_walk {a b : TemplateState × Text} (h : ReflTransGen TemplateMove a b) :
    (scanTemplate a.1 a.2).value.closed = (scanTemplate b.1 b.2).value.closed ∧
      (scanTemplate a.1 a.2).rest = (scanTemplate b.1 b.2).rest := by
  induction h using ReflTransGen.head_induction_on with
  | refl => exact ⟨rfl, rfl⟩
  | head hmove _ ih =>
    obtain ⟨front, crosses, hstep⟩ := hmove
    rw [hstep.scan]
    exact ih

/-- A template that is nothing but a substitution, with a text and a line feed in it. -/
def substituted (e : Text) : Text := '\x60' :: '$' :: '\x7b' :: (e ++ ['\n', '\x7d', '\x60'])

/-- A template that takes all of a text is the only token of it. -/
theorem tokenize_template {s : Text} (hclosed : (scanTemplate (.text []) s).value.closed = true)
    (hrest : (scanTemplate (.text []) s).rest = []) :
    ∃ crosses, tokenize ('\x60' :: s) = [⟨⟨[], '\x60' :: s, .template, crosses⟩, 0⟩] := by
  have htaken : (scanTemplate (.text []) s).taken = s := by
    simpa [hrest] using scanTemplate_taken_append_rest (.text []) s
  have hfirst : lexeme? .initial ('\x60' :: s) = _ :=
    lexeme?_of_start (by decide) (not_startsComment_of_ne (by decide))
  simp only [scanToken_backquote, Scan.after_value, Scan.map_value, Scan.after_taken,
    Scan.map_taken, Scan.after_rest, Scan.map_rest, hclosed, hrest, htaken, if_true] at hfirst
  refine ⟨(scanTemplate (.text []) s).value.crossesLine, ?_⟩
  rw [tokenize_of_hashbang rfl, (lexemes_of_some hfirst).1, lexemes_nil]
  rfl

/-- A template is one token if its scanner comes to the end of the substitution with no other brace
open. -/
theorem tokenize_substituted_of_walk {e : Text}
    (h : ReflTransGen TemplateMove (.code 1 [], e ++ ['\n', '\x7d', '\x60'])
      (.code 1 [], ['\x7d', '\x60'])) :
    ∃ crosses, tokenize (substituted e) = [⟨⟨[], substituted e, .template, crosses⟩, 0⟩] := by
  have hopen : TemplateMove (.text [], '$' :: '\x7b' :: (e ++ ['\n', '\x7d', '\x60']))
      (.code 1 [], e ++ ['\n', '\x7d', '\x60']) :=
    ⟨_, _, .substitution [] _⟩
  have hclose : TemplateMove (.code 1 [], ['\x7d', '\x60']) (.text [], ['\x60']) :=
    ⟨_, _, .code 1 [] (by decide) (not_startsComment_of_ne (by decide)) (by decide)⟩
  obtain ⟨hclosed, hrest⟩ := scanTemplate_of_walk (.head hopen (h.tail hclose))
  refine tokenize_template (hclosed.trans ?_) (hrest.trans ?_) <;> rw [scanTemplate]

/-- Code in a substitution is one token with the template around it, if it is whole by itself: no
literal and no comment is left open, and brackets are balanced. The scanner of the template has to
pass what it does not know, which are regular expressions and a first line that is read by no
one. -/
theorem tokenize_substituted {e : Text} (hliterals : ∀ t ∈ tokenize e, t.kind ≠ .unterminated)
    (hbalanced : isBalanced [] ((tokenize e).map (·.kind)) = true)
    (hcomments : leavesCommentOpen (trailingTrivia .initial (afterHashbang e)) = false)
    (hregexes : ∀ t ∈ tokenize e, t.kind = .regex →
      PassesAsCode t.text (Text.dropBytes t.stop e ++ ['\n', '\x7d', '\x60']))
    (hhashbang : PassesAsCode (hashbang e) (afterHashbang e ++ ['\n', '\x7d', '\x60'])) :
    ∃ crosses, tokenize (substituted e) = [⟨⟨[], substituted e, .template, crosses⟩, 0⟩] := by
  have hends : EndsCleanly .initial (afterHashbang e) := by
    refine ⟨fun l hl => ?_, hcomments⟩
    rw [← tokenize_map_toLexeme] at hl
    obtain ⟨t, ht, rfl⟩ := List.mem_map.mp hl
    exact hliterals t ht
  have hplaced : ∀ t ∈ tokenize e, t.kind = .regex → PassesAsCode t.text
      (Text.dropBytes t.stop (hashbang e ++ afterHashbang e) ++ ['\n', '\x7d', '\x60']) := by
    rwa [hashbang_append_afterHashbang]
  rw [tokenize_map Lexeme.kind, isBalanced_iff] at hbalanced
  have hwalk := walk_lexemes hends hplaced hbalanced []
  have hrest : (scanTrivia ['\x7d', '\x60']).rest = ['\x7d', '\x60'] := by
    rw [scanTrivia_cons (not_startsComment_of_ne (by decide)), if_neg (by decide)]
  rw [hrest] at hwalk
  have hfront := hhashbang 0 []
  rw [← List.append_assoc, hashbang_append_afterHashbang] at hfront
  exact tokenize_substituted_of_walk (hfront.trans hwalk)

-- A backquote in a regular expression is taken for the start of a template.
example : (lexemesUpTo 9 .initial (substituted "/\x60/".toList)).1.map Lexeme.kind =
    [.unterminated] := by
  cbv

/-- A call with braces in a string and in a regular expression, and with a template behind it. -/
def bracedCall : Text := "f('\x7d', /x\x7b2\x7d/g) /* \x7b */ + \x60$\x7bb\x7d\x60 // \x60".toList

/-- The braces of strings, regular expressions, comments and templates mislead no one. -/
theorem tokenize_substituted_of_bracedCall :
    (tokenize bracedCall).map (·.kind) =
        [.identifier "f", .punctuator '(', .string "\x7d", .punctuator ',', .regex, .punctuator ')',
          .punctuator '+', .template] ∧
      ∃ crosses, tokenize (substituted bracedCall) =
        [⟨⟨[], substituted bracedCall, .template, crosses⟩, 0⟩] := by
  have hread : lexemesUpTo 43 .initial bracedCall =
      ([⟨[], ['f'], .identifier "f", false⟩, ⟨[], ['('], .punctuator '(', false⟩,
        ⟨[], "'\x7d'".toList, .string "\x7d", false⟩, ⟨[], [','], .punctuator ',', false⟩,
        ⟨[' '], "/x\x7b2\x7d/g".toList, .regex, false⟩, ⟨[], [')'], .punctuator ')', false⟩,
        ⟨" /* \x7b */ ".toList, ['+'], .punctuator '+', false⟩,
        ⟨[' '], "\x60$\x7bb\x7d\x60".toList, .template, false⟩], " // \x60".toList) := by
    cbv
  have hlexemes := hread.symm.trans (lexemesUpTo_eq (by decide))
  rw [Prod.mk.injEq] at hlexemes
  have htokens : tokenize bracedCall = _ :=
    (tokenize_of_hashbang rfl).trans (congrArg _ hlexemes.1.symm)
  have hbody : ∀ u, PassesAsCode ['x', '\x7b', '2', '\x7d'] u := fun u =>
    .append (s := ['x']) (passesAsCode_of_plain (List.forall_mem_singleton.mpr (by decide)) _)
      (.braced (s := ['2']) (passesAsCode_of_plain (List.forall_mem_singleton.mpr (by decide)) _))
  have hbehind : Text.dropBytes 14 bracedCall =
      ") /* \x7b */ + \x60$\x7bb\x7d\x60 // \x60".toList := by
    cbv
  have hregex : PassesAsCode ('/' :: (['x', '\x7b', '2', '\x7d'] ++ '/' :: ['g']))
      (Text.dropBytes 14 bracedCall ++ ['\n', '\x7d', '\x60']) := by
    have hflags : ∀ c ∈ ['g'], isIdentifierPart c = true :=
      List.forall_mem_singleton.mpr (by decide)
    rw [hbehind]
    exact passesAsCode_regex (by simp [startsComment]) (hbody _) (by simp [startsComment]) hflags
  refine ⟨by rw [htokens]; rfl, tokenize_substituted ?_ ?_ ?_ ?_ (passesAsCode_nil _)⟩
  · rw [htokens]
    decide
  · rw [htokens]
    decide
  · rw [afterHashbang_eq_self rfl, ← hlexemes.2]
    cbv
  · rw [htokens]
    simp only [Token.place, List.forall_mem_cons, reduceCtorEq, false_imp_iff, true_and,
      forall_const]
    exact ⟨hregex, List.forall_mem_nil _⟩

end ScriptBundle

