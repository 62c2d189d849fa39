import ScriptBundle.Proofs.Token.RespacedScan
import ScriptBundle.Proofs.Token.State

/-!
# Tokens of Respaced Texts

Respaced texts have tokens of the same shapes, whatever they are. If no token is left open and no
line feed inside of a string or a template has been touched, then the tokens are the same.

## Main definitions

* `TokenKind.shape`: a kind without the value of a string;
* `Lexeme.content`: what a lexeme contributes to a program;
* `KeepsLiterals`: whether no line feed inside of the literals of a text may be touched.

## Main statements

* `shapes_respaced`: respaced texts have tokens of the same shapes;
* `contents_respaced`: they have the same tokens if the literals are kept.
-/

namespace ScriptBundle

/-- The **shape** of a kind is the kind without the value of a string. -/
def TokenKind.shape : TokenKind → TokenKind
  | .string _ => .string ""
  | k => k

/-! ### One token -/

section

variable {fixed : Nat → Bool} {offset : Nat} {s t : Text}

/-- A token comes to its end at the same place. -/
theorem scanToken_respaced {c : Char} (h : Respaced fixed (offset + c.utf8Size) s t)
    (regexAllowed : Bool) :
    (scanToken regexAllowed c t).value.1.shape = (scanToken regexAllowed c s).value.1.shape ∧
      (scanToken regexAllowed c t).value.2 = (scanToken regexAllowed c s).value.2 ∧
      StopAlike fixed offset ((scanToken regexAllowed c s).value.1 != .unterminated)
        (scanToken regexAllowed c s) (scanToken regexAllowed c t) := by
  cases tokenStart regexAllowed c with
  | identifier hname =>
    obtain ⟨hpart, hrest⟩ := takeWhile_respaced (p := isIdentifierPart) (by decide) h
    rw [scanToken_identifier hname, scanToken_identifier hname, hpart]
    exact ⟨rfl, rfl, .of_respaced (by simpa [Nat.add_assoc] using hrest)⟩
  | number hname hdigit =>
    obtain ⟨-, hrest⟩ := takeWhile_respaced (p := isNumberPart) (by decide) h
    rw [scanToken_number hname hdigit, scanToken_number hname hdigit]
    exact ⟨rfl, rfl, .of_respaced (by simpa [Nat.add_assoc] using hrest)⟩
  | quote hquote =>
    have hblank : isBlank c = false := by rcases hquote with rfl | rfl <;> decide
    obtain ⟨hvalue, hstop⟩ := scanString_respaced h hblank
    rw [scanToken_quote hquote, scanToken_quote hquote]
    cases hs : (scanString c s).value with
    | none =>
      rw [hs] at hvalue hstop
      have ht : (scanString c t).value = none := by simpa using hvalue
      refine ⟨by simp [hs, ht], by simp [hs, ht], .after [c] _ (.map ?_ _ _)⟩
      simpa [hs] using hstop
    | some value =>
      rw [hs] at hvalue hstop
      obtain ⟨value', ht⟩ := Option.isSome_iff_exists.mp hvalue
      refine ⟨by simp [hs, ht, TokenKind.shape], by simp [hs, ht], .after [c] _ (.map ?_ _ _)⟩
      have hkind : (TokenKind.string (String.ofList value) != .unterminated) = true := rfl
      simpa [hs, hkind] using hstop
  | backquote htick =>
    subst htick
    obtain ⟨hvalue, hstop⟩ := scanTemplate_respaced h (.text [])
    rw [scanToken_backquote, scanToken_backquote]
    exact ⟨by simp [hvalue], by simp [hvalue],
      .after ['\x60'] _ (.map (.of_respaced (hstop.tight rfl)) _ _)⟩
  | regex hslash hallowed =>
    subst hslash hallowed
    obtain ⟨hvalue, hstop⟩ := scanRegex_respaced h
    rw [scanToken_slash, scanToken_slash]
    refine ⟨by simp [hvalue], rfl, .after ['/'] _ (.map ?_ _ _)⟩
    have hkind : (TokenKind.regex != .unterminated) = true := rfl
    cases hclosed : (scanRegex s).value <;> simpa [hclosed, hkind] using hstop
  | other hname hdigit hquote htick hslash =>
    rw [scanToken_other hname hdigit hquote htick hslash,
      scanToken_other hname hdigit hquote htick hslash]
    exact ⟨rfl, rfl, .of_respaced (by simpa using h)⟩

/-- Two lexers **find alike** if they find tokens of the same shape behind line ends that are
counted alike, and leave respaced texts. -/
inductive FoundAlike (fixed : Nat → Bool) (offset : Nat) :
    Option (Lexeme × Text) → Option (Lexeme × Text) → Prop
  | none : FoundAlike fixed offset none none
  | some {l m : Lexeme} {s t : Text} (hshape : m.kind.shape = l.kind.shape)
      (hline : m.newlineBefore = l.newlineBefore)
      (htight : l.kind ≠ .unterminated →
        Respaced fixed (offset + Text.size l.gap + Text.size l.text) s t)
      (hloose : RespacedLoosely fixed (offset + Text.size l.gap + Text.size l.text) s t) :
      FoundAlike fixed offset (some (l, s)) (some (m, t))

/-- Respaced texts start with tokens of the same shape. -/
theorem lexeme?_respaced (h : Respaced fixed offset s t) (state : LexState) :
    FoundAlike fixed offset (lexeme? state s) (lexeme? state t) := by
  obtain ⟨hcrosses, hstop⟩ := scanTrivia_respaced h
  have htrivia := hstop.tight rfl
  rw [lexeme?, lexeme?]
  cases hs : (scanTrivia s).rest with
  | nil =>
    rw [hs] at htrivia
    rw [htrivia.eq_nil]
    exact .none
  | cons c rest =>
    rw [hs] at htrivia
    have hfeed : c ≠ '\n' := by
      rintro rfl
      exact absurd (scanTrivia_rest_start hs).1 (by decide)
    obtain ⟨rest', ht, hrest⟩ := htrivia.cons_of_ne hfeed
    obtain ⟨hshape, hline, htoken⟩ := scanToken_respaced hrest state.regexAllowed
    rw [ht]
    refine .some hshape (by simp [hcrosses, hline]) ?_ htoken.loose
    intro hkind
    exact htoken.tight (by simpa using hkind)

/-- White space in front of a text belongs to the gap before the first token. -/
theorem lexeme?_blank {b : Text} (hb : IsBlankText b) (s : Text) : ∃ crosses, ∀ state,
    lexeme? state (b ++ s) = (lexeme? state s).map fun (l, rest) =>
      ({ l with gap := b ++ l.gap, newlineBefore := crosses || l.newlineBefore }, rest) := by
  obtain ⟨crosses, htrivia⟩ := scanTrivia_blank hb s
  refine ⟨crosses, fun state => ?_⟩
  rw [lexeme?, htrivia, lexeme?]
  cases hs : (scanTrivia s).rest <;> simp [hs, Bool.or_assoc]

end

/-! ### Shapes -/

/-- Two states that are alike stay so behind tokens of the same shape. -/
theorem LexState.Within.next_of_shape {inner outer : LexState} {k k' : TokenKind}
    (h : Within [] [] inner outer) (hshape : k'.shape = k.shape) :
    Within [] [] (inner.next k) (outer.next k') := by
  have hsame : ∀ k, Within [] [] (inner.next k) (outer.next k) := by
    intro k
    obtain ⟨-, hblock, hhead, hheads, hblocks⟩ := h
    rw [List.append_nil] at hheads hblocks
    constructor <;> simp [next_regexAllowed, next_heads, next_blocks, hblock, hhead, hheads,
      hblocks]
  cases k <;> cases k' <;> simp only [TokenKind.shape, reduceCtorEq] at hshape
  case string => exact ⟨rfl, rfl, rfl, h.heads, h.blocks⟩
  all_goals simpa [hshape] using hsame _

/-- Texts that are at least loosely respaced have tokens of the same shapes. -/
theorem shapes_respaced {fixed : Nat → Bool} {offset : Nat} {s t : Text} {inner outer : LexState}
    (h : RespacedLoosely fixed offset s t) (hstate : LexState.Within [] [] inner outer) :
    (lexemes outer t).map (·.kind.shape) = (lexemes inner s).map (·.kind.shape) := by
  induction hlength : s.length using Nat.strongRecOn generalizing offset s t inner outer with
  | _ n ih =>
    obtain ⟨before, after, s', t', hbefore, hafter, rfl, rfl, hrest⟩ := h
    obtain ⟨_, hs⟩ := lexeme?_blank hbefore s'
    obtain ⟨_, ht⟩ := lexeme?_blank hafter t'
    have hs := hs inner
    have ht := ht outer
    have hfound := lexeme?_respaced hrest inner
    rw [lexeme?_congr hstate.regexAllowed t'] at ht
    cases hfirst : lexeme? inner s' with
    | none =>
      rw [hfirst] at hfound hs
      generalize lexeme? inner t' = found' at hfound ht
      cases hfound
      rw [(lexemes_of_none hs).1, (lexemes_of_none ht).1]
    | some found =>
      obtain ⟨l, rest⟩ := found
      rw [hfirst] at hfound hs
      generalize lexeme? inner t' = found' at hfound ht
      cases hfound with
      | some hshape _ _ hloose =>
        have hlt : rest.length < n := hlength ▸ lexeme?_length hs
        have htail := ih _ hlt hloose (hstate.next_of_shape hshape) rfl
        rw [(lexemes_of_some hs).1, (lexemes_of_some ht).1, List.map_cons, List.map_cons, htail,
          hshape]

/-! ### Contents -/

/-- The **content** of a lexeme is what white space around it has no part in: its kind and, for a
string or a template, its characters. -/
def Lexeme.content (l : Lexeme) : TokenKind × Option Text :=
  (l.kind, if isTextLiteral l.kind then some l.text else none)

/-- Whether no line that starts inside of a string or a template may be touched. -/
def KeepsLiterals (fixed : Nat → Bool) (tokens : List Token) : Prop :=
  ∀ token ∈ tokens, isTextLiteral token.kind = true →
    ∀ n, token.start < n → n < token.stop → fixed n = true

/-- A string that is closed ends with its quote. -/
theorem getLast?_scanString {quote : Char} {s : Text} (h : (scanString quote s).value ≠ none) :
    (scanString quote s).taken.getLast? = some quote := by
  fun_induction scanString quote s
  all_goals simp_all [List.getLast?_cons]

/-- A template that is closed ends with a backquote. -/
theorem getLast?_scanTemplate {state : TemplateState} {s : Text}
    (h : (scanTemplate state s).value.closed = true) :
    (scanTemplate state s).taken.getLast? = some '\x60' := by
  fun_induction scanTemplate state s
  all_goals simp_all [List.getLast?_cons, List.getLast?_append]

section

variable {fixed : Nat → Bool} {offset : Nat} {s t : Text}

/-- A string or a template in which no line feed may be touched is the same. -/
theorem scanToken_kept {c : Char} {regexAllowed : Bool}
    (h : Respaced fixed (offset + c.utf8Size) s t)
    (hliteral : isTextLiteral (scanToken regexAllowed c s).value.1 = true)
    (hfixed : ∀ n, offset < n → n < offset + Text.size (scanToken regexAllowed c s).taken →
      fixed n = true) :
    ∃ rest, scanToken regexAllowed c t = (scanToken regexAllowed c s).onto rest ∧
      Respaced fixed (offset + Text.size (scanToken regexAllowed c s).taken)
        (scanToken regexAllowed c s).rest rest := by
  cases tokenStart regexAllowed c with
  | identifier hname => simp [scanToken_identifier hname, isTextLiteral] at hliteral
  | number hname hdigit => simp [scanToken_number hname hdigit, isTextLiteral] at hliteral
  | quote hquote =>
    rw [scanToken_quote hquote] at hliteral hfixed
    have hvalue : (scanString c s).value ≠ none := by
      intro hnone
      simp [hnone, isTextLiteral] at hliteral
    have hlast : (scanString c s).taken.getLast? ≠ some '\n' := by
      rw [getLast?_scanString hvalue]
      rcases hquote with rfl | rfl <;> decide
    rw [← scanString_taken_append_rest c s] at h
    obtain ⟨t', rfl, hrest⟩ := h.of_append
      (fun n hn hlt => hfixed n (by omega) (by simpa [Nat.add_assoc] using hlt)) hlast
    refine ⟨t', ?_, ?_⟩
    · rw [scanToken_quote hquote, scanToken_quote hquote, scanString_taken (.inl hvalue)]
      rfl
    · rw [scanToken_quote hquote]
      simpa [Nat.add_assoc] using hrest
  | backquote htick =>
    subst htick
    rw [scanToken_backquote] at hliteral hfixed
    have hclosed : (scanTemplate (.text []) s).value.closed = true := by
      cases hopen : (scanTemplate (.text []) s).value.closed with
      | true => rfl
      | false => simp [hopen, isTextLiteral] at hliteral
    have hlast : (scanTemplate (.text []) s).taken.getLast? ≠ some '\n' := by
      rw [getLast?_scanTemplate hclosed]
      decide
    rw [← scanTemplate_taken_append_rest (.text []) s] at h
    obtain ⟨t', rfl, hrest⟩ := h.of_append
      (fun n hn hlt => hfixed n (by omega) (by simpa [Nat.add_assoc] using hlt)) hlast
    refine ⟨t', ?_, ?_⟩
    · rw [scanToken_backquote, scanToken_backquote, scanTemplate_taken hclosed]
      rfl
    · rw [scanToken_backquote]
      simpa [Nat.add_assoc] using hrest
  | regex hslash hallowed =>
    subst hslash hallowed
    rw [scanToken_slash] at hliteral
    cases hclosed : (scanRegex s).value <;> simp [hclosed, isTextLiteral] at hliteral
  | other hname hdigit hquote htick hslash =>
    simp [scanToken_other hname hdigit hquote htick hslash, isTextLiteral] at hliteral

/-- Kinds of one shape are the same unless they are strings. -/
theorem kind_eq_of_shape {k k' : TokenKind} (h : k'.shape = k.shape)
    (hliteral : isTextLiteral k = false) : k' = k := by
  cases k <;> cases k' <;> simp_all [TokenKind.shape, isTextLiteral]

/-- The first token of a text is the same if it is closed and kept. -/
theorem lexeme?_kept {state : LexState} {l : Lexeme} {rest : Text}
    (h : Respaced fixed offset s t) (hfirst : lexeme? state s = some (l, rest))
    (hkind : l.kind ≠ .unterminated)
    (hfixed : isTextLiteral l.kind = true → ∀ n, offset + Text.size l.gap < n →
      n < offset + Text.size l.gap + Text.size l.text → fixed n = true) :
    ∃ m rest', lexeme? state t = some (m, rest') ∧ m.content = l.content ∧
      m.newlineBefore = l.newlineBefore ∧
      Respaced fixed (offset + Text.size l.gap + Text.size l.text) rest rest' := by
  have hfound := lexeme?_respaced h state
  rw [hfirst] at hfound
  generalize hfirst' : lexeme? state t = found' at hfound
  cases hfound with
  | @some _ m _ rest' hshape hline htight _ =>
    cases hliteral : isTextLiteral l.kind with
    | false =>
      refine ⟨m, rest', rfl, ?_, hline, htight hkind⟩
      rw [Lexeme.content, Lexeme.content, kind_eq_of_shape hshape hliteral, hliteral]
      rfl
    | true =>
      have htrivia := (scanTrivia_respaced h).2.tight rfl
      rw [lexeme?] at hfirst hfirst'
      cases hs : (scanTrivia s).rest with
      | nil => simp [hs] at hfirst
      | cons c tail =>
        rw [hs] at htrivia
        have hfeed : c ≠ '\n' := by
          rintro rfl
          exact absurd (scanTrivia_rest_start hs).1 (by decide)
        obtain ⟨tail', ht, htail⟩ := htrivia.cons_of_ne hfeed
        simp only [hs, Option.some.injEq, Prod.mk.injEq] at hfirst
        obtain ⟨rfl, rfl⟩ := hfirst
        obtain ⟨behind, hscan, hbehind⟩ := scanToken_kept htail hliteral (hfixed hliteral)
        simp only [ht, hscan, Option.some.injEq, Prod.mk.injEq] at hfirst'
        obtain ⟨rfl, rfl⟩ := hfirst'
        exact ⟨_, _, rfl, rfl, hline, hbehind⟩

/-- Respaced texts have the same tokens if none is left open and the literals are kept. -/
theorem contents_respaced {state : LexState} (h : Respaced fixed offset s t)
    (hclosed : ∀ l ∈ lexemes state s, l.kind ≠ .unterminated)
    (hkept : KeepsLiterals fixed (Token.place offset (lexemes state s))) :
    (lexemes state t).map Lexeme.content = (lexemes state s).map Lexeme.content ∧
      (lexemes state t).map Lexeme.newlineBefore = (lexemes state s).map Lexeme.newlineBefore ∧
      ∃ stop, Respaced fixed stop (trailingTrivia state s) (trailingTrivia state t) := by
  induction hlength : s.length using Nat.strongRecOn generalizing offset s t state with
  | _ n ih =>
    cases hfirst : lexeme? state s with
    | none =>
      have hfound := lexeme?_respaced h state
      rw [hfirst] at hfound
      generalize hfirst' : lexeme? state t = found' at hfound
      cases hfound
      rw [(lexemes_of_none hfirst).1, (lexemes_of_none hfirst').1, (lexemes_of_none hfirst).2,
        (lexemes_of_none hfirst').2]
      exact ⟨rfl, rfl, offset, h⟩
    | some found =>
      obtain ⟨l, rest⟩ := found
      obtain ⟨hlexemes, htrivia⟩ := lexemes_of_some hfirst
      rw [hlexemes] at hclosed hkept
      obtain ⟨m, rest', hfirst', hcontent, hline, hrest⟩ := lexeme?_kept h hfirst
        (hclosed l (by simp)) fun hliteral n hn hlt =>
          hkept ⟨l, offset + Text.size l.gap⟩ (by simp [Token.place]) hliteral n hn hlt
      have hlt : rest.length < n := hlength ▸ lexeme?_length hfirst
      have hkind : m.kind = l.kind := congrArg Prod.fst hcontent
      have hclosed' : ∀ l' ∈ lexemes (state.next l.kind) rest, l'.kind ≠ .unterminated :=
        fun l' hl' => hclosed l' (by simp [hl'])
      obtain ⟨hcontents, hlines, hstop⟩ := ih _ hlt hrest hclosed'
        (fun token htoken => hkept token (by simp [Token.place, htoken])) rfl
      rw [(lexemes_of_some hfirst').1, (lexemes_of_some hfirst').2, hlexemes, htrivia, hkind]
      exact ⟨by simp [hcontent, hcontents], by simp [hline, hlines], hstop⟩

/-- Trivia that leave no comment open still do not. -/
theorem leavesCommentOpen_respaced (h : Respaced fixed offset s t) :
    leavesCommentOpen t = leavesCommentOpen s := by
  induction hlength : s.length using Nat.strongRecOn generalizing offset s t with
  | _ n ih =>
    cases s with
    | nil => rw [h.eq_nil]
    | cons c s =>
      by_cases hcomment : startsComment c s
      · obtain ⟨rfl, hhead⟩ := hcomment
        obtain ⟨t', rfl, hrest⟩ := h.cons_of_ne (by decide)
        rcases hhead with hhead | hhead
        · obtain ⟨s, rfl⟩ := List.head?_eq_some_iff.mp hhead
          obtain ⟨t, rfl, hnext⟩ := hrest.cons_of_ne (by decide)
          have hlt : (scanLine s).rest.length < n := by
            have := scanLine_length s
            simp only [← hlength, List.length_cons]
            omega
          rw [leavesCommentOpen, leavesCommentOpen]
          exact ih _ hlt ((scanLine_respaced hnext).tight rfl) rfl
        · obtain ⟨s, rfl⟩ := List.head?_eq_some_iff.mp hhead
          obtain ⟨t, rfl, hnext⟩ := hrest.cons_of_ne (by decide)
          obtain ⟨hvalue, hstop⟩ := scanBlockComment_respaced hnext
          have hlt : (scanBlockComment s).rest.length < n := by
            have := scanBlockComment_length s
            simp only [← hlength, List.length_cons]
            omega
          rw [leavesCommentOpen, leavesCommentOpen, hvalue, ih _ hlt (hstop.tight rfl) rfl]
      · obtain ⟨t, rfl, before, after, s', t', hbefore, hafter, rfl, rfl, hrest⟩ := h.cons_loosely
        have hlt : s'.length < n := by
          rw [← hlength, List.length_cons, List.length_append]
          omega
        rw [leavesCommentOpen_cons hcomment,
          leavesCommentOpen_cons (mt h.startsComment_iff.mp hcomment),
          leavesCommentOpen_blank hbefore, leavesCommentOpen_blank hafter, ih _ hlt hrest rfl]

end

end ScriptBundle
