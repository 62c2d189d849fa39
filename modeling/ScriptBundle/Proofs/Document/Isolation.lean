import ScriptBundle.Document.Concatenation
import ScriptBundle.Proofs.Document.Reading
import ScriptBundle.Proofs.Report
import ScriptBundle.Proofs.Token.Relexing

/-!
# Bodies That Keep to Themselves

A body stands behind other code in the document. It is read there as it is read alone if nothing in
it depends on that code: it closes no bracket that it has not opened, and it starts with a token
that is the same everywhere. It may still leave brackets open, or a string that its line ends in.

## Main definitions

* `tokenContents`: the contents of the tokens of a text read alone;
* `KeepsToItself`: whether nothing in a body reaches over its front, or as a comment or template
  over its end.

## Main statements

* `KeepsToItself.lexemes_eq`: a body that keeps to itself has the same tokens in every state;
* `KeepsToItself.reads`: the document reads it as it is read alone, if all of its literals are
  closed.
-/

namespace ScriptBundle

/-! ### Tokens read alone -/

/-- The kinds of the tokens of a text that no reader skips the front of. -/
theorem tokenize_map_kind {s : Text} (h : hashbang s = []) :
    (tokenize s).map (·.kind) = (lexemes .initial s).map Lexeme.kind := by
  rw [tokenize_map Lexeme.kind, afterHashbang_eq_self h]

/-- The contents of the tokens of a text that no reader skips the front of. -/
theorem tokenize_map_content {s : Text} (h : hashbang s = []) :
    (tokenize s).map (·.content) = (lexemes .initial s).map Lexeme.content := by
  rw [tokenize_map Lexeme.content, afterHashbang_eq_self h]

/-- The contents of the tokens of a text read alone. -/
def tokenContents (s : Text) : List (TokenKind × Option Text) := (tokenize s).map (·.content)

/-- The lexemes of a text that no reader skips the front of are tokens of it. -/
theorem exists_token_of_mem {s : Text} {l : Lexeme} (h : hashbang s = [])
    (hl : l ∈ lexemes .initial s) : ∃ t ∈ tokenize s, t.toLexeme = l := by
  rw [← afterHashbang_eq_self h, ← tokenize_map_toLexeme] at hl
  exact List.mem_map.mp hl

/-- The first lexeme of a text that no reader skips the front of is its first token. -/
theorem head?_tokenize {s rest : Text} {l : Lexeme} (h : hashbang s = [])
    (hfirst : lexeme? .initial s = some (l, rest)) :
    (tokenize s).head? = some ⟨l, Text.size l.gap⟩ := by
  rw [tokenize_of_hashbang h, (lexemes_of_some hfirst).1, Token.place, Nat.zero_add]
  rfl

/-! ### Isolation -/

/-- Whether a body **keeps to itself**. It closes only brackets that it has opened, innermost first,
and leaves neither a template nor a comment open. It starts neither with a line that no one reads,
nor with a brace, nor with a regular expression that is not closed: behind other code these could be
something else. -/
structure KeepsToItself (body : Text) : Prop where
  nested : (dueAfter [] ((tokenize body).map (·.kind))).isSome = true
  templates : ∀ t ∈ tokenize body, t.kind = .unterminated → t.text.head? ≠ some '\x60'
  comments : leavesCommentOpen (trailingTrivia .initial body) = false
  hashbang : hashbang body = []
  brace : ∀ t, (tokenize body).head? = some t → t.kind ≠ .punctuator '\x7b'
  slash : ∀ t, (tokenize body).head? = some t → t.kind = .unterminated → t.text.head? ≠ some '/'

/-- The first token of a body does not start with a slash, unless a line that starts with it would
go on with the line before. -/
theorem head?_ne_slash {body rest : Text} {l : Lexeme}
    (hfirst : lexeme? .initial body = some (l, rest))
    (hopen : l.kind = .unterminated → l.text.head? ≠ some '/')
    (hstarts : l.kind.continuesPreviousLine = false) :
    (scanTrivia body).rest.head? ≠ some '/' := by
  intro hhead
  obtain ⟨tail, htail⟩ := List.head?_eq_some_iff.mp hhead
  simp only [lexeme?, htail, LexState.initial, scanToken_slash, Option.some.injEq,
    Prod.mk.injEq] at hfirst
  obtain ⟨rfl, -⟩ := hfirst
  cases hregex : (scanRegex tail).value with
  | true => simp [hregex, TokenKind.continuesPreviousLine] at hstarts
  | false => simp [hregex] at hopen

namespace KeepsToItself

variable {body : Text} (h : KeepsToItself body)
include h

/-- The first token of such a body opens and closes neither a parenthesis nor a brace, unless a line
that starts with it would go on with the line before. -/
theorem first_kind {rest : Text} {l : Lexeme} (hfirst : lexeme? .initial body = some (l, rest))
    (hstarts : l.kind.continuesPreviousLine = false) :
    l.kind ≠ .punctuator '(' ∧ l.kind ≠ .punctuator ')' ∧ l.kind ≠ .punctuator '\x7b' ∧
      l.kind ≠ .punctuator '\x7d' := by
  obtain ⟨due, hdue⟩ := Option.isSome_iff_exists.mp h.nested
  rw [tokenize_map_kind h.hashbang, (lexemes_of_some hfirst).1, List.map_cons] at hdue
  obtain ⟨next, hnext, -⟩ := exists_dueAfter hdue
  have hclosing : ∀ c, c = ')' ∨ c = ']' ∨ c = '\x7d' → l.kind ≠ .punctuator c := by
    intro c hc hkind
    rw [hkind] at hnext
    simpa using expectedAfter_of_closing hc hnext
  refine ⟨?_, hclosing _ (.inl rfl), ?_, hclosing _ (.inr (.inr rfl))⟩
  · intro hkind
    simp [hkind, TokenKind.continuesPreviousLine] at hstarts
  · exact h.brace _ (head?_tokenize h.hashbang hfirst)

/-- A body that keeps to itself and goes on with no line before it has the same tokens in every
state. -/
theorem lexemes_eq (hstarts : ∀ l rest, lexeme? .initial body = some (l, rest) →
      l.kind.continuesPreviousLine = false) (state : LexState) :
    lexemes state body = lexemes .initial body ∧
      trailingTrivia state body = trailingTrivia .initial body := by
  cases hfirst : lexeme? .initial body with
  | none =>
    have hhead : (scanTrivia body).rest.head? ≠ some '/' := by
      simp [scanTrivia_rest_of_none hfirst]
    have hsame := lexeme?_eq_of_ne_slash hhead state .initial
    rw [hfirst] at hsame
    rw [(lexemes_of_none hsame).1, (lexemes_of_none hsame).2, (lexemes_of_none hfirst).1,
      (lexemes_of_none hfirst).2]
    exact ⟨rfl, rfl⟩
  | some found =>
    obtain ⟨l, rest⟩ := found
    have hlexemes := (lexemes_of_some hfirst).1
    have hhead := head?_ne_slash hfirst (h.slash _ (head?_tokenize h.hashbang hfirst))
      (hstarts l rest hfirst)
    have hsame := lexeme?_eq_of_ne_slash hhead state .initial
    rw [hfirst] at hsame
    obtain ⟨hopen, hclose, hbrace, hbrace'⟩ := h.first_kind hfirst (hstarts l rest hfirst)
    have hwithin : LexState.Within state.heads state.blocks (LexState.initial.next l.kind)
        (state.next l.kind) := by
      constructor <;> simp [LexState.next_regexAllowed, LexState.next_heads, LexState.next_blocks,
        hopen, hclose, hbrace, hbrace', LexState.initial]
    obtain ⟨due, hdue⟩ := Option.isSome_iff_exists.mp h.nested
    rw [tokenize_map_kind h.hashbang, hlexemes, List.map_cons] at hdue
    obtain ⟨next, hnext, hrest⟩ := exists_dueAfter hdue
    have htail := lexemes_within hwithin (LexState.tracks_initial.next hnext) hrest
    rw [(lexemes_of_some hsame).1, (lexemes_of_some hsame).2, hlexemes, (lexemes_of_some hfirst).2,
      htail.1, htail.2]
    exact ⟨rfl, rfl⟩

end KeepsToItself

/-! ### Bodies of modules -/

/-- A guarded body goes on with no line before it, if no reader skips its front. -/
theorem starts_of_guarded {body rest : Text} {l : Lexeme} (hhashbang : hashbang (guarded body) = [])
    (hfirst : lexeme? .initial (guarded body) = some (l, rest)) :
    l.kind.continuesPreviousLine = false := by
  unfold guarded at hhashbang hfirst
  split at hfirst
  · next m _ hm =>
    split at hfirst
    · rw [lexeme?_semicolon] at hfirst
      obtain ⟨rfl, -⟩ : _ = l ∧ _ = rest := by simpa using hfirst
      rfl
    · next hcontinues =>
      simp only [hm, if_neg hcontinues] at hhashbang
      rw [afterHashbang_eq_self hhashbang, hfirst] at hm
      obtain ⟨rfl, -⟩ : l = m ∧ rest = _ := by simpa using hm
      simpa using hcontinues
  · next hm =>
    simp only [hm] at hhashbang
    rw [afterHashbang_eq_self hhashbang, hfirst] at hm
    simp at hm

/-- The indentation of a document is white space on one line. -/
theorem isBlankText_indent (style : DocumentStyle) :
    IsBlankText style.indent ∧ '\n' ∉ style.indent :=
  isBlankText_spaces style.indentWidth

namespace KeepsToItself

variable {source body : Text} (h : KeepsToItself body) (hbody : moduleBody source = .ok body)
include h hbody

/-- The body of a module that keeps to itself has the same tokens in every state. -/
theorem lexemes_moduleBody (state : LexState) :
    lexemes state body = lexemes .initial body ∧
      trailingTrivia state body = trailingTrivia .initial body := by
  refine h.lexemes_eq ?_ state
  obtain ⟨stripped, -, rfl⟩ := map_eq_ok_iff.mp hbody
  exact fun l rest => starts_of_guarded h.hashbang

/-- An indented body is read as the body alone, if all of its literals are closed. -/
theorem reads (hclosed : ∀ t ∈ tokenize body, t.kind ≠ .unterminated) (style : DocumentStyle)
    (state : LexState) : Reads state (indentBody style.indent body) (tokenContents body) := by
  obtain ⟨hlexemes, htrivia⟩ := h.lexemes_moduleBody hbody state
  obtain ⟨hblank, hfeed⟩ := isBlankText_indent style
  have hkinds : ∀ l ∈ lexemes .initial body, l.kind ≠ .unterminated := by
    intro l hl
    obtain ⟨t, ht, rfl⟩ := exists_token_of_mem h.hashbang hl
    exact hclosed t ht
  obtain ⟨hcontents, -, hopen⟩ := indentBody_contents hblank hfeed h.hashbang hlexemes
    (hlexemes ▸ hkinds)
  rw [hlexemes] at hcontents
  rw [htrivia, h.comments] at hopen
  refine ⟨⟨?_, hopen⟩, by rw [hcontents, tokenContents, tokenize_map_content h.hashbang]⟩
  intro l hl
  have hmem := List.mem_map_of_mem (f := Lexeme.content) hl
  rw [hcontents] at hmem
  obtain ⟨m, hm, hmatch⟩ := List.mem_map.mp hmem
  have hkind : m.kind = l.kind := congrArg Prod.fst hmatch
  exact hkind ▸ hkinds m hm

end KeepsToItself

end ScriptBundle
