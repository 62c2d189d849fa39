import ScriptBundle.Document.Body
import ScriptBundle.Proofs.Module.Edits

/-!
# Separation of Statements

A statement may end with its line, unless the next line goes on with it. Where a whole statement is
taken out and in front of a body a semicolon keeps the statement before apart from a token that
starts in such a way. A literal that is not closed is no such token, whatever it starts with.

## Main definitions

* `continuesLine`: whether what starts with a character goes on with the line before;
* `SyntaxForm.leavesStatement`: whether what is taken out leaves a statement of its own behind it.

## Main statements

* `Lexeme.continues_iff`: which tokens are taken to go on with the line before;
* `statements_kept_apart`: in front of which tokens there is a semicolon.
-/

namespace ScriptBundle

/-! ### Tokens that go on with a line -/

/-- Whether a statement that starts with this character goes on with the line before, if there is no
semicolon at its end. -/
def continuesLine (c : Char) : Bool := ['(', '[', '\x60', '+', '-', '/'].contains c

/-- Whether a token starts with such a character. -/
def Lexeme.opensContinuation (l : Lexeme) : Bool := l.text.head?.any continuesLine

/-- The characters that go on with a line start neither names nor numbers nor strings. -/
theorem not_continuesLine {c : Char}
    (h : isIdentifierStart c = true ∨ c.isDigit = true ∨ c = '\'' ∨ c = '"') :
    continuesLine c = false := by
  rw [← Bool.not_eq_true]
  intro hcontinues
  have hchar : c = '(' ∨ c = '[' ∨ c = '\x60' ∨ c = '+' ∨ c = '-' ∨ c = '/' := by
    simpa [continuesLine] using hcontinues
  rcases hchar with rfl | rfl | rfl | rfl | rfl | rfl <;> exact absurd h (by decide)

/-- The tokens that are taken to go on with the line before are those that start with such a
character and are closed. -/
theorem Lexeme.continues_iff {state : LexState} {s rest : Text} {l : Lexeme}
    (h : lexeme? state s = some (l, rest)) :
    l.kind.continuesPreviousLine = true ↔
      l.opensContinuation = true ∧ l.kind ≠ .unterminated := by
  obtain ⟨c, tail, htext, -, -, crosses, htoken⟩ := exists_cons_of_lexeme? h
  have hopens : l.opensContinuation = continuesLine c := by simp [opensContinuation, htext]
  have hkind := congrArg (·.value.1) htoken
  simp only at hkind
  rw [hopens, ← hkind]
  -- A literal is scanned to its end before it is known whether it is closed.
  cases tokenStart state.regexAllowed c with
  | identifier hname =>
    rw [scanToken_identifier hname, not_continuesLine (.inl hname)]
    simp [TokenKind.continuesPreviousLine]
  | number hname hdigit =>
    rw [scanToken_number hname hdigit, not_continuesLine (.inr (.inl hdigit))]
    simp [TokenKind.continuesPreviousLine]
  | quote hquote =>
    rw [scanToken_quote hquote, not_continuesLine (.inr (.inr hquote))]
    cases hvalue : (scanString c (tail ++ rest)).value <;>
      simp [TokenKind.continuesPreviousLine, hvalue]
  | backquote htick =>
    subst htick
    rw [scanToken_backquote]
    cases hclosed : (scanTemplate (.text []) (tail ++ rest)).value.closed <;>
      simp [TokenKind.continuesPreviousLine, continuesLine, hclosed]
  | regex hslash hallowed =>
    subst hslash
    rw [hallowed, scanToken_slash]
    cases hclosed : (scanRegex (tail ++ rest)).value <;>
      simp [TokenKind.continuesPreviousLine, continuesLine, hclosed]
  | other hname hdigit hquote htick hslash =>
    rw [scanToken_other hname hdigit hquote htick hslash]
    simp [TokenKind.continuesPreviousLine, continuesLine, htick, or_assoc]

/-- The tokens of a source that are taken to go on with the line before. -/
theorem Token.continues_iff {s : Text} {t : Token} (h : t ∈ tokenize s) :
    t.kind.continuesPreviousLine = true ↔ t.opensContinuation = true ∧ t.kind ≠ .unterminated :=
  forall_mem_lexemes Lexeme.continues_iff _ (toLexeme_mem_lexemes h)

/-! ### Statements that are taken out -/

/-- Whether a value that starts with these tokens is neither an object, a function nor a class. -/
def opensPlainValue : List TokenKind → Bool
  | .punctuator '{' :: _ => false
  | .identifier "function" :: _ => false
  | .identifier "async" :: .identifier "function" :: _ => false
  | .identifier "class" :: _ => false
  | _ => true

/-- Whether what is taken out leaves no part of its statement that starts like one: an import or an
export list leaves nothing, and a default value is left if it is a plain one. -/
def SyntaxForm.leavesStatement (form : SyntaxForm) (behind : List TokenKind) : Bool :=
  match form with
  | importDeclaration => true
  | exportList => true
  | exportKeyword => false
  | exportDefault => opensPlainValue behind

/-- The kind that a cursor looks at is that of the next token. -/
theorem exists_of_peek {previous : Option Token} {ts : List Token} {kind : TokenKind}
    (h : (Cursor.peek ⟨previous, ts⟩).any (·.kind == kind) = true) :
    ∃ t rest, ts = t :: rest ∧ t.kind = kind := by
  obtain ⟨t, ht, hkind⟩ := (Option.any_eq_true _ _).mp h
  obtain ⟨rest, rfl⟩ := List.head?_eq_some_iff.mp ht
  exact ⟨t, rest, rfl, by simpa using hkind⟩

/-- A plain default value is kept apart like any other statement. -/
theorem defaultReplacement_of_plain {previous : Option Token} {behind : List Token}
    (h : opensPlainValue (behind.map (·.kind)) = true) :
    defaultReplacement ⟨previous, behind⟩ =
      if behind.head?.any (·.kind.continuesPreviousLine) then .semicolon else .nothing := by
  have hbrace : Cursor.atPunctuator ⟨previous, behind⟩ '{' = false := by
    rw [← Bool.not_eq_true]
    intro hat
    obtain ⟨t, rest, rfl, hkind⟩ := exists_of_peek hat
    simp [opensPlainValue, hkind] at h
  have hform : defaultForm ⟨previous, behind⟩ = .expression := by
    have hname : ∀ {name : String}, Cursor.atName ⟨previous, behind⟩ name = true →
        name ≠ "function" ∧ name ≠ "class" := by
      intro name hat
      obtain ⟨t, rest, rfl, hkind⟩ := exists_of_peek hat
      refine ⟨?_, ?_⟩
      · rintro rfl
        simp [opensPlainValue, hkind] at h
      · rintro rfl
        simp [opensPlainValue, hkind] at h
    have hasync : ¬(Cursor.atName ⟨previous, behind⟩ "async" &&
        (Cursor.peekNth ⟨previous, behind⟩ 1).any (·.isName "function")) = true := by
      intro hboth
      obtain ⟨hat, hnext⟩ := Bool.and_eq_true_iff.mp hboth
      obtain ⟨t, rest, rfl, hkind⟩ := exists_of_peek hat
      cases rest with
      | nil => cases hnext
      | cons second rest =>
        have hsecond : second.kind = .identifier "function" := by
          simpa [Cursor.peekNth, Token.isName] using hnext
        simp [opensPlainValue, hkind, hsecond] at h
    rw [defaultForm, if_neg fun hat => (hname hat).1 rfl, if_neg hasync,
      if_neg fun hat => (hname hat).2 rfl]
  rw [defaultReplacement, hbrace, hform]
  rfl

/-- Where a statement is taken out, a semicolon stays in front of a token that goes on with the line
before, and in front of no other. -/
theorem SyntaxForm.replacement_eq_semicolon_iff {form : SyntaxForm} {behind : List Token}
    (h : form.leavesStatement (behind.map (·.kind)) = true) :
    form.replacement behind = .semicolon ↔
      ∃ next ∈ behind.head?, next.kind.continuesPreviousLine = true := by
  have hreplacement : form.replacement behind =
      if behind.head?.any (·.kind.continuesPreviousLine) then .semicolon else .nothing := by
    cases form with
    | importDeclaration => rfl
    | exportList => rfl
    | exportKeyword => cases h
    | exportDefault => exact defaultReplacement_of_plain h
  rw [hreplacement]
  cases behind with
  | nil => simp
  | cons next rest => cases hnext : next.kind.continuesPreviousLine <;> simp [hnext]

/-! ### Bodies -/

/-- No body starts with a token that goes on with the line before. -/
theorem not_continues_guarded {body : Text} :
    ∀ first ∈ (tokenize (guarded body)).head?, first.kind.continuesPreviousLine = false := by
  intro first hfirst
  have hlexeme : first.toLexeme ∈ (lexemes .initial (afterHashbang (guarded body))).head? := by
    rw [← tokenize_map_toLexeme, List.head?_map]
    exact Option.mem_map_of_mem _ hfirst
  rw [guarded] at hlexeme
  split at hlexeme
  · next l rest hl =>
    split at hlexeme
    · rw [afterHashbang_eq_self rfl, (lexemes_of_some (lexeme?_semicolon _ _)).1] at hlexeme
      rw [← Option.some.inj hlexeme]
      rfl
    · next hcontinues =>
      rw [(lexemes_of_some hl).1] at hlexeme
      rw [← Option.some.inj hlexeme]
      simpa using hcontinues
  · next hnone =>
    rw [(lexemes_of_none hnone).1] at hlexeme
    cases hlexeme

/-- **Statements are kept apart.** Where a statement is taken out of a source, a semicolon stays
behind exactly if the next token starts with a character that goes on with the line before, and is
no literal that is not closed; and a body starts with no other token of that sort. -/
theorem statements_kept_apart (source : Text) :
    (∀ found, Interface.read source = .ok found → ∀ edit ∈ found.edits, ∀ form : SyntaxForm,
      form.Matches ((edit.span.tokens (tokenize source)).map (·.kind))
        ((edit.span.tokensBehind (tokenize source)).map (·.kind)) →
      form.leavesStatement ((edit.span.tokensBehind (tokenize source)).map (·.kind)) = true →
      (edit.replacement = .semicolon ↔
        ∃ next ∈ (edit.span.tokensBehind (tokenize source)).head?,
          next.opensContinuation = true ∧ next.kind ≠ .unterminated)) ∧
      ∀ body, moduleBody source = .ok body → ∀ first ∈ (tokenize body).head?,
        first.opensContinuation = true → first.kind = .unterminated := by
  constructor
  · intro found hread edit hedit form hmatches hleaves
    obtain ⟨-, -, -, -, -, -, hreplaces⟩ := exists_statement_of_edit hread hedit
    rw [hreplaces.leaves form hmatches, SyntaxForm.replacement_eq_semicolon_iff hleaves]
    refine exists_congr fun next => and_congr_right fun hnext =>
      Token.continues_iff (s := source) ?_
    exact List.mem_of_mem_filter (List.mem_of_mem_head? hnext)
  · intro body hbody first hfirst hopens
    obtain ⟨stripped, -, rfl⟩ := map_eq_ok_iff.mp hbody
    by_contra hclosed
    have hcontinues := (Token.continues_iff (List.mem_of_mem_head? hfirst)).mpr ⟨hopens, hclosed⟩
    rw [not_continues_guarded first hfirst] at hcontinues
    cases hcontinues

/-- A source with an import in front of a template that is not closed. -/
def openSource : Text := "import 'a'\n\x60b".toList

/-- Such a template is kept apart from nothing, though it would go on with a line. -/
theorem statements_kept_apart_of_open :
    (∃ found, Interface.read openSource = .ok found ∧ ∃ edit ∈ found.edits,
      edit.replacement ≠ .semicolon ∧
      ∃ next ∈ (edit.span.tokensBehind (tokenize openSource)).head?,
        next.opensContinuation = true) ∧
      ∃ body, moduleBody openSource = .ok body ∧ ∃ first ∈ (tokenize body).head?,
        first.opensContinuation = true ∧ first.kind = .unterminated := by
  have hread : Interface.read openSource = .ok
      { imports := [⟨.nothing, "a"⟩], exports := [], edits := [⟨⟨0, 10⟩, .nothing⟩] } := by
    simp only [Interface.read, Cursor.ofSource, tokenize_eq_upTo]
    cbv
  have htokens : tokenize openSource =
      [⟨⟨[], "import".toList, .identifier "import", false⟩, 0⟩,
        ⟨⟨[' '], "'a'".toList, .string "a", false⟩, 7⟩,
        ⟨⟨['\n'], "\x60b".toList, .unterminated, true⟩, 11⟩] := by
    simp only [tokenize_eq_upTo]
    cbv
  have hbody : moduleBody openSource = .ok "\x60b".toList := by
    simp only [moduleBody, strip, Interface.read, Cursor.ofSource, tokenize_eq_upTo]
    cbv
  have hfirst : tokenize "\x60b".toList = [⟨⟨[], "\x60b".toList, .unterminated, false⟩, 0⟩] := by
    simp only [tokenize_eq_upTo]
    cbv
  have hbehind : Span.tokensBehind ⟨0, 10⟩ (tokenize openSource) =
      [⟨⟨['\n'], "\x60b".toList, .unterminated, true⟩, 11⟩] := by
    rw [htokens]
    cbv
  obtain ⟨hedits, hbodies⟩ := statements_kept_apart openSource
  refine ⟨⟨_, hread, ⟨⟨0, 10⟩, .nothing⟩, List.mem_singleton_self _, ?_, ?_⟩,
    _, hbody, ⟨⟨[], "\x60b".toList, .unterminated, false⟩, 0⟩, by rw [hfirst]; rfl, by cbv, ?_⟩
  · have hiff := hedits _ hread _ (List.mem_singleton_self _) .importDeclaration
    simp only [htokens] at hiff
    rw [Ne, hiff ⟨[], "a", .bare, .inl (by cbv)⟩ rfl]
    rintro ⟨next, hnext, -, hclosed⟩
    obtain rfl := Option.some.inj hnext
    exact hclosed rfl
  · rw [hbehind]
    exact ⟨_, rfl, by cbv⟩
  · exact hbodies _ hbody _ (by rw [hfirst]; rfl) (by cbv)

end ScriptBundle
