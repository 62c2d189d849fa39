import ScriptBundle.Proofs.Module.Edits
import ScriptBundle.Proofs.Module.Operands
import ScriptBundle.Proofs.Module.Swallowing
import ScriptBundle.Proofs.Token.Facing

/-!
# Default Declarations

A function or class without a name stands alone as a default value only, and becomes the operand of
`void` once `export default` is taken out. A declaration ends with its body, but an operand does
not: where no semicolon stands behind the body, the expression goes on with the next token.

## Main definitions

* `IsSelfContained`: whether tokens close their own brackets only and start no module statement;
* `IsAnonymousDeclaration`: whether tokens are a function or a class without a name.

## Main statements

* `defaultReplacement_of_anonymous`: such a value becomes an operand;
* `strip_of_anonymous`: what is left of it stands directly in front of the next token.
-/

namespace ScriptBundle

/-! ### Tokens that are passed -/

/-- As many brackets are open behind tokens as are due there. -/
theorem foldl_depthAfter {expected due : List Char} {kinds : List TokenKind}
    (h : dueAfter expected kinds = some due) (around : Nat) :
    kinds.foldl depthAfter (around + expected.length) = around + due.length := by
  induction kinds generalizing expected with
  | nil =>
    obtain rfl : expected = due := by simpa using h
    rfl
  | cons kind kinds ih =>
    obtain ⟨next, hnext, hkinds⟩ := exists_dueAfter h
    rw [List.foldl_cons, depthAfter_of_expectedAfter hnext, ih hkinds]

/-- No word stands bare inside of brackets. -/
theorem hasBareWord_inside {expected due : List Char} {kinds : List TokenKind}
    (h : dueAfter expected kinds = some due) (previous after : Option TokenKind) :
    hasBareWord (1 + expected.length) previous kinds after = false := by
  induction kinds generalizing expected previous with
  | nil => rfl
  | cons kind kinds ih =>
    obtain ⟨next, hnext, hkinds⟩ := exists_dueAfter h
    rw [hasBareWord_cons_of_false (isBareWord_eq_false (.inl (by omega)) _),
      depthAfter_of_expectedAfter hnext, ih hkinds]

/-- Whether tokens are **self-contained**: they close their own brackets only, and no word among
them starts a module statement. -/
structure IsSelfContained (kinds : List TokenKind) : Prop where
  balanced : dueAfter [] kinds = some []
  bare : ∀ previous after, hasBareWord 0 previous kinds after = false

namespace IsSelfContained

theorem append {kinds others : List TokenKind} (h : IsSelfContained kinds)
    (hothers : IsSelfContained others) : IsSelfContained (kinds ++ others) where
  balanced := by
    have happend := dueAfter_append h.balanced [] others
    rw [List.append_nil] at happend
    exact happend.trans hothers.balanced
  bare previous after := by
    have hdepth : kinds.foldl depthAfter 0 = 0 := foldl_depthAfter h.balanced 0
    rw [hasBareWord_append, h.bare, hdepth, hothers.bare, Bool.or_false]

/-- A token that is no bracket and no word of a module statement. -/
theorem single {kind : TokenKind} (hopening : kind.isOpening = false)
    (hclosing : kind.isClosing = false) (hword : kind ≠ .identifier "import" ∧
      kind ≠ .identifier "export") : IsSelfContained [kind] where
  balanced := by
    rw [dueAfter_cons, expectedAfter_of_other hopening hclosing]
    rfl
  bare previous after := by
    rw [hasBareWord_cons_of_false (isBareWord_eq_false (.inr (.inr hword)) _)]
    rfl

/-- Tokens in brackets, whatever words are among them. -/
theorem inBrackets {opening closing : Char} (hclosing : closingOf opening = some closing)
    {inside : List TokenKind} (h : isBalanced [] inside = true) :
    IsSelfContained (.punctuator opening :: (inside ++ [.punctuator closing])) where
  balanced := by
    have hinside := dueAfter_append (isBalanced_iff.mp h) [closing] [.punctuator closing]
    have hclose : expectedAfter [closing] (.punctuator closing) = some [] := by
      unfold closingOf at hclosing
      split at hclosing
      all_goals cases hclosing
      all_goals rfl
    rw [dueAfter_cons, expectedAfter_of_opening hclosing, Option.bind_some]
    refine hinside.trans ?_
    rw [List.nil_append, dueAfter_cons, hclose]
    rfl
  bare previous after := by
    -- The bracket stays open up to the last token, and inside of it no word is bare.
    have hinside := isBalanced_iff.mp h
    have hopen := depthAfter_of_expectedAfter (expectedAfter_of_opening hclosing []) 0
    have hdepth := foldl_depthAfter hinside 1
    have hnone := hasBareWord_inside hinside
    rw [List.length_nil, Nat.add_zero] at hdepth hnone hopen
    rw [hasBareWord_cons_of_false (isBareWord_eq_false (.inr (.inr ⟨by simp, by simp⟩)) _), hopen,
      List.length_singleton, Nat.zero_add, hasBareWord_append, hnone, hdepth, Bool.false_or,
      hasBareWord_cons_of_false (isBareWord_eq_false (.inl Nat.one_ne_zero) _)]
    rfl

end IsSelfContained

/-! ### Declarations without a name -/

/-- Tokens in parentheses. -/
def inParentheses (inside : List TokenKind) : List TokenKind :=
  .punctuator '(' :: (inside ++ [.punctuator ')'])

/-- Tokens in braces. -/
def inBraces (inside : List TokenKind) : List TokenKind :=
  .punctuator '{' :: (inside ++ [.punctuator '}'])

/-- A function without a name, from the word `function` on. -/
inductive IsAnonymousFunction : List TokenKind → Prop
  | plain {parameters body : List TokenKind} (hparameters : isBalanced [] parameters = true)
      (hbody : isBalanced [] body = true) :
      IsAnonymousFunction (.identifier "function" :: (inParentheses parameters ++ inBraces body))
  | generator {parameters body : List TokenKind} (hparameters : isBalanced [] parameters = true)
      (hbody : isBalanced [] body = true) :
      IsAnonymousFunction
        (.identifier "function" :: .punctuator '*' :: (inParentheses parameters ++ inBraces body))

/-- A **function or class without a name**. -/
inductive IsAnonymousDeclaration : List TokenKind → Prop
  | plainFunction {kinds : List TokenKind} (h : IsAnonymousFunction kinds) :
      IsAnonymousDeclaration kinds
  | asyncFunction {kinds : List TokenKind} (h : IsAnonymousFunction kinds) :
      IsAnonymousDeclaration (.identifier "async" :: kinds)
  | plainClass {body : List TokenKind} (hbody : isBalanced [] body = true) :
      IsAnonymousDeclaration (.identifier "class" :: inBraces body)
  | derivedClass {parent body : List TokenKind} (hparent : IsSelfContained parent)
      (hbody : isBalanced [] body = true) :
      IsAnonymousDeclaration
        (.identifier "class" :: .identifier "extends" :: (parent ++ inBraces body))

theorem IsAnonymousFunction.isSelfContained {kinds : List TokenKind}
    (h : IsAnonymousFunction kinds) :
    IsSelfContained kinds := by
  have hword : IsSelfContained [.identifier "function"] := .single rfl rfl ⟨by decide, by decide⟩
  have hstar : IsSelfContained [.punctuator '*'] := .single rfl rfl ⟨by simp, by simp⟩
  cases h with
  | plain hparameters hbody =>
    exact hword.append ((IsSelfContained.inBrackets rfl hparameters).append (.inBrackets rfl hbody))
  | generator hparameters hbody =>
    exact hword.append (hstar.append
      ((IsSelfContained.inBrackets rfl hparameters).append (.inBrackets rfl hbody)))

theorem IsAnonymousDeclaration.isSelfContained {kinds : List TokenKind}
    (h : IsAnonymousDeclaration kinds) : IsSelfContained kinds := by
  have hword : ∀ {name : String}, name = "async" ∨ name = "class" ∨ name = "extends" →
      IsSelfContained [.identifier name] := by
    rintro name (rfl | rfl | rfl) <;> exact .single rfl rfl ⟨by decide, by decide⟩
  cases h with
  | plainFunction h => exact h.isSelfContained
  | asyncFunction h => exact (hword (.inl rfl)).append h.isSelfContained
  | plainClass hbody => exact (hword (.inr (.inl rfl))).append (.inBrackets rfl hbody)
  | derivedClass hparent hbody =>
    exact (hword (.inr (.inl rfl))).append
      ((hword (.inr (.inr rfl))).append (hparent.append (.inBrackets rfl hbody)))

section

variable {c : Cursor} {kinds : List TokenKind}

/-- Whether a name follows goes by the kinds of the next tokens. -/
theorem nameFollows_faces (h : c.Faces kinds) (n : Nat) :
    nameFollows c n =
      kinds[if kinds[n + 1]?.any (· == .punctuator '*') then n + 2 else n + 1]?.any
        (·.name?.isSome) := by
  have hstar : (c.peekNth (n + 1)).any (·.isPunctuator '*') =
      kinds[n + 1]?.any (· == .punctuator '*') :=
    h.any_peekNth (· == .punctuator '*') (n + 1)
  rw [nameFollows]
  simp only [hstar]
  exact h.any_peekNth (·.name?.isSome) _

/-- A function or class without a name becomes an operand. -/
theorem defaultReplacement_of_anonymous {behind : List TokenKind}
    (hkinds : IsAnonymousDeclaration kinds) (h : c.Faces (kinds ++ behind)) :
    defaultReplacement c = .voidOperator := by
  have hform : defaultForm c = .anonymousDeclaration := by
    have hsecond : (c.peekNth 1).any (·.isName "function") =
        (kinds ++ behind)[1]?.any (· == .identifier "function") :=
      h.any_peekNth (· == .identifier "function") 1
    have hclass : ((c.peekNth 1).bind (·.kind.name?)).any (· != "extends") =
        (kinds ++ behind)[1]?.any fun kind => kind.name?.any (· != "extends") := by
      rw [Option.any_bind]
      exact h.any_peekNth (fun kind => kind.name?.any (· != "extends")) 1
    rw [defaultForm, h.atName, h.atName, h.atName, hsecond, hclass, nameFollows_faces h,
      nameFollows_faces h]
    cases hkinds with
    | plainFunction hfunction => cases hfunction <;> rfl
    | asyncFunction hfunction => cases hfunction <;> rfl
    | plainClass => rfl
    | derivedClass => rfl
  rw [defaultReplacement, hform]
  simp

end

/-! ### What is left of them -/

/-- A default export takes out its two words and leaves the cursor in front of the value. -/
theorem moduleStatement_default {previous : Option Token} {keyword word value : Token}
    {rest : List Token} {a : Advance ⟨previous, keyword :: word :: value :: rest⟩ Interface}
    (hkeyword : keyword.kind = .identifier "export") (hword : word.kind = .identifier "default")
    (h : moduleStatement 0 ⟨previous, keyword :: word :: value :: rest⟩ = .ok (some a)) :
    a.cursor = ⟨some word, value :: rest⟩ ∧ a.value.edits =
      [⟨⟨keyword.start, value.start⟩, defaultReplacement ⟨some word, value :: rest⟩⟩] := by
  have hplace := (moduleStatement_cut h).2.1
  have himport : Cursor.atName ⟨previous, keyword :: word :: value :: rest⟩ "import" = false := by
    simp [Cursor.atName, Cursor.peek, Token.isName, hkeyword]
  have hexport : Cursor.atName ⟨previous, keyword :: word :: value :: rest⟩ "export" = true := by
    simp [Cursor.atName, Cursor.peek, Token.isName, hkeyword]
  rw [moduleStatement, if_pos ⟨rfl, hplace⟩, himport, if_neg Bool.false_ne_true, if_pos hexport]
    at h
  simp only [exportStatement, Cursor.bump, hword, if_true, defaultExport, Cursor.peek,
    List.head?_cons, Except.map] at h
  obtain rfl := Option.some.inj (Except.ok.inj h)
  exact ⟨rfl, rfl⟩

section

variable {source : Text} {found : Interface} {edit : Edit} {first next : Token}
  {others rest : List Token}

/-- A default value without a name is kept as a whole behind the operator that makes an operand of
it, and so is the token behind it. -/
theorem exists_cutInto_of_anonymous (hread : Interface.read source = .ok found)
    (hedit : edit ∈ found.edits)
    (hwords : (edit.span.tokens (tokenize source)).map (·.kind) =
      [.identifier "export", .identifier "default"])
    (hbehind : edit.span.tokensBehind (tokenize source) = first :: others ++ next :: rest)
    (hdeclaration : IsAnonymousDeclaration ((first :: others).map (·.kind)))
    (hnext : next.isModuleKeyword = false) :
    edit.replacement = .voidOperator ∧ ∃ front keyword word back,
      CutInto (tokenize source) found.edits (front ++ .cut keyword [word] .voidOperator true ::
        ((first :: others).map .kept ++ .kept next :: back)) := by
  obtain ⟨c, a, hreads, hstatement, hmem, hrest, -⟩ := exists_statement_of_edit hread hedit
  obtain ⟨keyword, words, htokens, hkeyword, hwords⟩ := List.map_eq_cons_iff.mp hwords
  obtain ⟨word, nothing, rfl, hword, hwords⟩ := List.map_eq_cons_iff.mp hwords
  obtain rfl := List.map_eq_nil_iff.mp hwords
  rw [hbehind, htokens] at hrest
  obtain ⟨previous, ts⟩ := c
  obtain rfl : ts = keyword :: word :: (first :: others ++ next :: rest) := hrest
  have hdefault : a.cursor = ⟨some word, first :: others ++ next :: rest⟩ ∧ a.value.edits =
      [⟨⟨keyword.start, first.start⟩,
        defaultReplacement ⟨some word, first :: others ++ next :: rest⟩⟩] :=
    moduleStatement_default hkeyword hword hstatement
  have hfaces : Cursor.Faces ⟨some word, first :: others ++ next :: rest⟩
      ((first :: others).map (·.kind) ++ (next :: rest).map (·.kind)) := by
    simp [Cursor.Faces]
  obtain ⟨hcursor, hedits⟩ := hdefault
  rw [defaultReplacement_of_anonymous hdeclaration hfaces] at hedits
  rw [hedits] at hmem
  obtain rfl := List.mem_singleton.mp hmem
  refine ⟨rfl, ?_⟩
  -- The reader passes the declaration, so that the next edit is of the token behind it or later.
  obtain ⟨passed, front, further, -, hfurther, hcut⟩ := hreads.exists_front hread
  rw [interfaceFrom_of_statement hstatement] at hfurther
  obtain ⟨found', hfound', rfl⟩ := map_eq_ok_iff.mp hfurther
  have hself := hdeclaration.isSelfContained
  have hdepth : depthBehind 0 (first :: others) = 0 := by
    have hfold := foldl_depthAfter hself.balanced 0
    rwa [List.foldl_map] at hfold
  rw [hcursor, interfaceFrom_append (hself.bare _ _), hdepth] at hfound'
  obtain ⟨pieces, hpieces⟩ := exists_cutInto hfound'
  obtain ⟨back, rfl, -⟩ := CutInto.exists_kept hpieces hnext
  have hpasses : Cursor.Passes ⟨previous, keyword :: word :: (first :: others ++ next :: rest)⟩
      [keyword, word] ⟨some word, first :: others ++ next :: rest⟩ := ⟨rfl, rfl⟩
  have hexport : keyword.isModuleKeyword = true :=
    Token.isModuleKeyword_of_export (by simp [Token.isName, hkeyword])
  refine ⟨front, keyword, word, back, hcut ?_⟩
  rw [Interface.append_edits, hedits]
  exact CutInto.behind_defaultValue (hpieces.keptAll (first :: others)) hpasses hexport rfl _

/-- **Default declarations run on.** A function or class without a name becomes the operand of
`void`, and what stands behind its body stays as it is: in front of the next token, even if that
goes on with the line before, there is the gap of the source and no semicolon. Only a word that may
start a module statement is left out here. -/
theorem strip_of_anonymous (hread : Interface.read source = .ok found) (hedit : edit ∈ found.edits)
    (hwords : (edit.span.tokens (tokenize source)).map (·.kind) =
      [.identifier "export", .identifier "default"])
    (hbehind : edit.span.tokensBehind (tokenize source) = first :: others ++ next :: rest)
    (hdeclaration : IsAnonymousDeclaration ((first :: others).map (·.kind)))
    (hnext : next.isModuleKeyword = false) :
    edit.replacement = .voidOperator ∧ IsTrivia next.gap ∧
      ∃ before behind, strip source = .ok (before ++ ("void ".toList ++
        (first.text ++ (writeTokens others ++ (next.gap ++ (next.text ++ behind)))))) := by
  obtain ⟨hreplacement, front, keyword, word, back, hcut⟩ :=
    exists_cutInto_of_anonymous hread hedit hwords hbehind hdeclaration hnext
  have hgap : IsTrivia next.gap := by
    have hmem : next ∈ edit.span.tokensBehind (tokenize source) := by simp [hbehind]
    exact forall_mem_lexemes isTrivia_gap _ (toLexeme_mem_lexemes (List.mem_of_mem_filter hmem))
  refine ⟨hreplacement, hgap, ?_⟩
  have hstrip := strip_eq_of_cutInto hread hcut
  obtain ⟨before, bare, hwritten⟩ := exists_writePieces_append front
    (.cut keyword [word] .voidOperator true :: ((first :: others).map .kept ++ .kept next :: back))
    false (trailingTrivia .initial (afterHashbang source))
  rw [hwritten, writePieces, List.map_cons, List.cons_append, writePieces, writePieces_kept,
    writePieces] at hstrip
  refine ⟨hashbang source ++ (before ++ if bare then [] else keyword.gap),
    writePieces false back (trailingTrivia .initial (afterHashbang source)), ?_⟩
  rw [hstrip]
  simp [Replacement.text]

end

/-- A source whose default value is a function without a name, with a call on the next line. -/
def callingSource : Text := "export default function () {}\n(1)".toList

/-- The function is called. -/
theorem strip_of_anonymous_of_call :
    strip callingSource = .ok "void function () {}\n(1)".toList ∧
      ∃ found edit, Interface.read callingSource = .ok found ∧ edit ∈ found.edits ∧
        edit.replacement = .voidOperator ∧ IsTrivia ['\n'] ∧
        ∃ before behind, strip callingSource = .ok (before ++ ("void ".toList ++
          ("function".toList ++ (" () {}".toList ++ (['\n'] ++ (['('] ++ behind)))))) := by
  have hread : Interface.read callingSource = .ok
      { imports := [], exports := [.defaultValue], edits := [⟨⟨0, 15⟩, .voidOperator⟩] } := by
    simp only [Interface.read, Cursor.ofSource, tokenize_eq_upTo]
    cbv
  have hstrip : strip callingSource = .ok "void function () {}\n(1)".toList := by
    rw [strip, hread]
    cbv
  have htokens : tokenize callingSource =
      [⟨⟨[], "export".toList, .identifier "export", false⟩, 0⟩,
        ⟨⟨[' '], "default".toList, .identifier "default", false⟩, 7⟩,
        ⟨⟨[' '], "function".toList, .identifier "function", false⟩, 15⟩,
        ⟨⟨[' '], ['('], .punctuator '(', false⟩, 24⟩, ⟨⟨[], [')'], .punctuator ')', false⟩, 25⟩,
        ⟨⟨[' '], ['{'], .punctuator '{', false⟩, 27⟩, ⟨⟨[], ['}'], .punctuator '}', false⟩, 28⟩,
        ⟨⟨['\n'], ['('], .punctuator '(', true⟩, 30⟩, ⟨⟨[], ['1'], .number, false⟩, 31⟩,
        ⟨⟨[], [')'], .punctuator ')', false⟩, 32⟩] := by
    simp only [tokenize_eq_upTo]
    cbv
  have hwords : (Span.tokens ⟨0, 15⟩ (tokenize callingSource)).map (·.kind) =
      [.identifier "export", .identifier "default"] := by
    rw [htokens]
    cbv
  have hbehind : Span.tokensBehind ⟨0, 15⟩ (tokenize callingSource) =
      ⟨⟨[' '], "function".toList, .identifier "function", false⟩, 15⟩ ::
        [⟨⟨[' '], ['('], .punctuator '(', false⟩, 24⟩, ⟨⟨[], [')'], .punctuator ')', false⟩, 25⟩,
          ⟨⟨[' '], ['{'], .punctuator '{', false⟩, 27⟩,
          ⟨⟨[], ['}'], .punctuator '}', false⟩, 28⟩] ++
        ⟨⟨['\n'], ['('], .punctuator '(', true⟩, 30⟩ ::
          [⟨⟨[], ['1'], .number, false⟩, 31⟩, ⟨⟨[], [')'], .punctuator ')', false⟩, 32⟩] := by
    rw [htokens]
    cbv
  have hfunction : IsAnonymousDeclaration [.identifier "function", .punctuator '(', .punctuator ')',
      .punctuator '{', .punctuator '}'] := .plainFunction (@IsAnonymousFunction.plain [] [] rfl rfl)
  exact ⟨hstrip, _, ⟨⟨0, 15⟩, .voidOperator⟩, hread, List.mem_singleton_self _,
    strip_of_anonymous hread (List.mem_singleton_self _) hwords hbehind hfunction rfl⟩

end ScriptBundle
