import ScriptBundle.Document.Layout
import ScriptBundle.Proofs.Token.Extension

/-!
# Lexer States and Balance

The lexer carries a state from token to token, and two of its stacks reach far back. Tokens that
close no bracket but their own touch only what they have pushed themselves, so a text of such tokens
is read alike whatever brackets are open around it.

## Main definitions

* `expectedAfter`, `dueAfter`: the closing brackets that are due behind a token or several;
* `LexState.Within`: a state that goes on like another one, with more brackets open.

## Main statements

* `dueAfter_append`: tokens that close only their own brackets leave those around them as they are;
* `LexState.Within.behind`: such tokens keep two such states in step;
* `lexemes_eq_of_no_slash`: a text without a slash has the same tokens in every state;
* `lexemes_within`: such tokens are the same inside of other brackets.
-/

namespace ScriptBundle

/-! ### Balance, token by token -/

/-- The characters that close the brackets open behind a token, `expected` being those that are
due before it. There are none if the token closes another bracket than the innermost one. -/
def expectedAfter (expected : List Char) : TokenKind → Option (List Char)
  | .punctuator c =>
    match closingOf c with
    | some closing => some (closing :: expected)
    | none =>
      if c = ')' ∨ c = ']' ∨ c = '}' then
        match expected with
        | [] => none
        | closing :: others => if c = closing then some others else none
      else some expected
  | _ => some expected

/-- Balance is decided token by token. -/
theorem isBalanced_cons (expected : List Char) (k : TokenKind) (ks : List TokenKind) :
    isBalanced expected (k :: ks) = (expectedAfter expected k).any (isBalanced · ks) := by
  cases k with
  | punctuator c =>
    cases hopening : closingOf c with
    | some closing => cases expected <;> simp [isBalanced, expectedAfter, hopening]
    | none =>
      by_cases hclosing : c = ')' ∨ c = ']' ∨ c = '}'
      · cases expected with
        | nil => simp [isBalanced, expectedAfter, hopening, hclosing]
        | cons closing others =>
          by_cases hc : c = closing
          · subst hc
            simp [isBalanced, expectedAfter, hopening, hclosing]
          · simp [isBalanced, expectedAfter, hopening, hclosing, hc]
      · cases expected <;> simp [isBalanced, expectedAfter, hopening, hclosing]
  | _ => simp [isBalanced, expectedAfter]

/-- A token that opens a bracket is waited for. -/
theorem expectedAfter_of_opening {c closing : Char} (h : closingOf c = some closing)
    (expected : List Char) :
    expectedAfter expected (.punctuator c) = some (closing :: expected) := by
  simp [expectedAfter, h]

/-- A token that closes a bracket closes the innermost one. -/
theorem expectedAfter_of_closing {c : Char} (h : c = ')' ∨ c = ']' ∨ c = '}')
    {expected due : List Char} (hdue : expectedAfter expected (.punctuator c) = some due) :
    expected = c :: due := by
  have hnone : closingOf c = none := by rcases h with rfl | rfl | rfl <;> rfl
  simp only [expectedAfter, hnone, h, if_true] at hdue
  cases expected with
  | nil => simp at hdue
  | cons closing others =>
    by_cases hc : c = closing
    · simpa [hc] using hdue
    · simp [hc] at hdue

/-- Other tokens change nothing about the brackets. -/
theorem expectedAfter_of_other {k : TokenKind} (hopening : k.isOpening = false)
    (hclosing : k.isClosing = false) (expected : List Char) :
    expectedAfter expected k = some expected := by
  cases k with
  | punctuator c =>
    simp only [TokenKind.isOpening, TokenKind.isClosing, Bool.or_eq_false_iff,
      beq_eq_false_iff_ne] at hopening hclosing
    have hnone : closingOf c = none := by
      unfold closingOf
      split <;> simp_all
    simp [expectedAfter, hnone, hclosing]
  | _ => rfl

/-- A token does to the innermost brackets what it does with others around them. -/
theorem expectedAfter_append {expected due : List Char} {k : TokenKind}
    (h : expectedAfter expected k = some due) (outer : List Char) :
    expectedAfter (expected ++ outer) k = some (due ++ outer) := by
  cases k with
  | punctuator c =>
    cases hopening : closingOf c with
    | some closing =>
      rw [expectedAfter_of_opening hopening, Option.some.injEq] at h
      rw [expectedAfter_of_opening hopening, ← h, List.cons_append]
    | none =>
      by_cases hclosing : c = ')' ∨ c = ']' ∨ c = '}'
      · rw [expectedAfter_of_closing hclosing h]
        simp [expectedAfter, hopening, hclosing]
      · simp only [expectedAfter, hopening, hclosing, if_false, Option.some.injEq] at h ⊢
        rw [h]
  | _ => simpa [expectedAfter] using h

/-- The characters that close the brackets open behind several tokens. There are none if one of the
tokens closes another bracket than the innermost one. -/
def dueAfter (expected : List Char) (ks : List TokenKind) : Option (List Char) :=
  ks.foldlM expectedAfter expected

@[simp] theorem dueAfter_nil (expected : List Char) : dueAfter expected [] = some expected := rfl

theorem dueAfter_cons (expected : List Char) (k : TokenKind) (ks : List TokenKind) :
    dueAfter expected (k :: ks) = (expectedAfter expected k).bind (dueAfter · ks) := rfl

/-- The first of several tokens, with the brackets that are due behind it. -/
theorem exists_dueAfter {expected due : List Char} {k : TokenKind} {ks : List TokenKind}
    (h : dueAfter expected (k :: ks) = some due) :
    ∃ next, expectedAfter expected k = some next ∧ dueAfter next ks = some due := by
  rw [dueAfter_cons] at h
  exact Option.bind_eq_some_iff.mp h

/-- Tokens are balanced if no bracket is due behind them. -/
theorem isBalanced_iff {expected : List Char} {ks : List TokenKind} :
    isBalanced expected ks = true ↔ dueAfter expected ks = some [] := by
  induction ks generalizing expected with
  | nil => simp [isBalanced]
  | cons k ks ih =>
    rw [isBalanced_cons, dueAfter_cons]
    cases expectedAfter expected k with
    | none => simp
    | some due => simpa using ih

/-- Tokens that close only brackets of their own leave those around them as they are. -/
theorem dueAfter_append {expected due : List Char} {ks : List TokenKind}
    (h : dueAfter expected ks = some due) (outer : List Char) (rest : List TokenKind) :
    dueAfter (expected ++ outer) (ks ++ rest) = dueAfter (due ++ outer) rest := by
  induction ks generalizing expected with
  | nil =>
    obtain rfl : expected = due := by simpa using h
    rfl
  | cons k ks ih =>
    obtain ⟨next, hnext, hks⟩ := exists_dueAfter h
    rw [List.cons_append, dueAfter_cons, expectedAfter_append hnext, Option.bind_some, ih hks]

/-- Balanced tokens leave the brackets around them as they are. -/
theorem isBalanced_append {expected : List Char} {ks : List TokenKind}
    (h : isBalanced expected ks = true) (outer : List Char) (rest : List TokenKind) :
    isBalanced (expected ++ outer) (ks ++ rest) = isBalanced outer rest := by
  rw [Bool.eq_iff_iff, isBalanced_iff, isBalanced_iff, dueAfter_append (isBalanced_iff.mp h),
    List.nil_append]

/-! ### States, part by part -/

namespace LexState

/-- Whether a slash starts a regular expression behind a token that closes neither a parenthesis
nor a brace. -/
def allowsRegexAfter : TokenKind → Bool
  | .punctuator c => c != ']'
  | .identifier word => expectsOperand word
  | _ => false

@[simp] theorem next_previous (state : LexState) (k : TokenKind) :
    (state.next k).previous = some k := by
  unfold next
  split <;> rfl

/-- Parentheses alone move the stack of heads. -/
theorem next_heads (state : LexState) (k : TokenKind) :
    (state.next k).heads =
      if k = .punctuator '(' then opensHead state.previous :: state.heads
      else if k = .punctuator ')' then state.heads.tail
      else state.heads := by
  unfold next
  split <;> simp_all

/-- Braces alone move the stack of blocks. -/
theorem next_blocks (state : LexState) (k : TokenKind) :
    (state.next k).blocks =
      if k = .punctuator '\x7b' then opensBlock state.previous :: state.blocks
      else if k = .punctuator '\x7d' then state.blocks.tail
      else state.blocks := by
  unfold next
  split <;> simp_all

/-- Behind a closing parenthesis or brace the stacks decide about a slash, and elsewhere the
token alone. -/
theorem next_regexAllowed (state : LexState) (k : TokenKind) :
    (state.next k).regexAllowed =
      if k = .punctuator ')' then state.heads.head?.getD false
      else if k = .punctuator '\x7d' then state.blocks.head?.getD true
      else allowsRegexAfter k := by
  unfold next allowsRegexAfter
  split <;> simp_all

/-! ### States inside of brackets -/

/-- Whether a state has an entry on its stacks for every bracket that is open. -/
structure Tracks (expected : List Char) (state : LexState) : Prop where
  heads : state.heads.length = expected.count ')'
  blocks : state.blocks.length = expected.count '\x7d'

/-- Whether `outer` goes on like `inner`, with `heads` and `blocks` open around it. -/
structure Within (heads blocks : List Bool) (inner outer : LexState) : Prop where
  regexAllowed : outer.regexAllowed = inner.regexAllowed
  opensBlock : opensBlock outer.previous = opensBlock inner.previous
  opensHead : opensHead outer.previous = opensHead inner.previous
  heads : outer.heads = inner.heads ++ heads
  blocks : outer.blocks = inner.blocks ++ blocks

/-- The state before the first token tracks that no bracket is open. -/
theorem tracks_initial : initial.Tracks [] := ⟨rfl, rfl⟩

/-- A state that tracks the open brackets goes on doing so. -/
theorem Tracks.next {expected due : List Char} {state : LexState} {k : TokenKind}
    (h : state.Tracks expected) (hdue : expectedAfter expected k = some due) :
    (state.next k).Tracks due := by
  cases hopening : k.isOpening with
  | true =>
    obtain ⟨c, rfl, hc⟩ : ∃ c, k = .punctuator c ∧ (c = '{' ∨ c = '(' ∨ c = '[') := by
      cases k <;> simp_all [TokenKind.isOpening, or_assoc]
    rcases hc with rfl | rfl | rfl
    all_goals
      rw [expectedAfter_of_opening rfl, Option.some.injEq] at hdue
      subst hdue
      constructor <;> simp [next_heads, next_blocks, h.heads, h.blocks]
  | false =>
    cases hclosing : k.isClosing with
    | true =>
      obtain ⟨c, rfl, hc⟩ : ∃ c, k = .punctuator c ∧ (c = ')' ∨ c = ']' ∨ c = '}') := by
        cases k <;> simp_all [TokenKind.isClosing, or_comm, or_left_comm]
      rw [expectedAfter_of_closing hc hdue] at h
      have hheads := h.heads
      have hblocks := h.blocks
      rcases hc with rfl | rfl | rfl
      all_goals
        constructor <;> simp_all [next_heads, next_blocks]
    | false =>
      obtain rfl : expected = due := by
        simpa [expectedAfter_of_other hopening hclosing] using hdue
      have hne : ∀ c, TokenKind.isOpening (.punctuator c) = true ∨
          TokenKind.isClosing (.punctuator c) = true → k ≠ .punctuator c := by
        rintro c hc rfl
        simp_all
      constructor
      · rw [next_heads, if_neg (hne _ (.inl rfl)), if_neg (hne _ (.inr rfl)), h.heads]
      · rw [next_blocks, if_neg (hne _ (.inl rfl)), if_neg (hne _ (.inr rfl)), h.blocks]

/-- A state goes on like itself. -/
theorem Within.refl (state : LexState) : Within [] [] state state :=
  ⟨rfl, rfl, rfl, (List.append_nil _).symm, (List.append_nil _).symm⟩

/-- A token that closes no bracket of the outer state keeps the two states in step. -/
theorem Within.next {heads blocks : List Bool} {expected due : List Char}
    {inner outer : LexState} {k : TokenKind} (h : Within heads blocks inner outer)
    (htracks : inner.Tracks expected) (hdue : expectedAfter expected k = some due) :
    Within heads blocks (inner.next k) (outer.next k) := by
  have hheads : k = .punctuator ')' → ∃ head others, inner.heads = head :: others := by
    rintro rfl
    have hlength := htracks.heads
    rw [expectedAfter_of_closing (.inl rfl) hdue, List.count_cons_self] at hlength
    exact List.exists_cons_of_length_eq_add_one hlength
  have hblocks : k = .punctuator '\x7d' → ∃ block others, inner.blocks = block :: others := by
    rintro rfl
    have hlength := htracks.blocks
    rw [expectedAfter_of_closing (.inr (.inr rfl)) hdue, List.count_cons_self] at hlength
    exact List.exists_cons_of_length_eq_add_one hlength
  refine ⟨?_, by simp, by simp, ?_, ?_⟩
  · rw [next_regexAllowed, next_regexAllowed, h.heads, h.blocks]
    split
    · next hk =>
      obtain ⟨head, others, heq⟩ := hheads hk
      simp [heq]
    · split
      · next hk =>
        obtain ⟨block, others, heq⟩ := hblocks hk
        simp [heq]
      · rfl
  · rw [next_heads, next_heads, h.heads, h.opensHead]
    split
    · rfl
    · split
      · next hk =>
        obtain ⟨head, others, heq⟩ := hheads hk
        simp [heq]
      · rfl
  · rw [next_blocks, next_blocks, h.blocks, h.opensBlock]
    split
    · rfl
    · split
      · next hk =>
        obtain ⟨block, others, heq⟩ := hblocks hk
        simp [heq]
      · rfl

/-- Tokens that close no bracket of the outer state keep the two states in step to their end. -/
theorem Within.behind {heads blocks : List Bool} {expected due : List Char}
    {inner outer : LexState} {ks : List TokenKind} (h : Within heads blocks inner outer)
    (htracks : inner.Tracks expected) (hdue : dueAfter expected ks = some due) :
    Within heads blocks (inner.behind ks) (outer.behind ks) ∧ (inner.behind ks).Tracks due := by
  induction ks generalizing expected inner outer with
  | nil =>
    obtain rfl : expected = due := by simpa using hdue
    exact ⟨h, htracks⟩
  | cons k ks ih =>
    obtain ⟨next, hnext, hks⟩ := exists_dueAfter hdue
    exact ih (h.next htracks hnext) (htracks.next hnext) hks

end LexState

/-! ### Whole texts -/

/-- The next lexeme depends on whether a slash starts a regular expression, and on nothing else
of the state. -/
theorem lexeme?_congr {state other : LexState} (h : state.regexAllowed = other.regexAllowed)
    (s : Text) : lexeme? state s = lexeme? other s := by
  simp [lexeme?, h]

/-- A slash is the only character whose token depends on the state. -/
theorem scanToken_eq_of_ne_slash {c : Char} (h : c ≠ '/') (regexAllowed other : Bool)
    (rest : Text) : scanToken regexAllowed c rest = scanToken other c rest := by
  simp [scanToken, h]

/-- A lexeme that starts with another character than a slash is the same in every state. -/
theorem lexeme?_eq_of_ne_slash {s : Text} (h : (scanTrivia s).rest.head? ≠ some '/')
    (state other : LexState) : lexeme? state s = lexeme? other s := by
  rw [lexeme?, lexeme?]
  cases hs : (scanTrivia s).rest with
  | nil => rfl
  | cons c rest =>
    have hc : c ≠ '/' := by simpa [hs] using h
    simp only [scanToken_eq_of_ne_slash hc state.regexAllowed other.regexAllowed]

/-- A text without a slash is the same in every state. -/
theorem lexemes_eq_of_no_slash {s : Text} (h : '/' ∉ s) (state other : LexState) :
    lexemes state s = lexemes other s ∧ trailingTrivia state s = trailingTrivia other s := by
  induction hlength : s.length using Nat.strongRecOn generalizing state other s with
  | _ n ih =>
    have hsame : lexeme? state s = lexeme? other s := by
      refine lexeme?_eq_of_ne_slash ?_ state other
      intro hhead
      obtain ⟨tail, htail⟩ := List.head?_eq_some_iff.mp hhead
      rw [← scanTrivia_taken_append_rest s, htail] at h
      simp at h
    cases hfirst : lexeme? state s with
    | none =>
      have hother := hsame ▸ hfirst
      rw [(lexemes_of_none hfirst).1, (lexemes_of_none hfirst).2, (lexemes_of_none hother).1,
        (lexemes_of_none hother).2]
      exact ⟨rfl, rfl⟩
    | some found =>
      obtain ⟨l, rest⟩ := found
      have hother := hsame ▸ hfirst
      have hrest : '/' ∉ rest := by
        intro hmem
        rw [← lexeme?_gap_append_text hfirst] at h
        exact h (List.mem_append_right _ hmem)
      have hlt : rest.length < n := hlength ▸ lexeme?_length hfirst
      obtain ⟨hlexemes, htrivia⟩ := ih _ hlt hrest (state.next l.kind) (other.next l.kind) rfl
      rw [(lexemes_of_some hfirst).1, (lexemes_of_some hfirst).2, (lexemes_of_some hother).1,
        (lexemes_of_some hother).2, hlexemes, htrivia]
      exact ⟨rfl, rfl⟩

/-- Tokens that close only brackets of their own are the same inside of other brackets. -/
theorem lexemes_within {heads blocks : List Bool} {expected due : List Char}
    {inner outer : LexState} {s : Text} (h : LexState.Within heads blocks inner outer)
    (htracks : inner.Tracks expected)
    (hdue : dueAfter expected ((lexemes inner s).map Lexeme.kind) = some due) :
    lexemes outer s = lexemes inner s ∧ trailingTrivia outer s = trailingTrivia inner s := by
  induction hlength : s.length using Nat.strongRecOn
    generalizing expected inner outer s with
  | _ n ih =>
    have hsame := lexeme?_congr h.regexAllowed s
    cases hfirst : lexeme? inner s with
    | none =>
      rw [hfirst] at hsame
      rw [(lexemes_of_none hfirst).1, (lexemes_of_none hfirst).2, (lexemes_of_none hsame).1,
        (lexemes_of_none hsame).2]
      exact ⟨rfl, rfl⟩
    | some found =>
      obtain ⟨l, rest⟩ := found
      rw [hfirst] at hsame
      rw [(lexemes_of_some hfirst).1, List.map_cons] at hdue
      obtain ⟨next, hnext, hrest⟩ := exists_dueAfter hdue
      have hlt : rest.length < n := hlength ▸ lexeme?_length hfirst
      have htail := ih _ hlt (h.next htracks hnext) (htracks.next hnext) hrest rfl
      rw [(lexemes_of_some hfirst).1, (lexemes_of_some hfirst).2, (lexemes_of_some hsame).1,
        (lexemes_of_some hsame).2, htail.1, htail.2]
      exact ⟨rfl, rfl⟩

end ScriptBundle
