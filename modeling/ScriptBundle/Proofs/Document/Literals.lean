import ScriptBundle.Proofs.Document.Body
import ScriptBundle.Proofs.Module.Edits

/-!
# Literals of Bodies

The strings and templates of a body are those of its source that no edit covers. Blank lines are cut
down on the whole text, and nobody asks where they stand: a string holds none, but a template may,
and then the program that the document holds is another one.

## Main definitions

* `Literal`: the value of a string, or the characters of a template;
* `literals`: the literals among tokens.

## Main statements

* `written_blank_behind`, `written_moduleBody`: the tokens of a body as they are written;
* `literals_moduleBody`: the literals of a body, and when they are those of the source.
-/

namespace ScriptBundle

/-! ### Tokens as they are written -/

/-- What two states that are alike find in a text is the same. -/
theorem lexemes_eq_of_within {inner outer : LexState} (h : LexState.Within [] [] inner outer)
    (s : Text) : lexemes outer s = lexemes inner s := by
  fun_induction lexemes inner s generalizing outer with
  | case1 inner s hfirst =>
    exact (lexemes_of_none ((lexeme?_congr h.regexAllowed s).trans hfirst)).1
  | case2 inner s l rest hfirst _ ih =>
    rw [(lexemes_of_some ((lexeme?_congr h.regexAllowed s).trans hfirst)).1,
      ih (h.next_of_shape rfl)]

/-- White space in front of a text changes none of its tokens. -/
theorem written_blank {b : Text} (hb : IsBlankText b) (state : LexState) (s : Text) :
    (lexemes state (b ++ s)).map Lexeme.written = (lexemes state s).map Lexeme.written := by
  obtain ⟨_, hfirst⟩ := lexeme?_blank hb s
  have hfound := hfirst state
  cases hs : lexeme? state s with
  | none =>
    rw [hs] at hfound
    rw [(lexemes_of_none hs).1, (lexemes_of_none hfound).1]
  | some found =>
    rw [hs] at hfound
    rw [(lexemes_of_some hs).1, (lexemes_of_some hfound).1]
    rfl

section

variable {b : Text} (hb : IsBlankText b) {state : LexState}
include hb

/-- White space behind a text changes none of its tokens if they are closed. -/
theorem written_blank_behind {s : Text} (hclosed : ∀ l ∈ lexemes state s, l.kind ≠ .unterminated) :
    (lexemes state (s ++ b)).map Lexeme.written = (lexemes state s).map Lexeme.written := by
  fun_induction lexemes state s with
  | case1 state s h => rw [(lexemes_of_none (lexeme?_blank_behind_of_none hb h)).1]
  | case2 state s l rest h _ ih =>
    obtain ⟨hl, hothers⟩ := List.forall_mem_cons.mp hclosed
    obtain ⟨m, hm, hkind, htext⟩ := lexeme?_closed_behind hb h hl
    rw [(lexemes_of_some hm).1, hkind, List.map_cons, List.map_cons, ih hothers, Lexeme.written,
      hkind, htext]
    rfl

/-- What is left in front of white space holds the tokens that are left without it. -/
theorem written_of_leavesBlank {rest rest' : Text} (h : LeavesBlank b rest rest')
    (hclosed : ∀ l ∈ lexemes state rest, l.kind ≠ .unterminated) :
    (lexemes state rest').map Lexeme.written = (lexemes state rest).map Lexeme.written := by
  cases h with
  | kept => exact written_blank_behind hb hclosed
  | blank hrest hblank => rw [hrest, lexemes_blank hblank, lexemes_nil]

end

/-- Tokens of the same shapes are closed alike. -/
theorem closed_of_shapes {state other : LexState} {s t : Text}
    (h : (lexemes state t).map (·.kind.shape) = (lexemes other s).map (·.kind.shape))
    (hclosed : ∀ l ∈ lexemes other s, l.kind ≠ .unterminated) :
    ∀ l ∈ lexemes state t, l.kind ≠ .unterminated := by
  intro l hl hkind
  have hmem : l.kind.shape ∈ (lexemes state t).map (·.kind.shape) := List.mem_map_of_mem hl
  rw [h] at hmem
  obtain ⟨m, hm, hshape⟩ := List.mem_map.mp hmem
  rw [hkind] at hshape
  exact hclosed m hm (kind_eq_of_shape hshape rfl)

/-- A trimmed text has the same tokens if they are closed. -/
theorem written_trim {state : LexState} {s : Text}
    (hclosed : ∀ l ∈ lexemes state s, l.kind ≠ .unterminated) :
    (lexemes state (Text.trim s)).map Lexeme.written = (lexemes state s).map Lexeme.written := by
  obtain ⟨front, behind, hfront, hbehind, hs⟩ := exists_of_trim s
  have htrimmed := closed_of_shapes (shapes_trim (.refl state) s) hclosed
  rw [← written_blank_behind hbehind htrimmed, ← written_blank hfront, ← hs]

/-- A text that is trimmed and cut down has the tokens that are left when blank lines are cut down
in them. -/
theorem written_trim_collapseBlankLines {state : LexState} {s : Text}
    (hclosed : ∀ l ∈ lexemes state s, l.kind ≠ .unterminated) :
    (lexemes state (Text.trim (collapseBlankLines s))).map Lexeme.written =
      (lexemes state s).map Lexeme.collapsed := by
  have hcollapsed := (respaced_collapseBlankLines 0 s).loosely
  rw [written_trim (closed_of_shapes (shapes_respaced hcollapsed (.refl state)) hclosed),
    written_collapseBlankLines hclosed]

/-- The tokens of a body are those of the stripped source with blank lines in them cut down, and at
most a semicolon in front of them. -/
theorem written_moduleBody {source stripped body : Text}
    (hstrip : strip (withLineFeeds source) = .ok stripped) (hbody : moduleBody source = .ok body)
    (hfront : hashbang body = [] ↔ hashbang stripped = [])
    (hclosed : ∀ t ∈ tokenize stripped, t.kind ≠ .unterminated) :
    ∃ guard, (guard = [] ∨ guard = [(.punctuator ';', [';'])]) ∧
      (tokenize body).map (·.written) = guard ++ (tokenize stripped).map (·.collapsed) := by
  have hcases := moduleBody_cases hstrip hbody
  have hlexemes : ∀ l ∈ lexemes .initial (afterHashbang stripped), l.kind ≠ .unterminated := by
    rw [← tokenize_map_toLexeme]
    exact List.forall_mem_map.mpr hclosed
  rw [tokenize_map Lexeme.written, tokenize_map Lexeme.collapsed]
  by_cases hnone : hashbang stripped = []
  · rw [afterHashbang_eq_self (hfront.mpr hnone)]
    rw [afterHashbang_eq_self hnone] at hlexemes ⊢
    have hwritten := written_trim_collapseBlankLines hlexemes
    rcases hcases with hcase | hcase
    · exact ⟨[], .inl rfl, by rw [hcase, hwritten, List.nil_append]⟩
    · refine ⟨[(.punctuator ';', [';'])], .inr rfl, ?_⟩
      have hstate : LexState.Within [] [] .initial (LexState.initial.next (.punctuator ';')) :=
        ⟨rfl, rfl, rfl, rfl, rfl⟩
      rw [hcase, (lexemes_of_some (lexeme?_semicolon _ _)).1, List.map_cons,
        lexemes_eq_of_within hstate, hwritten]
      rfl
  · have hsome : hashbang body ≠ [] := mt hfront.mp hnone
    rcases hcases with hcase | hcase
    · rw [hcase] at hsome ⊢
      obtain ⟨b, hb, hleaves⟩ := leavesBlank_behind_hashbang hnone hsome
      refine ⟨[], .inl rfl, ?_⟩
      rw [List.nil_append, ← written_collapseBlankLines hlexemes]
      refine (written_of_leavesBlank hb hleaves ?_).symm
      refine closed_of_shapes ?_ hlexemes
      rw [← shapes_of_leavesBlank hb hleaves,
        shapes_respaced (respaced_collapseBlankLines 0 _).loosely (.refl _)]
    · rw [hcase] at hsome
      exact absurd rfl hsome

/-! ### Literals -/

/-- A **literal** of a program: the value of a string, or the characters of a template. -/
inductive Literal where
  | string (value : String)
  | template (text : Text)
  deriving DecidableEq, Repr

/-- The literal that a token is, if it is one. -/
def Literal.ofWritten : TokenKind × Text → Option Literal
  | (.string value, _) => some (.string value)
  | (.template, text) => some (.template text)
  | _ => none

/-- A literal with blank lines in it cut down. Strings hold none. -/
def Literal.collapsed : Literal → Literal
  | string value => string value
  | template text => template (collapseBlankLines text)

/-- The literals among tokens. -/
def literals (ts : List Token) : List Literal :=
  ts.filterMap fun t => Literal.ofWritten t.written

/-- Blank lines are cut down in tokens as in the literals that they are. -/
theorem ofWritten_collapsed (l : Lexeme) :
    Literal.ofWritten l.collapsed = (Literal.ofWritten l.written).map Literal.collapsed := by
  rw [Lexeme.collapsed, Lexeme.written]
  cases l.kind <;> rfl

/-- Literals stay as they are exactly if no template holds two blank lines in a row. -/
theorem map_collapsed_eq_self_iff (ls : List Literal) :
    ls.map Literal.collapsed = ls ↔ ∀ text, .template text ∈ ls → ¬HasBlankRun text := by
  have hsame : ls.map Literal.collapsed = ls ↔ ∀ l ∈ ls, l.collapsed = l := by
    simpa using List.map_inj_left (l := ls) (f := Literal.collapsed) (g := id)
  rw [hsame]
  constructor
  · intro h text hmem
    exact collapseBlankLines_eq_self_iff.mp (Literal.template.inj (h _ hmem))
  · intro h l hmem
    cases l with
    | string value => rfl
    | template text =>
      exact congrArg Literal.template (collapseBlankLines_eq_self_iff.mpr (h text hmem))

/-- What is known of all tokens and of all replacements is known of what pieces leave behind. -/
theorem forall_mem_left {p : TokenKind × Text → Prop}
    (hreplacement : ∀ replacement : Replacement, ∀ w ∈ replacement.tokens, p w)
    {pieces : List Piece}
    (htokens : ∀ t ∈ pieces.flatMap Piece.tokens, p t.written) :
    ∀ w ∈ pieces.flatMap Piece.left, p w := by
  intro w hw
  obtain ⟨piece, hpiece, hw⟩ := List.mem_flatMap.mp hw
  cases piece with
  | kept t =>
    obtain rfl := List.mem_singleton.mp hw
    exact htokens t (List.mem_flatMap.mpr ⟨_, hpiece, List.mem_singleton_self t⟩)
  | cut first others replacement tight => exact hreplacement replacement w hw

/-- Replacements are no literals. -/
theorem literals_left (pieces : List Piece) :
    (pieces.flatMap Piece.left).filterMap Literal.ofWritten =
      literals (pieces.filterMap Piece.kept?) := by
  induction pieces with
  | nil => rfl
  | cons piece rest ih =>
    rw [List.flatMap_cons, List.filterMap_append, ih]
    cases piece with
    | kept t =>
      change [t.written].filterMap Literal.ofWritten ++ _ =
        literals (t :: rest.filterMap Piece.kept?)
      cases hliteral : Literal.ofWritten t.written <;> simp [literals, hliteral]
    | cut first others replacement tight => cases replacement <;> rfl

/-- **Literals of a body.** If all tokens of a source are closed, and its body is read like it, then
the body has the literals of the source that no edit covers, with blank lines in them cut down. They
are the same exactly if no template among them holds two blank lines that follow each other. -/
theorem literals_moduleBody {source body : Text} (hbody : moduleBody source = .ok body)
    (hclosed : ∀ t ∈ tokenize (withLineFeeds source), t.kind ≠ .unterminated)
    (hreads : ReadsOn source body) :
    ∃ found, Interface.read (withLineFeeds source) = .ok found ∧
      let kept := literals (keptTokens found.edits (tokenize (withLineFeeds source)))
      literals (tokenize body) = kept.map Literal.collapsed ∧
        (literals (tokenize body) = kept ↔ ∀ text, .template text ∈ kept → ¬HasBlankRun text) := by
  obtain ⟨stripped, hstrip, -⟩ := map_eq_ok_iff.mp hbody
  obtain ⟨found, hread, -⟩ := map_eq_ok_iff.mp hstrip
  refine ⟨found, hread, ?_⟩
  intro kept
  obtain ⟨pieces, hcut⟩ : ∃ pieces, CutInto (tokenize (withLineFeeds source)) found.edits pieces :=
    exists_cutInto hread
  have hplaced := placed_place (Text.size (hashbang (withLineFeeds source)))
    (lexemes .initial (afterHashbang (withLineFeeds source)))
  have hkept : kept = literals (pieces.filterMap Piece.kept?) :=
    congrArg literals (hcut.keptTokens_eq hplaced.pairwise fun t ht =>
      Token.start_lt_stop (text_ne_nil_of_mem_tokenize t ht))
  have hwritten : (tokenize stripped).map (·.written) = pieces.flatMap Piece.left := by
    rw [hreads.keeps.written_strip hstrip hread]
    exact (hcut.flatMap_left hplaced text_ne_nil_of_mem_tokenize).symm
  have hstripped : ∀ t ∈ tokenize stripped, t.kind ≠ .unterminated := by
    intro t ht
    have hmem : t.written ∈ pieces.flatMap Piece.left := hwritten ▸ List.mem_map_of_mem ht
    refine forall_mem_left (p := fun w => w.1 ≠ .unterminated) ?_ ?_ t.written hmem
    · intro replacement
      cases replacement <;> simp [Replacement.tokens]
    · rw [hcut.flatMap_tokens]
      exact hclosed
  have hliterals : literals (tokenize body) = kept.map Literal.collapsed := by
    obtain ⟨guard, hguard, hbodyTokens⟩ :=
      written_moduleBody hstrip hbody (hreads.hashbang_iff hstrip) hstripped
    have hnone : guard.filterMap Literal.ofWritten = [] := by rcases hguard with rfl | rfl <;> rfl
    calc literals (tokenize body)
        = ((tokenize body).map (·.written)).filterMap Literal.ofWritten := by
          rw [List.filterMap_map]; rfl
      _ = ((tokenize stripped).map (·.collapsed)).filterMap Literal.ofWritten := by
          rw [hbodyTokens, List.filterMap_append, hnone, List.nil_append]
      _ = (((tokenize stripped).map (·.written)).filterMap Literal.ofWritten).map
            Literal.collapsed := by
          rw [List.filterMap_map, List.filterMap_map, List.map_filterMap]
          exact congrArg (List.filterMap · (tokenize stripped))
            (funext fun t => ofWritten_collapsed t.toLexeme)
      _ = kept.map Literal.collapsed := by rw [hwritten, literals_left, hkept]
  exact ⟨hliterals, hliterals ▸ map_collapsed_eq_self_iff kept⟩

/-- A source whose template holds two blank lines. -/
def spacedSource : Text := "x = \x60a\n\n\nb\x60".toList

/-- What is left of it. -/
def spacedBody : Text := "x = \x60a\n\nb\x60".toList

/-- The template of the body is another one. -/
theorem literals_moduleBody_of_blankLines :
    moduleBody spacedSource = .ok spacedBody ∧
      (∀ t ∈ tokenize (withLineFeeds spacedSource), t.kind ≠ .unterminated) ∧
      ReadsOn spacedSource spacedBody ∧
      ∃ found, Interface.read (withLineFeeds spacedSource) = .ok found ∧
        literals (tokenize spacedBody) ≠
          literals (keptTokens found.edits (tokenize (withLineFeeds spacedSource))) := by
  have hfeeds : withLineFeeds spacedSource = spacedSource := by cbv
  have hbody : moduleBody spacedSource = .ok spacedBody := by
    simp only [moduleBody, strip, Interface.read, Cursor.ofSource, tokenize_eq_upTo]
    cbv
  have htokens : tokenize spacedSource =
      [⟨⟨[], ['x'], .identifier "x", false⟩, 0⟩, ⟨⟨[' '], ['='], .punctuator '=', false⟩, 2⟩,
        ⟨⟨[' '], "\x60a\n\n\nb\x60".toList, .template, false⟩, 4⟩] := by
    simp only [tokenize_eq_upTo]
    cbv
  have hclosed : ∀ t ∈ tokenize (withLineFeeds spacedSource), t.kind ≠ .unterminated := by
    rw [hfeeds, htokens]
    decide
  have hreads : ReadsOn spacedSource spacedBody :=
    readsOn_of_plain hfeeds (by decide) (by decide) (by decide)
  obtain ⟨found, hread, -, hsame⟩ := literals_moduleBody hbody hclosed hreads
  refine ⟨hbody, hclosed, hreads, found, hread, fun heq => ?_⟩
  have hempty : Interface.read spacedSource = .ok .empty := by
    simp only [Interface.read, Cursor.ofSource, tokenize_eq_upTo]
    cbv
  rw [hfeeds, hempty] at hread
  obtain rfl := Except.ok.inj hread
  have hrun : HasBlankRun "\x60a\n\n\nb\x60".toList :=
    ⟨['\x60', 'a'], "\n\nb\x60".toList, rfl, by cbv⟩
  refine hsame.mp heq _ ?_ hrun
  rw [hfeeds, htokens]
  decide

end ScriptBundle
