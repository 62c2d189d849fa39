import ScriptBundle.Proofs.Module.Pieces
import ScriptBundle.Proofs.Token.Relexing

/-!
# Tokens of a Stripped Source

The tokens that are kept are found again in a stripped source, with those of the replacements
between them, as long as no slash is read otherwise than before.

## Main definitions

* `Lexeme.written`: a token as it is written, wherever it stands;
* `Piece.left`: the tokens that a piece leaves behind;
* `remaining`: the tokens that remain once edits are carried out;
* `KeepsReading`: whether what is left of a source is read as before.

## Main statements

* `lexemes_writePieces`: the tokens of written pieces are those that the pieces leave behind;
* `strip_eq_of_cutInto`: a stripped source is written from the pieces of the source;
* `KeepsReading.written_strip`: its tokens are those that remain;
* `keepsReading_of_plain`: a source without slashes and number signs is read as before.
-/

namespace ScriptBundle

/-! ### Written tokens -/

/-- The kind and the characters of a token. -/
def Lexeme.written (l : Lexeme) : TokenKind × Text := (l.kind, l.text)

/-! ### What pieces leave behind -/

/-- The tokens of a replacement. -/
def Replacement.tokens : Replacement → List (TokenKind × Text)
  | nothing => []
  | semicolon => [(.punctuator ';', [';'])]
  | voidOperator => [(.identifier "void", "void".toList)]

namespace Piece

/-- The tokens that a piece is made of. -/
def tokens : Piece → List Token
  | kept t => [t]
  | cut first others _ _ => first :: others

/-- The tokens that a piece leaves behind. -/
def left : Piece → List (TokenKind × Text)
  | kept t => [t.written]
  | cut _ _ replacement _ => replacement.tokens

/-- Whether a piece that is cut out starts with a word that module statements start with. -/
def IsMarked : Piece → Prop
  | kept _ => True
  | cut first _ _ _ => first.isModuleKeyword = true

end Piece

namespace CutInto

variable {ts : List Token} {edits : List Edit} {pieces : List Piece}

/-- The pieces are made of the tokens that are cut into them. -/
theorem flatMap_tokens (h : CutInto ts edits pieces) : pieces.flatMap Piece.tokens = ts := by
  induction h with
  | nil => rfl
  | kept t _ ih => simp [Piece.tokens, ih]
  | whole others replacement _ _ ih => simp [Piece.tokens, ih]
  | front others replacement _ _ ih => simp [Piece.tokens, ih]

/-- Only module statements are cut out. -/
theorem isMarked (h : CutInto ts edits pieces) : ∀ piece ∈ pieces, piece.IsMarked := by
  induction h with
  | nil => simp
  | kept t _ ih => exact List.forall_mem_cons.mpr ⟨trivial, ih⟩
  | whole others replacement keyword _ ih => exact List.forall_mem_cons.mpr ⟨keyword, ih⟩
  | front others replacement keyword _ ih => exact List.forall_mem_cons.mpr ⟨keyword, ih⟩

end CutInto

/-- The tokens that **remain** once edits are carried out: those in front of the first edit, those
of its replacement, and what remains of the tokens behind it. -/
def remaining : List Edit → List Token → List (TokenKind × Text)
  | [], ts => ts.map (·.written)
  | edit :: edits, ts =>
    (ts.takeWhile (·.start < edit.span.start)).map (·.written) ++ edit.replacement.tokens ++
      remaining edits ((ts.dropWhile (·.start < edit.span.start)).dropWhile
        (·.start < edit.span.stop))

/-- The kinds of the tokens that remain. -/
def remainingKinds (edits : List Edit) (ts : List Token) : List TokenKind :=
  (remaining edits ts).map Prod.fst

/-- A token in front of all edits remains. -/
theorem remaining_cons {edits : List Edit} {t : Token} {ts : List Token}
    (h : ∀ edit ∈ edits, t.start < edit.span.start) :
    remaining edits (t :: ts) = t.written :: remaining edits ts := by
  cases edits with
  | nil => rfl
  | cons edit others =>
    have ht : t.start < edit.span.start := h edit (by simp)
    simp [remaining, ht]

theorem takeWhile_of_forall_false {p : α → Bool} {as : List α} (h : ∀ a ∈ as, p a = false) :
    as.takeWhile p = [] ∧ as.dropWhile p = as := by
  cases as with
  | nil => exact ⟨rfl, rfl⟩
  | cons a as => simp [h a (by simp)]

/-- Of the tokens that an edit covers its replacement remains. -/
theorem remaining_run {edit : Edit} {edits : List Edit} {run ts : List Token}
    (hrun : ∀ t ∈ run, edit.span.start ≤ t.start ∧ t.start < edit.span.stop)
    (hbehind : ∀ t ∈ ts, edit.span.start ≤ t.start ∧ edit.span.stop ≤ t.start) :
    remaining (edit :: edits) (run ++ ts) = edit.replacement.tokens ++ remaining edits ts := by
  have hfront : ∀ t ∈ run ++ ts, decide (t.start < edit.span.start) = false := by
    intro t ht
    refine decide_eq_false (Nat.not_lt.mpr ?_)
    rcases List.mem_append.mp ht with ht | ht
    · exact (hrun t ht).1
    · exact (hbehind t ht).1
  have hcovered : ∀ t ∈ run, decide (t.start < edit.span.stop) = true :=
    fun t ht => decide_eq_true (hrun t ht).2
  have hspared : ∀ t ∈ ts, decide (t.start < edit.span.stop) = false :=
    fun t ht => decide_eq_false (Nat.not_lt.mpr (hbehind t ht).2)
  obtain ⟨htake, hdrop⟩ := takeWhile_of_forall_false hfront
  rw [remaining, htake, hdrop, List.dropWhile_append_of_pos hcovered,
    (takeWhile_of_forall_false hspared).2]
  rfl

/-- What remains of tokens are what the pieces leave behind. -/
theorem CutInto.flatMap_left {ts : List Token} {edits : List Edit} {pieces : List Piece}
    (h : CutInto ts edits pieces) {offset : Nat} (hplaced : Placed offset ts)
    (htext : ∀ t ∈ ts, t.text ≠ []) : pieces.flatMap Piece.left = remaining edits ts := by
  induction h generalizing offset with
  | nil => rfl
  | @kept t ts edits pieces hrest ih =>
    have hstart := Token.start_lt_stop (htext t List.mem_cons_self)
    have hle : ∀ edit ∈ edits, t.stop ≤ edit.span.start := hrest.le_start hplaced.2
    rw [remaining_cons fun edit hedit => Nat.lt_of_lt_of_le hstart (hle edit hedit),
      List.flatMap_cons,
      ih hplaced.2 fun t ht => htext t (List.mem_cons_of_mem _ ht)]
    rfl
  | @whole first others replacement ts edits pieces keyword hrest ih =>
    obtain ⟨hbehind, -⟩ := hplaced.behind
    have hrun := hplaced.within_run fun t ht => htext t (List.mem_append_left _ ht)
    have hlast := (hrun first List.mem_cons_self).2
    rw [remaining_run hrun fun t ht => ⟨?_, hbehind.le_start t ht⟩, List.flatMap_cons,
      ih hbehind fun t ht => htext t (List.mem_append_right _ ht)]
    · rfl
    · exact Nat.le_trans (Nat.le_of_lt hlast) (hbehind.le_start t ht)
  | @front first next others replacement ts edits pieces keyword hrest ih =>
    obtain ⟨hbehind, -⟩ := hplaced.behind
    have hnext := hbehind.1
    have hrun : ∀ t ∈ first :: others, first.start ≤ t.start ∧ t.start < next.start := by
      intro t ht
      have hmem := hplaced.within_run (fun t ht => htext t (List.mem_append_left _ ht)) t ht
      omega
    have hlast := (hrun first List.mem_cons_self).2
    have hspared : ∀ t ∈ next :: ts, first.start ≤ t.start ∧ next.start ≤ t.start := by
      intro t ht
      rcases List.mem_cons.mp ht with rfl | ht
      · omega
      · have hstop := hbehind.2.le_start t ht
        rw [Token.stop] at hstop
        omega
    rw [remaining_run hrun hspared, List.flatMap_cons,
      ih hbehind fun t ht => htext t (List.mem_append_right _ ht)]
    rfl

/-- What remains of passed tokens, and of those behind them. -/
theorem remaining_passed {offset : Nat} {ts passed behind : List Token} {edits further : List Edit}
    (front : List Piece) {pieces : List Piece} (hpassed : ts = passed ++ behind)
    (hplaced : Placed offset ts) (htext : ∀ t ∈ ts, t.text ≠ [])
    (hcut : CutInto ts edits (front ++ pieces)) (hfurther : CutInto behind further pieces) :
    remaining edits ts = front.flatMap Piece.left ++ remaining further behind := by
  subst hpassed
  obtain ⟨offset', hbehind⟩ := hplaced.of_append
  rw [← hcut.flatMap_left hplaced htext, List.flatMap_append,
    hfurther.flatMap_left hbehind fun t ht => htext t (List.mem_append_right _ ht)]

theorem flatMap_left_kept (ts : List Token) :
    (ts.map Piece.kept).flatMap Piece.left = ts.map (·.written) := by
  induction ts with
  | nil => rfl
  | cons t ts ih => rw [List.map_cons, List.flatMap_cons, ih, List.map_cons]; rfl

theorem flatMap_left_cut (first : Token) (others : List Token) (replacement : Replacement)
    (tight : Bool) :
    [Piece.cut first others replacement tight].flatMap Piece.left = replacement.tokens :=
  List.append_nil _

/-- What remains of an exported declaration: all but its keyword. -/
theorem IsDeclaration.remaining {offset : Nat} {c : Cursor} {a : Advance c Interface} {word : Token}
    {kept : List Token} (h : IsDeclaration c a word kept) {further : Interface}
    (hfurther : interfaceFrom 0 a.cursor = .ok further) (hplaced : Placed offset c.rest)
    (htext : ∀ t ∈ c.rest, t.text ≠ []) :
    ScriptBundle.remaining (a.value ++ further).edits c.rest = word.written ::
      (kept.map (·.written) ++ ScriptBundle.remaining further.edits a.cursor.rest) := by
  obtain ⟨keyword, between, names, hkeyword, hpasses, hcloses, -, hvalue⟩ := h.cut
  obtain ⟨pieces, hpieces⟩ := exists_cutInto hfurther
  have hcut := hpieces.behind_declaration hpasses hcloses.toPasses hkeyword
  have hrest : c.rest = (keyword :: word :: kept) ++ a.cursor.rest := by
    rw [hpasses.rest, hcloses.rest]
    rfl
  have hremaining := remaining_passed
    (.cut keyword [] .nothing true :: .kept word :: kept.map .kept) hrest hplaced htext hcut hpieces
  rw [hvalue, ← flatMap_left_kept]
  exact hremaining

/-- Whether every slash that is kept **reads alike** before and after: it starts a regular
expression in both states or in neither, and starts no comment with what comes to follow it. -/
def ReadsAlike (trailing : Text) : (before after : LexState) → List Piece → Prop
  | _, _, [] => True
  | before, after, .kept t :: rest =>
    (t.text.head? = some '/' → after.regexAllowed = before.regexAllowed) ∧
      (t.text = ['/'] → ¬startsComment '/' (writePieces false rest trailing)) ∧
      ReadsAlike trailing (before.next t.kind) (after.next t.kind) rest
  | before, after, .cut first others replacement _ :: rest =>
    ReadsAlike trailing (before.behind ((first :: others).map (·.kind)))
      (after.behind (replacement.tokens.map Prod.fst)) rest

/-- A source in which no token starts with a slash is read alike. -/
theorem readsAlike_of_no_slash {trailing : Text} {pieces : List Piece}
    (h : ∀ piece ∈ pieces, ∀ t ∈ piece.tokens, t.text.head? ≠ some '/') (before after : LexState) :
    ReadsAlike trailing before after pieces := by
  induction pieces generalizing before after with
  | nil => trivial
  | cons piece rest ih =>
    obtain ⟨hpiece, hrest⟩ := List.forall_mem_cons.mp h
    cases piece with
    | kept t =>
      have ht : t.text.head? ≠ some '/' := hpiece t (by simp [Piece.tokens])
      exact ⟨fun hslash => absurd hslash ht, fun hslash => absurd (by simp [hslash]) ht,
        ih hrest _ _⟩
    | cut first others replacement tight => exact ih hrest _ _

/-! ### Tokens of written pieces -/

/-- The characters of a replacement are its tokens, and trivia in front of what follows. -/
theorem exists_lexemes_replacement (replacement : Replacement) (other : LexState) {g : Text}
    (hg : IsTrivia g) : ∃ g', IsTrivia g' ∧ ∀ u,
      (lexemes other (g ++ (replacement.text ++ u))).map Lexeme.written =
        replacement.tokens ++ (lexemes (other.behind (replacement.tokens.map Prod.fst))
          (g' ++ u)).map Lexeme.written := by
  cases replacement with
  | nothing => exact ⟨g, hg, fun u => rfl⟩
  | semicolon =>
    refine ⟨[], isTrivia_nil, fun u => ?_⟩
    obtain ⟨crosses, hfirst⟩ := lexeme?_trivia hg other (';' :: u)
    rw [lexeme?_semicolon] at hfirst
    rw [Replacement.text, List.singleton_append, (lexemes_of_some hfirst).1]
    rfl
  | voidOperator =>
    refine ⟨[' '], isTrivia_nil.cons (by decide), fun u => ?_⟩
    obtain ⟨crosses, hfirst⟩ := lexeme?_trivia hg other ('v' :: (['o', 'i', 'd'] ++ ' ' :: u))
    have hletters : ∀ c ∈ ['o', 'i', 'd'], isIdentifierPart c = true :=
      List.all_eq_true.mp (by decide)
    have hblank : isIdentifierPart ' ' = false := by decide
    rw [lexeme?_of_start (by decide) (not_startsComment_of_ne (by decide)),
      scanToken_identifier (by decide), List.takeWhile_append_of_pos hletters,
      List.dropWhile_append_of_pos hletters, List.takeWhile_cons_of_neg (by simp [hblank]),
      List.dropWhile_cons_of_neg (by simp [hblank])] at hfirst
    change List.map Lexeme.written (lexemes other (g ++ 'v' :: (['o', 'i', 'd'] ++ ' ' :: u))) = _
    rw [(lexemes_of_some hfirst).1]
    rfl

/-- A word that module statements start with starts with a letter, which any name or number goes on
with. -/
theorem head?_of_isModuleKeyword {state : LexState} {s rest : Text} {t : Token}
    (h : lexeme? state s = some (t.toLexeme, rest)) (hkeyword : t.isModuleKeyword = true) :
    ∃ d, t.text.head? = some d ∧ isIdentifierPart d = true ∧ isNumberPart d = true := by
  rw [Token.isModuleKeyword, Bool.or_eq_true] at hkeyword
  rcases hkeyword with hkeyword | hkeyword
  · rw [text_of_identifier h (Token.kind_of_isName hkeyword)]
    exact ⟨'i', rfl, by decide, by decide⟩
  · rw [text_of_identifier h (Token.kind_of_isName hkeyword)]
    exact ⟨'e', rfl, by decide, by decide⟩

/-- What is left of a text goes on like the text. -/
theorem goesOnLike_writePieces {state : LexState} {s trailing : Text} {pieces : List Piece}
    (htokens : lexemes state s = (pieces.flatMap Piece.tokens).map Token.toLexeme)
    (htrailing : trailingTrivia state s = trailing) (hmarked : ∀ piece ∈ pieces, piece.IsMarked) :
    GoesOnLike s (writePieces false pieces trailing) := by
  cases pieces with
  | nil =>
    refine .inl ?_
    rw [writePieces, ← htrailing, (lexemes_of_none (lexeme?_of_lexemes_nil htokens)).2]
  | cons piece rest =>
    cases piece with
    | kept t =>
      obtain ⟨further, hfirst, -⟩ := lexeme?_of_lexemes_cons htokens
      have hne : t.gap ++ t.text ≠ [] := by simp [lexeme?_text_ne_nil hfirst]
      refine .inl ?_
      rw [writePieces, if_neg (by decide), ← List.append_assoc]
      exact head?_taken_append (lexeme?_gap_append_text hfirst) hne _
    | cut first others replacement tight =>
      obtain ⟨further, hfirst, -⟩ := lexeme?_of_lexemes_cons htokens
      have hsplit := lexeme?_gap_append_text hfirst
      rw [writePieces, if_neg (by decide)]
      by_cases hgap : first.gap = []
      · obtain ⟨d, hd, hpart⟩ := head?_of_isModuleKeyword hfirst (hmarked _ List.mem_cons_self)
        refine .inr ⟨d, ?_, hpart⟩
        rw [← hsplit, hgap, List.nil_append, List.head?_append, hd]
        rfl
      · rw [List.append_assoc] at hsplit
        exact .inl (head?_taken_append hsplit hgap _)

/-- Trivia may stand in front of the gap of a token, whether the gap is left or not. -/
theorem IsTrivia.append_gap {state : LexState} {s g rest : Text} {t : Token} (hg : IsTrivia g)
    (h : lexeme? state s = some (t.toLexeme, rest)) (bare : Bool) :
    IsTrivia (g ++ if bare then [] else t.gap) := by
  cases bare with
  | true => exact hg.append isTrivia_nil
  | false => exact hg.append (isTrivia_gap h)

/-- The tokens of written pieces are those that the pieces leave behind. -/
theorem lexemes_writePieces {state other : LexState} {s trailing g : Text} {bare : Bool}
    {pieces : List Piece}
    (htokens : lexemes state s = (pieces.flatMap Piece.tokens).map Token.toLexeme)
    (htrailing : trailingTrivia state s = trailing) (hmarked : ∀ piece ∈ pieces, piece.IsMarked)
    (halike : ReadsAlike trailing state other pieces) (hg : IsTrivia g) :
    (lexemes other (g ++ writePieces bare pieces trailing)).map Lexeme.written =
      pieces.flatMap Piece.left := by
  induction pieces generalizing state other s g bare with
  | nil =>
    have hnone := lexeme?_of_lexemes_nil htokens
    have hrest : (scanTrivia trailing).rest = [] := by
      rw [← htrailing, (lexemes_of_none hnone).2]
      exact scanTrivia_rest_of_none hnone
    have hother : lexeme? other trailing = none := by simp [lexeme?, hrest]
    obtain ⟨crosses, hfirst⟩ := lexeme?_trivia hg other trailing
    rw [hother, Option.map_none] at hfirst
    rw [writePieces, (lexemes_of_none hfirst).1]
    rfl
  | cons piece rest ih =>
    obtain ⟨hpiece, hrest⟩ := List.forall_mem_cons.mp hmarked
    cases piece with
    | kept t =>
      obtain ⟨further, hfirst, hlexemes, htrailing'⟩ := lexeme?_of_lexemes_cons htokens
      obtain ⟨hstate, hslash, hfurther⟩ := halike
      have hgoes : GoesOnLike further (writePieces false rest trailing) :=
        goesOnLike_writePieces hlexemes (htrailing'.trans htrailing) hrest
      obtain ⟨m, hm, hkind, htext, -⟩ :=
        lexeme?_moved hfirst (hg.append_gap hfirst bare) hgoes hstate hslash
      have hbehind : (lexemes (other.next t.kind) (writePieces false rest trailing)).map
          Lexeme.written = rest.flatMap Piece.left :=
        ih hlexemes (htrailing'.trans htrailing) hrest hfurther isTrivia_nil
      have hwritten : m.written = t.written := by rw [Lexeme.written, hkind, htext, Lexeme.written]
      rw [writePieces, ← List.append_assoc, (lexemes_of_some hm).1, hkind, List.map_cons, hwritten,
        hbehind]
      rfl
    | cut first others replacement tight =>
      have hrun : lexemes state s = (first :: others).map Token.toLexeme ++
          (rest.flatMap Piece.tokens).map Token.toLexeme := by
        rw [htokens, List.flatMap_cons, List.map_append]
        rfl
      obtain ⟨further, hlexemes, htrailing'⟩ := exists_of_lexemes_append hrun
      obtain ⟨_, hfirst, -⟩ := lexeme?_of_lexemes_cons htokens
      obtain ⟨g', hg', hreplaced⟩ :=
        exists_lexemes_replacement replacement other (hg.append_gap hfirst bare)
      rw [List.map_map] at hlexemes htrailing'
      rw [writePieces, ← List.append_assoc, hreplaced,
        ih hlexemes (htrailing'.trans htrailing) hrest halike hg']
      rfl

/-! ### Stripped sources -/

/-- The tokens of a text and what stands behind them make up the text behind the line that is read
by no one. -/
theorem writeTokens_tokenize (s : Text) :
    writeTokens (tokenize s) ++ trailingTrivia .initial (afterHashbang s) = afterHashbang s := by
  have hflatten := lexemes_flatten .initial (afterHashbang s)
  rw [← Token.place_map_toLexeme (Text.size (hashbang s)) (lexemes .initial (afterHashbang s)),
    List.flatMap_map] at hflatten
  exact hflatten

/-- A stripped source is written from the pieces that the edits cut its tokens into, behind the line
that is read by no one. -/
theorem strip_eq_of_cutInto {s : Text} {found : Interface} {pieces : List Piece}
    (hread : Interface.read s = .ok found) (hcut : CutInto (tokenize s) found.edits pieces) :
    strip s = .ok (hashbang s ++
      writePieces false pieces (trailingTrivia .initial (afterHashbang s))) := by
  have hplaced := placed_place (Text.size (hashbang s)) (lexemes .initial (afterHashbang s))
  have hstart : ∀ edit ∈ found.edits, 0 + Text.size (hashbang s) ≤ edit.span.start := by
    rw [Nat.zero_add]
    exact hcut.le_start hplaced
  have hsplit : applyEdits 0 (hashbang s ++ afterHashbang s) found.edits = hashbang s ++
      applyEdits (0 + Text.size (hashbang s)) (afterHashbang s) found.edits :=
    applyEdits_append hstart
  rw [hashbang_append_afterHashbang, Nat.zero_add] at hsplit
  rw [strip, hread, ← (hcut.applyEdits hplaced _).1, writeTokens_tokenize]
  exact congrArg Except.ok hsplit

/-- Every stripped source is written from pieces. -/
theorem exists_pieces_of_strip {s t : Text} (h : strip s = .ok t) :
    ∃ found pieces, Interface.read s = .ok found ∧ CutInto (tokenize s) found.edits pieces ∧
      t = hashbang s ++ writePieces false pieces (trailingTrivia .initial (afterHashbang s)) := by
  obtain ⟨found, hread, -⟩ := map_eq_ok_iff.mp h
  obtain ⟨pieces, hcut⟩ := exists_cutInto hread
  rw [strip_eq_of_cutInto hread hcut] at h
  exact ⟨found, pieces, hread, hcut, (Except.ok.inj h).symm⟩

/-- Whether what is left of a source is **read as before**: the line that is read by no one is the
same, and every slash reads alike. -/
structure KeepsReading (s : Text) : Prop where
  hashbang : ∀ t, strip s = .ok t → hashbang t = hashbang s
  slashes : ∀ found pieces, Interface.read s = .ok found → CutInto (tokenize s) found.edits pieces →
    ReadsAlike (trailingTrivia .initial (afterHashbang s)) .initial .initial pieces

/-- The tokens of a stripped source are what remains of the tokens of the source, if it is read as
before. -/
theorem KeepsReading.written_strip {s t : Text} {found : Interface} (h : KeepsReading s)
    (hstrip : strip s = .ok t) (hread : Interface.read s = .ok found) :
    (tokenize t).map (·.written) = remaining found.edits (tokenize s) := by
  obtain ⟨pieces, hcut⟩ : ∃ pieces, CutInto (tokenize s) found.edits pieces := exists_cutInto hread
  have hsplit : t = ScriptBundle.hashbang s ++
      writePieces false pieces (trailingTrivia .initial (afterHashbang s)) :=
    Except.ok.inj (hstrip.symm.trans (strip_eq_of_cutInto hread hcut))
  have hbehind : afterHashbang t =
      writePieces false pieces (trailingTrivia .initial (afterHashbang s)) := by
    have hboth := (hashbang_append_afterHashbang t).trans hsplit
    rwa [h.hashbang t hstrip, List.append_cancel_left_eq] at hboth
  have htokens : lexemes .initial (afterHashbang s) =
      (pieces.flatMap Piece.tokens).map Token.toLexeme := by
    rw [hcut.flatMap_tokens, ← tokenize_map_toLexeme]
  rw [← hcut.flatMap_left (placed_place _ _) text_ne_nil_of_mem_tokenize,
    ← lexemes_writePieces htokens rfl hcut.isMarked (h.slashes _ _ hread hcut) isTrivia_nil,
    List.nil_append, ← hbehind, ← tokenize_map_toLexeme, List.map_map]
  rfl

/-! ### Sources that are read as before -/

/-- The characters of written pieces are those of their tokens and of replacements. -/
theorem mem_writePieces {c : Char} {bare : Bool} {pieces : List Piece} {trailing : Text}
    (h : c ∈ writePieces bare pieces trailing) :
    c ∈ writeTokens (pieces.flatMap Piece.tokens) ++ trailing ∨ c ∈ ";void ".toList := by
  induction pieces generalizing bare with
  | nil => exact .inl h
  | cons piece rest ih =>
    cases piece with
    | kept t =>
      rw [writePieces, List.mem_append, List.mem_append] at h
      rcases h with hgap | htext | hrest
      · have hmem : c ∈ t.gap := by cases bare <;> simp_all
        exact .inl (by simp [Piece.tokens, hmem])
      · exact .inl (by simp [Piece.tokens, htext])
      · refine (ih hrest).imp_left fun hmem => ?_
        rw [List.flatMap_cons, writeTokens_append, List.append_assoc]
        exact List.mem_append_right _ hmem
    | cut first others replacement tight =>
      rw [writePieces, List.mem_append, List.mem_append] at h
      rcases h with hgap | hreplacement | hrest
      · have hmem : c ∈ first.gap := by cases bare <;> simp_all
        exact .inl (by simp [Piece.tokens, hmem])
      · refine .inr ?_
        cases replacement <;> simp_all [Replacement.text]
      · refine (ih hrest).imp_left fun hmem => ?_
        rw [List.flatMap_cons, writeTokens_append, List.append_assoc]
        exact List.mem_append_right _ hmem

/-- A text without number signs starts with no line that is read by no one. -/
theorem hashbang_of_no_mark {s : Text} (h : '#' ∉ s) : hashbang s = [] := by
  unfold hashbang
  split <;> simp_all

/-- A source without slashes and number signs is read as before. -/
theorem keepsReading_of_plain {s : Text} (hslash : '/' ∉ s) (hmark : '#' ∉ s) : KeepsReading s := by
  have hbehind : ∀ c ∈ writeTokens (tokenize s) ++ trailingTrivia .initial (afterHashbang s),
      c ∈ s := by
    intro c hc
    rw [writeTokens_tokenize] at hc
    rw [← hashbang_append_afterHashbang s]
    exact List.mem_append_right _ hc
  refine ⟨fun t ht => ?_, fun found pieces hread hcut => ?_⟩
  · obtain ⟨found, pieces, hread, hcut, rfl⟩ := exists_pieces_of_strip ht
    rw [hashbang_of_no_mark hmark, List.nil_append]
    refine hashbang_of_no_mark fun hmem => ?_
    rcases mem_writePieces hmem with hmem | hmem
    · rw [hcut.flatMap_tokens] at hmem
      exact hmark (hbehind _ hmem)
    · exact absurd hmem (by decide)
  · refine readsAlike_of_no_slash (fun piece hpiece t ht hhead => hslash ?_) _ _
    have hmem : t ∈ tokenize s := by
      rw [← hcut.flatMap_tokens]
      exact List.mem_flatMap_of_mem hpiece ht
    refine hbehind _ (List.mem_append_left _ (List.mem_flatMap_of_mem hmem ?_))
    exact List.mem_append_right _ (List.mem_of_mem_head? hhead)

end ScriptBundle
