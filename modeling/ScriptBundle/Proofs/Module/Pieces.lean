import ScriptBundle.Module.Stripped
import ScriptBundle.Proofs.Module.Cutting

/-!
# Pieces of a Source

The edits of a module cut its tokens into pieces: tokens that are kept, and runs of tokens in whose
place there is nothing or a replacement. The stripped source is written from these pieces.

## Main definitions

* `Piece`: a kept token or a run of tokens that is cut out;
* `CutInto`: whether edits cut tokens into pieces;
* `writePieces`: the text that is left of a source.

## Main statements

* `exists_cutInto`: the edits of a module cut its tokens into pieces;
* `ReadsTo.exists_front`: in front of a place that the reader gets to they do, whatever follows;
* `CutInto.applyEdits`: carrying out the edits writes the pieces.
-/

namespace ScriptBundle

/-! ### Written and placed tokens -/

/-- The text that tokens stand for. -/
def writeTokens (ts : List Token) : Text := ts.flatMap fun t => t.gap ++ t.text

@[simp] theorem writeTokens_nil : writeTokens [] = [] := rfl

@[simp] theorem writeTokens_cons (t : Token) (ts : List Token) :
    writeTokens (t :: ts) = t.gap ++ (t.text ++ writeTokens ts) := by
  simp [writeTokens]

@[simp] theorem writeTokens_append (ts others : List Token) :
    writeTokens (ts ++ others) = writeTokens ts ++ writeTokens others := by
  simp [writeTokens]

/-- Whether tokens stand at their places in a text from `offset` on. -/
def Placed : (offset : Nat) → List Token → Prop
  | _, [] => True
  | offset, t :: ts => t.start = offset + Text.size t.gap ∧ Placed t.stop ts

/-- Tokens are placed at their places. -/
theorem placed_place (offset : Nat) (ls : List Lexeme) : Placed offset (Token.place offset ls) := by
  induction ls generalizing offset with
  | nil => trivial
  | cons l ls ih => exact ⟨rfl, ih _⟩

/-- Tokens behind others stand behind the last one of them. -/
theorem Placed.behind {offset : Nat} {first : Token} {others ts : List Token}
    (h : Placed offset (first :: others ++ ts)) : Placed (others.getLastD first).stop ts ∧
      (others.getLastD first).stop = first.stop + Text.size (writeTokens others) := by
  induction others generalizing offset first with
  | nil => exact ⟨h.2, rfl⟩
  | cons second others ih =>
    obtain ⟨hplaced, hstop⟩ := ih h.2
    rw [List.getLastD_cons]
    refine ⟨hplaced, ?_⟩
    have hsecond := h.2.1
    rw [hstop, Token.stop, hsecond, writeTokens_cons, Text.size_append, Text.size_append]
    omega

/-- Tokens behind others have places of their own. -/
theorem Placed.of_append {offset : Nat} {ts others : List Token}
    (h : Placed offset (ts ++ others)) :
    ∃ offset', Placed offset' others := by
  induction ts generalizing offset with
  | nil => exact ⟨offset, h⟩
  | cons t ts ih => exact ih h.2

/-- No token starts in front of the first place. -/
theorem Placed.le_start {offset : Nat} {ts : List Token} (h : Placed offset ts) :
    ∀ t ∈ ts, offset ≤ t.start := by
  induction ts generalizing offset with
  | nil => simp
  | cons first rest ih =>
    intro t ht
    obtain ⟨hfirst, hrest⟩ := h
    rcases List.mem_cons.mp ht with rfl | ht
    · omega
    · have hle := ih hrest t ht
      rw [Token.stop] at hle
      omega

/-- A token that has characters ends behind its start. -/
theorem Token.start_lt_stop {t : Token} (h : t.text ≠ []) : t.start < t.stop := by
  have hsize : Text.size t.text ≠ 0 := mt Text.size_eq_zero_iff.mp h
  rw [Token.stop]
  omega

/-- Tokens of a run start from the first one on and in front of the end of the last one. -/
theorem Placed.within_run {offset : Nat} {first : Token} {others ts : List Token}
    (h : Placed offset (first :: others ++ ts)) (htext : ∀ t ∈ first :: others, t.text ≠ []) :
    ∀ t ∈ first :: others, first.start ≤ t.start ∧ t.start < (others.getLastD first).stop := by
  induction others generalizing offset first with
  | nil =>
    intro t ht
    obtain rfl := List.mem_singleton.mp ht
    exact ⟨Nat.le_refl _, Token.start_lt_stop (htext t ht)⟩
  | cons second others ih =>
    have hrun := ih h.2 fun t ht => htext t (List.mem_cons_of_mem _ ht)
    have hfirst := Token.start_lt_stop (htext first List.mem_cons_self)
    have hsecond := h.2.1
    have hlast := (hrun second List.mem_cons_self).2
    rw [List.getLastD_cons]
    intro t ht
    rcases List.mem_cons.mp ht with rfl | ht
    · omega
    · have hmem := hrun t ht
      omega

/-! ### Pieces -/

/-- A **piece** of a source is a token that is kept, or a run of tokens that is cut out. -/
inductive Piece where
  | kept (t : Token)
  /-- A run is `tight` if the gap behind it is cut out as well. -/
  | cut (first : Token) (others : List Token) (replacement : Replacement) (tight : Bool)

/-- Whether edits cut tokens into pieces. -/
inductive CutInto : List Token → List Edit → List Piece → Prop where
  | nil : CutInto [] [] []
  | kept (t : Token) {ts : List Token} {edits : List Edit} {pieces : List Piece}
    (rest : CutInto ts edits pieces) : CutInto (t :: ts) edits (.kept t :: pieces)
  /-- A run is cut out up to the end of its last token. -/
  | whole {first : Token} (others : List Token) (replacement : Replacement) {ts : List Token}
    {edits : List Edit} {pieces : List Piece} (keyword : first.isModuleKeyword = true)
    (rest : CutInto ts edits pieces) :
    CutInto (first :: others ++ ts)
      (⟨⟨first.start, (others.getLastD first).stop⟩, replacement⟩ :: edits)
      (.cut first others replacement false :: pieces)
  /-- A run is cut out up to the start of the token behind it. -/
  | front {first next : Token} (others : List Token) (replacement : Replacement) {ts : List Token}
    {edits : List Edit} {pieces : List Piece} (keyword : first.isModuleKeyword = true)
    (rest : CutInto (next :: ts) edits pieces) :
    CutInto (first :: others ++ next :: ts) (⟨⟨first.start, next.start⟩, replacement⟩ :: edits)
      (.cut first others replacement true :: pieces)

namespace CutInto

variable {ts : List Token} {edits : List Edit} {pieces : List Piece}

/-- Any number of tokens may be kept. -/
theorem keptAll (h : CutInto ts edits pieces) (front : List Token) :
    CutInto (front ++ ts) edits (front.map .kept ++ pieces) := by
  induction front with
  | nil => exact h
  | cons t front ih => exact .kept t ih

/-- A token that no statement starts with is kept. -/
theorem exists_kept {t : Token} (h : CutInto (t :: ts) edits pieces)
    (hkeyword : t.isModuleKeyword = false) :
    ∃ rest, pieces = .kept t :: rest ∧ CutInto ts edits rest := by
  generalize hts : t :: ts = all at h
  cases h with
  | nil => simp at hts
  | kept t' hrest =>
    obtain ⟨rfl, rfl⟩ := List.cons_eq_cons.mp hts
    exact ⟨_, rfl, hrest⟩
  | whole others replacement keyword _ =>
    obtain ⟨rfl, -⟩ := List.cons_eq_cons.mp hts
    simp [hkeyword] at keyword
  | front others replacement keyword _ =>
    obtain ⟨rfl, -⟩ := List.cons_eq_cons.mp hts
    simp [hkeyword] at keyword

/-- No edit starts in front of the first place. -/
theorem le_start (h : CutInto ts edits pieces) {offset : Nat} (hplaced : Placed offset ts) :
    ∀ edit ∈ edits, offset ≤ edit.span.start := by
  induction h generalizing offset with
  | nil => simp
  | kept t _ ih =>
    intro edit hedit
    have hle := ih hplaced.2 edit hedit
    have hstart := hplaced.le_start t (by simp)
    rw [Token.stop] at hle
    omega
  | @whole first others replacement ts edits pieces keyword rest ih =>
    intro edit hedit
    have hfirst := hplaced.le_start first (by simp)
    rcases List.mem_cons.mp hedit with rfl | hedit
    · exact hfirst
    · obtain ⟨hbehind, hstop⟩ := hplaced.behind
      have hle := ih hbehind edit hedit
      rw [hstop, Token.stop] at hle
      omega
  | @front first next others replacement ts edits pieces keyword rest ih =>
    intro edit hedit
    have hfirst := hplaced.le_start first (by simp)
    rcases List.mem_cons.mp hedit with rfl | hedit
    · exact hfirst
    · obtain ⟨hbehind, hstop⟩ := hplaced.behind
      have hle := ih hbehind edit hedit
      rw [hstop, Token.stop] at hle
      omega

end CutInto

/-! ### What is left -/

/-- The text that is left of a source: its pieces, and what stands behind the last token. The gap
before the first piece is left out if it is `bare`. -/
def writePieces : (bare : Bool) → List Piece → Text → Text
  | _, [], trailing => trailing
  | bare, .kept t :: rest, trailing =>
    (if bare then [] else t.gap) ++ (t.text ++ writePieces false rest trailing)
  | bare, .cut first _ replacement tight :: rest, trailing =>
    (if bare then [] else first.gap) ++ (replacement.text ++ writePieces tight rest trailing)

/-- What is written of pieces ends with what is written of the last ones. -/
theorem exists_writePieces_append (front pieces : List Piece) (bare : Bool) (trailing : Text) :
    ∃ before bare', writePieces bare (front ++ pieces) trailing =
      before ++ writePieces bare' pieces trailing := by
  induction front generalizing bare with
  | nil => exact ⟨[], bare, rfl⟩
  | cons piece front ih =>
    cases piece with
    | kept t =>
      obtain ⟨before, bare', hfront⟩ := ih false
      refine ⟨(if bare then [] else t.gap) ++ (t.text ++ before), bare', ?_⟩
      rw [List.cons_append, writePieces, hfront, List.append_assoc, List.append_assoc]
    | cut first others replacement tight =>
      obtain ⟨before, bare', hfront⟩ := ih tight
      refine ⟨(if bare then [] else first.gap) ++ (replacement.text ++ before), bare', ?_⟩
      rw [List.cons_append, writePieces, hfront, List.append_assoc, List.append_assoc]

/-- Tokens that are kept are written as they stand. -/
theorem writePieces_kept (ts : List Token) (pieces : List Piece) (trailing : Text) :
    writePieces false (ts.map .kept ++ pieces) trailing =
      writeTokens ts ++ writePieces false pieces trailing := by
  induction ts with
  | nil => rfl
  | cons t ts ih =>
    rw [List.map_cons, List.cons_append, writePieces, ih, writeTokens_cons, List.append_assoc,
      List.append_assoc]
    rfl

/-- Edits that start behind the front of a text leave it as it is. -/
theorem applyEdits_append {offset : Nat} {front rest : Text} {edits : List Edit}
    (h : ∀ edit ∈ edits, offset + Text.size front ≤ edit.span.start) :
    applyEdits offset (front ++ rest) edits =
      front ++ applyEdits (offset + Text.size front) rest edits := by
  cases edits with
  | nil => rfl
  | cons edit others =>
    have hle := h edit (by simp)
    have hsplit : edit.span.start - offset =
        Text.size front + (edit.span.start - (offset + Text.size front)) := by omega
    simp only [applyEdits, hsplit, Text.takeBytes_append, Text.dropBytes_append, List.append_assoc]

/-- An edit takes out the text that it covers. -/
theorem applyEdits_cut {offset : Nat} {front taken rest : Text} {edit : Edit} {edits : List Edit}
    (hstart : edit.span.start = offset + Text.size front)
    (hstop : edit.span.stop = edit.span.start + Text.size taken) :
    applyEdits offset (front ++ (taken ++ rest)) (edit :: edits) =
      front ++ (edit.replacement.text ++ applyEdits edit.span.stop rest edits) := by
  have hfront : edit.span.start - offset = Text.size front + 0 := by omega
  have htaken : edit.span.stop - edit.span.start = Text.size taken + 0 := by omega
  simp only [applyEdits, hfront, htaken, Text.takeBytes_append, Text.dropBytes_append,
    Text.takeBytes_zero, Text.dropBytes_zero, List.append_nil, List.append_assoc]

/-- An edit that starts at a token is carried out alike from the gap of the token on and behind
it. -/
theorem applyEdits_cut_token {offset stop : Nat} {first : Token} {taken rest written : Text}
    {edits : List Edit} (replacement : Replacement)
    (hstart : first.start = offset + Text.size first.gap)
    (hstop : stop = first.stop + Text.size taken) (hrest : applyEdits stop rest edits = written) :
    applyEdits offset (first.gap ++ (first.text ++ (taken ++ rest)))
        (⟨⟨first.start, stop⟩, replacement⟩ :: edits) =
      first.gap ++ (replacement.text ++ written) ∧
    applyEdits first.start (first.text ++ (taken ++ rest))
        (⟨⟨first.start, stop⟩, replacement⟩ :: edits) = replacement.text ++ written := by
  have hsize : stop = first.start + Text.size (first.text ++ taken) := by
    rw [hstop, Text.size_append, Token.stop]
    omega
  have hbehind : applyEdits first.start ([] ++ ((first.text ++ taken) ++ rest))
      (⟨⟨first.start, stop⟩, replacement⟩ :: edits) =
        [] ++ (replacement.text ++ applyEdits stop rest edits) := applyEdits_cut rfl hsize
  rw [← hrest, ← List.append_assoc first.text]
  exact ⟨applyEdits_cut hstart hsize, hbehind⟩

/-- Carrying out the edits writes the pieces, from the gap of the first token on as well as behind
it. -/
theorem CutInto.applyEdits {ts : List Token} {edits : List Edit} {pieces : List Piece}
    (h : CutInto ts edits pieces) {offset : Nat} (hplaced : Placed offset ts) (trailing : Text) :
    ScriptBundle.applyEdits offset (writeTokens ts ++ trailing) edits =
        writePieces false pieces trailing ∧
      ∀ t rest, ts = t :: rest →
        ScriptBundle.applyEdits t.start (t.text ++ (writeTokens rest ++ trailing)) edits =
          writePieces true pieces trailing := by
  induction h generalizing offset with
  | nil => exact ⟨rfl, by simp⟩
  | @kept t ts edits pieces hrest ih =>
    obtain ⟨hstart, hbehind⟩ := hplaced
    obtain ⟨hwritten, -⟩ := ih hbehind
    have hle : ∀ edit ∈ edits, t.stop ≤ edit.span.start := hrest.le_start hbehind
    constructor
    · have hstop : offset + Text.size (t.gap ++ t.text) = t.stop := by
        rw [Text.size_append, Token.stop, hstart]
        omega
      have hwrite : writeTokens (t :: ts) ++ trailing =
          (t.gap ++ t.text) ++ (writeTokens ts ++ trailing) := by simp
      rw [hwrite, applyEdits_append (hstop ▸ hle), hstop, hwritten]
      simp [writePieces]
    · rintro _ _ ⟨⟩
      refine (applyEdits_append hle).trans ?_
      rw [← Token.stop, hwritten]
      rfl
  | @whole first others replacement ts edits pieces keyword hrest ih =>
    obtain ⟨hbehind, hstop⟩ := hplaced.behind
    obtain ⟨hwritten, -⟩ := ih hbehind
    obtain ⟨hgap, htext⟩ := applyEdits_cut_token replacement hplaced.1 hstop hwritten
    constructor
    · simpa [writePieces] using hgap
    · rintro _ _ ⟨⟩
      simpa [writePieces] using htext
  | @front first next others replacement ts edits pieces keyword hrest ih =>
    obtain ⟨hbehind, hstop⟩ := hplaced.behind
    have hwritten := (ih hbehind).2 next ts rfl
    have hnext : next.start = first.stop + Text.size (writeTokens others ++ next.gap) := by
      rw [hbehind.1, hstop, Text.size_append]
      omega
    obtain ⟨hgap, htext⟩ := applyEdits_cut_token replacement hplaced.1 hnext hwritten
    constructor
    · simpa [writePieces] using hgap
    · rintro _ _ ⟨⟩
      simpa [writePieces] using htext

/-! ### The pieces of a module -/

namespace CutInto

variable {c between behind : Cursor} {edits : List Edit} {pieces : List Piece}

/-- A dynamic import is kept. -/
theorem behind_dynamic (h : CutInto behind.rest edits pieces) {keyword : Token}
    (hpasses : c.Passes [keyword] behind) : CutInto c.rest edits (.kept keyword :: pieces) := by
  rw [hpasses.rest]
  exact .kept keyword h

/-- A statement may be cut out as a whole. -/
theorem behind_whole (h : CutInto behind.rest edits pieces) {first : Token} {others : List Token}
    (hpasses : c.Passes (first :: others) behind) (hkeyword : first.isModuleKeyword = true)
    (replacement : Replacement) :
    CutInto c.rest (⟨⟨first.start, (others.getLastD first).stop⟩, replacement⟩ :: edits)
      (.cut first others replacement false :: pieces) := by
  rw [hpasses.rest]
  exact .whole others replacement hkeyword h

/-- In front of a default value two words are cut out, and the gap behind them. -/
theorem behind_defaultValue (h : CutInto behind.rest edits pieces) {first second value : Token}
    (hpasses : c.Passes [first, second] behind) (hkeyword : first.isModuleKeyword = true)
    (hnext : behind.peek = some value) (replacement : Replacement) :
    CutInto c.rest (⟨⟨first.start, value.start⟩, replacement⟩ :: edits)
      (.cut first [second] replacement true :: pieces) := by
  obtain ⟨rest, hrest⟩ := List.head?_eq_some_iff.mp hnext
  rw [hrest] at h
  rw [hpasses.rest, hrest]
  exact .front [second] replacement hkeyword h

/-- In front of a declaration the keyword is cut out, and the gap behind it. -/
theorem behind_declaration (h : CutInto behind.rest edits pieces) {keyword word : Token}
    {kept : List Token} (hpasses : c.Passes [keyword, word] between)
    (hkept : between.Passes kept behind) (hkeyword : keyword.isName "export" = true) :
    CutInto c.rest (keywordRemoval keyword.start word.start :: edits)
      (.cut keyword [] .nothing true :: .kept word :: (kept.map .kept ++ pieces)) := by
  rw [hpasses.rest, hkept.rest]
  exact .front [] .nothing (Token.isModuleKeyword_of_export hkeyword) (.kept word (h.keptAll kept))

end CutInto

/-- The edits of a statement cut the tokens that it passes into pieces, whatever stands behind. -/
theorem StatementCut.exists_front {c behind : Cursor} {found : Interface}
    (h : StatementCut c found behind) : ∃ front, ∀ {edits pieces},
      CutInto behind.rest edits pieces →
        CutInto c.rest (found.edits ++ edits) (front ++ pieces) := by
  cases h with
  | @dynamic keyword passes word next empty =>
    refine ⟨[.kept keyword], fun hbehind => ?_⟩
    rw [empty]
    exact hbehind.behind_dynamic passes
  | @whole first others passes keyword form member edits =>
    let removed := removal first.start (others.getLastD first).stop behind
    refine ⟨[.cut first others removed.replacement false], fun hbehind => ?_⟩
    rw [edits]
    exact hbehind.behind_whole passes keyword removed.replacement
  | @defaultValue first second value passes keyword word next edits =>
    refine ⟨[.cut first [second] (defaultReplacement behind) true], fun hbehind => ?_⟩
    rw [edits]
    exact hbehind.behind_defaultValue passes (Token.isModuleKeyword_of_export keyword) next _
  | @declaration first next between kept names passes closes keyword word among declared =>
    refine ⟨.cut first [] .nothing true :: .kept next :: kept.map .kept, fun hbehind => ?_⟩
    rw [declared]
    exact hbehind.behind_declaration passes closes.toPasses keyword

/-- The edits of a module cut its tokens into pieces. -/
theorem exists_cutInto {depth : Nat} {c : Cursor} {found : Interface}
    (h : interfaceFrom depth c = .ok found) : ∃ pieces, CutInto c.rest found.edits pieces := by
  fun_induction interfaceFrom depth c generalizing found with
  | case1 => simp at h
  | case2 depth c statement hstatement _ ih =>
    obtain ⟨further, hfurther, rfl⟩ := map_eq_ok_iff.mp h
    obtain ⟨pieces, hpieces⟩ := ih hfurther
    obtain ⟨-, -, hcut⟩ := moduleStatement_cut hstatement
    obtain ⟨front, hfront⟩ := hcut.exists_front
    exact ⟨front ++ pieces, hfront hpieces⟩
  | case3 depth c hnone hend =>
    obtain rfl := Except.ok.inj h
    obtain ⟨previous, rest⟩ := c
    cases rest with
    | nil => exact ⟨_, .nil⟩
    | cons t rest => simp [Cursor.bump] at hend
  | case4 depth c hnone a hbump _ ih =>
    obtain ⟨pieces, hpieces⟩ := ih h
    rw [(bump_passes hbump).rest]
    exact ⟨_, .kept _ hpieces⟩

/-- In front of a place that the reader gets to the edits cut the tokens into pieces, whatever
stands behind. -/
theorem ReadsTo.exists_front {depth depth' : Nat} {c c' : Cursor} (h : ReadsTo depth c depth' c')
    {found : Interface} (hfound : interfaceFrom depth c = .ok found) :
    ∃ (passed : List Token) (front : List Piece) (further : Interface),
      c.rest = passed ++ c'.rest ∧ interfaceFrom depth' c' = .ok further ∧
        ∀ {pieces}, CutInto c'.rest further.edits pieces →
          CutInto c.rest found.edits (front ++ pieces) := by
  induction h generalizing found with
  | refl depth c => exact ⟨[], [], found, rfl, hfound, id⟩
  | @token depth depth' c c' a none bump _ ih =>
    rw [interfaceFrom_of_token none bump] at hfound
    obtain ⟨passed, front, further, hrest, hfurther, hcut⟩ := ih hfound
    have hbump := (bump_passes bump).rest
    refine ⟨a.value :: passed, .kept a.value :: front, further, ?_, hfurther, fun hpieces => ?_⟩
    · rw [hbump, hrest]
      rfl
    · rw [hbump]
      exact .kept a.value (hcut hpieces)
  | @statement depth depth' c c' a statement _ ih =>
    rw [interfaceFrom_of_statement statement] at hfound
    obtain ⟨others, hothers, rfl⟩ := map_eq_ok_iff.mp hfound
    obtain ⟨passed, front, further, hrest, hfurther, hcut⟩ := ih hothers
    obtain ⟨-, -, hstatement⟩ := moduleStatement_cut statement
    obtain ⟨taken, htaken⟩ := hstatement.exists_passes
    obtain ⟨first, hfirst⟩ := hstatement.exists_front
    refine ⟨taken ++ passed, first ++ front, further, ?_, hfurther, fun hpieces => ?_⟩
    · rw [htaken.rest, hrest, List.append_assoc]
    · rw [List.append_assoc]
      exact hfirst (hcut hpieces)

end ScriptBundle
