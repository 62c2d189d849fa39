import ScriptBundle.Proofs.Module.Leftover
import ScriptBundle.Proofs.Token.Bounded

/-!
# Swallowed Statements

An exported declaration is passed up to the end of its last initialiser. A module statement that
stands before that end is **swallowed**: it is neither declared nor taken out, and it is what is
left of the module syntax of a source.

## Main definitions

* `SwallowsAt`: whether the declaration at a cursor swallows a statement;
* `Swallows`: whether a declaration behind a cursor does.

## Main statements

* `remainSwallowed`: a bare word remains exactly where a statement is swallowed;
* `skipExpression_word`: where an initialiser goes on over a word, and so swallows a statement;
* `strip_clean_iff`: when stripping leaves no module syntax.
-/

namespace ScriptBundle

/-! ### Bare words among others -/

/-- A word inside of brackets, a member and any other token is not bare. -/
theorem isBareWord_eq_false {depth : Nat} {previous : Option TokenKind} {kind : TokenKind}
    (h : depth ≠ 0 ∨ previous.any (· == .punctuator '.') = true ∨
      (kind ≠ .identifier "import" ∧ kind ≠ .identifier "export"))
    (next : Option TokenKind) : isBareWord depth previous kind next = false := by
  rcases h with hdepth | hmember | ⟨himport, hexport⟩
  · simp [isBareWord, hdepth]
  · simp [isBareWord, hmember]
  · simp [isBareWord, himport, hexport]

theorem hasBareWord_cons_of_false {depth : Nat} {previous : Option TokenKind} {kind : TokenKind}
    {rest : List TokenKind} {after : Option TokenKind}
    (h : isBareWord depth previous kind (rest.head?.or after) = false) :
    hasBareWord depth previous (kind :: rest) after =
      hasBareWord (depthAfter depth kind) (some kind) rest after := by
  rw [hasBareWord, h, Bool.false_or]

/-- Bare words among tokens and behind them. -/
theorem hasBareWord_append (depth : Nat) (previous : Option TokenKind)
    (front kinds : List TokenKind) (after : Option TokenKind) :
    hasBareWord depth previous (front ++ kinds) after =
      (hasBareWord depth previous front (kinds.head?.or after) ||
        hasBareWord (front.foldl depthAfter depth) (front.getLast?.or previous) kinds after) := by
  induction front generalizing depth previous with
  | nil => rfl
  | cons kind front ih =>
    have hlast : (kind :: front).getLast?.or previous = front.getLast?.or (some kind) := by
      rw [List.getLast?_cons]
      cases front.getLast? <;> rfl
    rw [List.cons_append, hasBareWord, hasBareWord, ih, List.head?_append, Option.or_assoc, hlast,
      Bool.or_assoc]
    rfl

/-- A replacement holds no bare word. -/
theorem exists_hasBareWord_replacement (replacement : Replacement) (previous : Option TokenKind) :
    ∃ previous', ∀ kinds, hasBareWord 0 previous (replacement.tokens.map Prod.fst ++ kinds) none =
      hasBareWord 0 previous' kinds none := by
  cases replacement with
  | nothing => exact ⟨previous, fun _ => rfl⟩
  | semicolon =>
    refine ⟨some (.punctuator ';'), fun kinds => ?_⟩
    exact hasBareWord_cons_of_false (isBareWord_eq_false (.inr (.inr ⟨by decide, by decide⟩)) _)
  | voidOperator =>
    refine ⟨some (.identifier "void"), fun kinds => ?_⟩
    exact hasBareWord_cons_of_false (isBareWord_eq_false (.inr (.inr ⟨by decide, by decide⟩)) _)

/-! ### Declarations that swallow a statement -/

/-- Whether the exported declaration at a cursor **swallows** a statement: it passes over a word
that stands bare in front of what remains. -/
def SwallowsAt (c : Cursor) : Prop :=
  ∃ (a : Advance c Interface) (word : Token) (kept : List Token) (further : Interface),
    IsDeclaration c a word kept ∧ interfaceFrom 0 a.cursor = .ok further ∧
      hasBareWord 0 (some word.kind) (kept.map (·.kind))
        (remainingKinds further.edits a.cursor.rest).head? = true

/-- Whether an exported declaration that the reader gets to swallows a statement. -/
def Swallows (depth : Nat) (c : Cursor) : Prop :=
  ∃ c', ReadsTo depth c 0 c' ∧ SwallowsAt c'

/-- Statements are swallowed behind a token that is passed exactly if they are from it on. -/
theorem swallows_of_token {depth : Nat} {c : Cursor} {a : Advance c Token}
    (hnone : moduleStatement depth c = .ok none) (hbump : c.bump = some a) :
    Swallows depth c ↔ Swallows (depthAfter depth a.value.kind) a.cursor := by
  constructor
  · rintro ⟨c', hreads, hswallows⟩
    cases hreads with
    | refl =>
      obtain ⟨a, word, kept, further, hdeclaration, -⟩ := hswallows
      have hsome := hdeclaration.statement
      rw [hnone] at hsome
      simp at hsome
    | token none bump hfurther =>
      obtain rfl := Option.some.inj (hbump.symm.trans bump)
      exact ⟨c', hfurther, hswallows⟩
    | statement found hfurther =>
      rw [hnone] at found
      simp at found
  · rintro ⟨c', hreads, hswallows⟩
    exact ⟨c', .token hnone hbump hreads, hswallows⟩

/-- Statements are swallowed by a statement or behind it. -/
theorem swallows_of_statement {c : Cursor} {a : Advance c Interface}
    (hstatement : moduleStatement 0 c = .ok (some a)) :
    Swallows 0 c ↔ SwallowsAt c ∨ Swallows 0 a.cursor := by
  constructor
  · rintro ⟨c', hreads, hswallows⟩
    cases hreads with
    | refl => exact .inl hswallows
    | token none bump hfurther =>
      rw [hstatement] at none
      simp at none
    | statement found hfurther =>
      obtain rfl := Option.some.inj (Except.ok.inj (hstatement.symm.trans found))
      exact .inr ⟨c', hfurther, hswallows⟩
  · rintro (hswallows | ⟨c', hreads, hswallows⟩)
    · exact ⟨c, .refl 0 c, hswallows⟩
    · exact ⟨c', .statement hstatement hreads, hswallows⟩

/-- Nothing is swallowed where nothing is left. -/
theorem not_swallows_of_end {depth : Nat} {c : Cursor} (hend : c.rest = []) :
    ¬Swallows depth c := by
  rintro ⟨c', hreads, hswallows⟩
  cases hreads with
  | refl =>
    obtain ⟨a, word, kept, further, hdeclaration, -⟩ := hswallows
    obtain ⟨keyword, -, hrest⟩ := hdeclaration.tokens
    simp [hend] at hrest
  | @token _ _ _ _ a none bump hfurther =>
    have hshorter := a.shorter
    simp [hend] at hshorter
  | @statement _ _ _ _ a found hfurther =>
    have hshorter := a.shorter
    simp [hend] at hshorter

/-! ### What remains of a source -/

/-- A token that no statement starts with remains. -/
theorem head?_remaining {offset : Nat} {ts : List Token} {t : Token} {edits : List Edit}
    {pieces : List Piece} (hcut : CutInto (t :: ts) edits pieces)
    (hplaced : Placed offset (t :: ts))
    (htext : ∀ t' ∈ t :: ts, t'.text ≠ []) (hkeyword : t.isModuleKeyword = false) :
    (remaining edits (t :: ts)).head? = some t.written := by
  obtain ⟨rest, rfl, -⟩ := hcut.exists_kept hkeyword
  rw [← hcut.flatMap_left hplaced htext]
  rfl

/-- A declaration swallows what it passes over. -/
theorem swallowsAt_iff {c : Cursor} {a : Advance c Interface} {word : Token} {kept : List Token}
    {further : Interface} (h : IsDeclaration c a word kept)
    (hfurther : interfaceFrom 0 a.cursor = .ok further) :
    SwallowsAt c ↔ hasBareWord 0 (some word.kind) (kept.map (·.kind))
      (remainingKinds further.edits a.cursor.rest).head? = true := by
  constructor
  · rintro ⟨a', word', kept', further', hdeclaration, hfurther', hbare⟩
    obtain rfl := Option.some.inj (Except.ok.inj (h.statement.symm.trans hdeclaration.statement))
    obtain rfl := Except.ok.inj (hfurther.symm.trans hfurther')
    obtain ⟨keyword, -, hrest⟩ := h.tokens
    obtain ⟨keyword', -, hrest'⟩ := hdeclaration.tokens
    obtain ⟨-, hbehind⟩ := List.cons_eq_cons.mp (hrest.symm.trans hrest')
    obtain ⟨rfl, hkept⟩ := List.cons_eq_cons.mp hbehind
    obtain rfl := List.append_cancel_right hkept
    exact hbare
  · exact fun hbare => ⟨a, word, kept, further, h, hfurther, hbare⟩

theorem not_swallowsAt {c : Cursor} {a : Advance c Interface}
    (hstatement : moduleStatement 0 c = .ok (some a))
    (hnot : ¬∃ word kept, IsDeclaration c a word kept) : ¬SwallowsAt c := by
  rintro ⟨a', word, kept, -, hdeclaration, -⟩
  obtain rfl := Option.some.inj (Except.ok.inj (hstatement.symm.trans hdeclaration.statement))
  exact hnot ⟨word, kept, hdeclaration⟩

/-! ### Bare words that remain -/

/-- Whether bare words **remain as swallowed** behind a cursor, whatever stands in front of it
there: a point, if one stands in front of the cursor. -/
def RemainSwallowed (depth : Nat) (c : Cursor) (found : Interface) : Prop :=
  ∀ previous, (isMember c.previous = true → previous.any (· == .punctuator '.') = true) →
    (hasBareWord depth previous (remainingKinds found.edits c.rest) none = true ↔ Swallows depth c)

section

variable {c : Cursor} {a : Advance c Interface} {further : Interface} {offset : Nat}

/-- Behind a statement of which only a replacement remains. -/
theorem RemainSwallowed.behind_cut {found : Interface} {replacement : Replacement}
    (h : RemainSwallowed 0 a.cursor further) (hstatement : moduleStatement 0 c = .ok (some a))
    (hnot : ¬SwallowsAt c) (hmember : isMember a.cursor.previous = false)
    (hremaining : remaining found.edits c.rest =
      replacement.tokens ++ remaining further.edits a.cursor.rest) : RemainSwallowed 0 c found := by
  intro previous _
  obtain ⟨previous', hreplaced⟩ := exists_hasBareWord_replacement replacement previous
  rw [remainingKinds, hremaining, List.map_append, hreplaced]
  refine (h previous' fun h => absurd h (by simp [hmember])).trans ?_
  rw [swallows_of_statement hstatement]
  exact (or_iff_right hnot).symm

/-- Behind a dynamic import. -/
theorem RemainSwallowed.behind_dynamic {found : Interface} {keyword : Token} {pieces : List Piece}
    (h : RemainSwallowed 0 a.cursor further) (hstatement : moduleStatement 0 c = .ok (some a))
    (hnot : ¬SwallowsAt c) (hpasses : c.Passes [keyword] a.cursor)
    (hnext : (a.cursor.atPunctuator '(' || a.cursor.atPunctuator '.') = true)
    (hkeyword : keyword.isName "import" = true)
    (hpieces : CutInto a.cursor.rest further.edits pieces) (hplaced : Placed offset a.cursor.rest)
    (htext : ∀ t ∈ a.cursor.rest, t.text ≠ [])
    (hremaining : remaining found.edits c.rest =
      keyword.written :: remaining further.edits a.cursor.rest) : RemainSwallowed 0 c found := by
  intro previous _
  have hkind : keyword.kind = .identifier "import" := Token.kind_of_isName hkeyword
  have hbare : isBareWord 0 previous keyword.kind
      ((remainingKinds further.edits a.cursor.rest).head?.or none) = false := by
    rw [Cursor.atPunctuator, Cursor.atPunctuator, Cursor.peek] at hnext
    cases hrest : a.cursor.rest with
    | nil => simp [hrest] at hnext
    | cons next rest =>
      rw [hrest] at hnext hpieces hplaced htext
      have hopening : next.kind = .punctuator '(' ∨ next.kind = .punctuator '.' := by
        simpa [Token.isPunctuator] using hnext
      have hword : next.isModuleKeyword = false := by
        rcases hopening with hopening | hopening <;>
          simp [Token.isModuleKeyword, Token.isName, hopening]
      rw [remainingKinds, List.head?_map, head?_remaining hpieces hplaced htext hword]
      rcases hopening with hopening | hopening <;>
        simp [isBareWord, hkind, hopening, Lexeme.written]
  have hkinds : remainingKinds found.edits c.rest =
      keyword.kind :: remainingKinds further.edits a.cursor.rest := by
    rw [remainingKinds, hremaining]
    rfl
  have hdepth : depthAfter 0 keyword.kind = 0 := by
    rw [hkind]
    rfl
  have hbehind := h (some keyword.kind) fun hmember => by
    rwa [hpasses.previous_eq rfl] at hmember
  rw [hkinds, hasBareWord_cons_of_false hbare, hdepth, hbehind, swallows_of_statement hstatement]
  exact (or_iff_right hnot).symm

/-- Behind an exported declaration, which swallows what it passes over. -/
theorem RemainSwallowed.behind_declaration {found : Interface} {word : Token} {kept : List Token}
    {between : Cursor} (h : RemainSwallowed 0 a.cursor further)
    (hfurther : interfaceFrom 0 a.cursor = .ok further) (hdeclaration : IsDeclaration c a word kept)
    (hbetween : between.previous = some word) (hcloses : between.Closes 0 kept a.cursor)
    (hremaining : remaining found.edits c.rest = word.written ::
      (kept.map (·.written) ++ remaining further.edits a.cursor.rest)) :
    RemainSwallowed 0 c found := by
  intro previous _
  have hkinds : remainingKinds found.edits c.rest =
      word.kind :: (kept.map (·.kind) ++ remainingKinds further.edits a.cursor.rest) := by
    rw [remainingKinds, hremaining, List.map_cons, List.map_append, List.map_map]
    rfl
  obtain ⟨name, hname, hkind⟩ := Token.kind_of_startsDeclaration hdeclaration.word
  have hbare : ∀ next, isBareWord 0 previous word.kind next = false := by
    refine isBareWord_eq_false (.inr (.inr ?_))
    have hwords : ∀ name ∈ declarationWords, name ≠ "import" ∧ name ≠ "export" := by decide
    rw [hkind]
    simpa using hwords name hname
  have hdepth : depthAfter 0 word.kind = 0 := by
    rw [hkind]
    rfl
  have hlast : (kept.getLast?.map (·.kind)).or (some word.kind) =
      a.cursor.previous.map (·.kind) := by
    rw [hcloses.previous, hbetween]
    cases kept.getLast? <;> rfl
  have hbehind := h (a.cursor.previous.map (·.kind)) (by cases a.cursor.previous <;> exact id)
  rw [hkinds, hasBareWord_cons_of_false (hbare _), hdepth, hasBareWord_append, List.getLast?_map,
    List.foldl_map, hlast, swallows_of_statement hdeclaration.statement,
    swallowsAt_iff hdeclaration hfurther, Bool.or_eq_true, Option.or_none]
  refine or_congr_right ?_
  rcases hcloses.depth with hend | haround
  · have hnone : further = .empty := by
      have hempty := interfaceFrom_nil 0 a.cursor.previous
      rw [← hend] at hempty
      exact Except.ok.inj (hfurther.symm.trans hempty)
    rw [hend, hnone]
    exact iff_of_false (by simp [remainingKinds, remaining, Interface.empty, hasBareWord])
      (not_swallows_of_end hend)
  · rw [show kept.foldl (fun depth t => depthAfter depth t.kind) 0 = 0 from haround 0, hbehind]

/-- Behind a statement of any form. -/
theorem RemainSwallowed.behind_statement (h : RemainSwallowed 0 a.cursor further)
    (hstatement : moduleStatement 0 c = .ok (some a))
    (hfurther : interfaceFrom 0 a.cursor = .ok further) (hplaced : Placed offset c.rest)
    (htext : ∀ t ∈ c.rest, t.text ≠ []) : RemainSwallowed 0 c (a.value ++ further) := by
  obtain ⟨pieces, hpieces⟩ := exists_cutInto hfurther
  by_cases hdeclaration : ∃ word kept, IsDeclaration c a word kept
  · obtain ⟨word, kept, hdeclaration⟩ := hdeclaration
    obtain ⟨_, between, _, -, hpasses, hcloses, -, -⟩ := hdeclaration.cut
    exact h.behind_declaration hfurther hdeclaration (hpasses.previous_eq rfl) hcloses
      (hdeclaration.remaining hfurther hplaced htext)
  · have hnot := not_swallowsAt hstatement hdeclaration
    obtain ⟨-, -, hcut⟩ := moduleStatement_cut hstatement
    cases hcut with
    | @dynamic keyword passes word next empty =>
      have hbehind := hplaced
      rw [passes.rest] at hbehind
      refine h.behind_dynamic hstatement hnot passes next word hpieces hbehind.2 ?_ ?_
      · exact fun t ht => htext t (by simp [passes.rest, ht])
      · rw [empty]
        exact remaining_passed [.kept keyword] passes.rest hplaced htext
          (hpieces.behind_dynamic passes) hpieces
    | @whole first others passes keyword form member edits =>
      let removed := removal first.start (others.getLastD first).stop a.cursor
      have hremaining := remaining_passed [.cut first others removed.replacement false] passes.rest
        hplaced htext (hpieces.behind_whole passes keyword removed.replacement) hpieces
      rw [flatMap_left_cut] at hremaining
      refine h.behind_cut hstatement hnot member (Eq.trans ?_ hremaining)
      rw [Interface.append_edits, edits]
      rfl
    | @defaultValue first second value passes keyword word next edits =>
      have hkind : second.kind = .identifier "default" := Token.kind_of_isName word
      have hmember : isMember a.cursor.previous = false := by
        rw [passes.previous_eq rfl]
        simp [isMember, Token.isPunctuator, hkind]
      have hcut := hpieces.behind_defaultValue passes (Token.isModuleKeyword_of_export keyword) next
        (defaultReplacement a.cursor)
      have hremaining := remaining_passed [.cut first [second] (defaultReplacement a.cursor) true]
        passes.rest hplaced htext hcut hpieces
      rw [flatMap_left_cut] at hremaining
      refine h.behind_cut hstatement hnot hmember (Eq.trans ?_ hremaining)
      rw [Interface.append_edits, edits]
      rfl
    | @declaration first next between kept names passes closes keyword word among declared =>
      refine absurd ⟨next, kept, hstatement, ⟨first, keyword, ?_⟩, word⟩ hdeclaration
      rw [passes.rest, closes.rest]
      rfl

/-- Behind a token that starts no statement. -/
theorem RemainSwallowed.behind_token {depth : Nat} {a : Advance c Token} {found : Interface}
    (h : RemainSwallowed (depthAfter depth a.value.kind) a.cursor found)
    (hnone : moduleStatement depth c = .ok none) (hbump : c.bump = some a)
    (hfound : interfaceFrom (depthAfter depth a.value.kind) a.cursor = .ok found)
    (hplaced : Placed offset c.rest) (htext : ∀ t ∈ c.rest, t.text ≠ []) :
    RemainSwallowed depth c found := by
  intro previous hmember
  have hpasses := bump_passes hbump
  have hrest : c.rest = a.value :: a.cursor.rest := hpasses.rest
  rw [hrest] at hplaced htext
  obtain ⟨pieces, hpieces⟩ := exists_cutInto hfound
  have hkinds : remainingKinds found.edits c.rest =
      a.value.kind :: remainingKinds found.edits a.cursor.rest := by
    have hcut : CutInto (a.value :: a.cursor.rest) found.edits ([.kept a.value] ++ pieces) :=
      .kept _ hpieces
    have hpassed : a.value :: a.cursor.rest = [a.value] ++ a.cursor.rest := rfl
    rw [hrest, remainingKinds, remaining_passed _ hpassed hplaced htext hcut hpieces]
    rfl
  have hbare : ∀ next, isBareWord depth previous a.value.kind next = false := by
    refine isBareWord_eq_false ?_
    by_cases hdepth : depth = 0
    · cases hpoint : isMember c.previous with
      | true => exact .inr (.inl (hmember hpoint))
      | false =>
        have hkeyword := mt (moduleStatement_ne_none hrest hdepth hpoint) (not_not_intro hnone)
        refine .inr (.inr ?_)
        simpa [Token.isModuleKeyword, Token.isName] using hkeyword
    · exact .inl hdepth
  have hbehind := h (some a.value.kind) fun hmember => by
    rwa [hpasses.previous_eq rfl] at hmember
  rw [hkinds, hasBareWord_cons_of_false (hbare _), hbehind, swallows_of_token hnone hbump]

end

/-- A bare word remains exactly where a statement is swallowed. -/
theorem remainSwallowed {depth offset : Nat} {c : Cursor} {found : Interface}
    (h : interfaceFrom depth c = .ok found) (hplaced : Placed offset c.rest)
    (htext : ∀ t ∈ c.rest, t.text ≠ []) : RemainSwallowed depth c found := by
  fun_induction interfaceFrom depth c generalizing offset found with
  | case1 => simp at h
  | case2 depth c a hstatement _ ih =>
    obtain ⟨further, hfurther, rfl⟩ := map_eq_ok_iff.mp h
    obtain ⟨rfl, -, hcut⟩ := moduleStatement_cut hstatement
    obtain ⟨passed, hpassed⟩ := hcut.exists_passes
    have hrest := hpassed.rest
    obtain ⟨offset', hbehind⟩ : ∃ offset', Placed offset' a.cursor.rest := by
      rw [hrest] at hplaced
      exact hplaced.of_append
    have hfurther' := ih hfurther hbehind fun t ht => htext t (by simp [hrest, ht])
    exact hfurther'.behind_statement hstatement hfurther hplaced htext
  | case3 depth c hnone hend =>
    obtain rfl := Except.ok.inj h
    intro previous _
    obtain ⟨before, ts⟩ := c
    cases ts with
    | nil =>
      refine iff_of_false ?_ (not_swallows_of_end rfl)
      simp [remainingKinds, remaining, Interface.empty, hasBareWord]
    | cons t ts => simp [Cursor.bump] at hend
  | case4 depth c hnone a hbump _ ih =>
    have hrest : c.rest = a.value :: a.cursor.rest := (bump_passes hbump).rest
    have hplaced' : Placed offset (a.value :: a.cursor.rest) := hrest ▸ hplaced
    have hbehind := ih h hplaced'.2 fun t ht => htext t (by simp [hrest, ht])
    exact hbehind.behind_token hnone hbump h hplaced htext

/-! ### Where initialisers end -/

/-- Outside of all brackets an initialiser goes on over a word only on the line of the token before
it, or behind a token at which no expression ends. -/
theorem skipExpression_word {depth : Nat} {previous : Option Token} {ts front back : List Token}
    {word : Token} {behind : Cursor} (hbehind : skipExpression true depth previous ts = behind)
    (hpasses : Cursor.Passes ⟨previous, ts⟩ (front ++ word :: back) behind)
    (hdepth : depthBehind depth front = 0) (hword : startsStatement word.kind = true) :
    word.newlineBefore = false ∨
      (front.getLast?.or previous).any (endsExpression ·.kind) = false := by
  induction front generalizing depth previous ts with
  | nil =>
    obtain rfl : ts = word :: (back ++ behind.rest) := hpasses.rest
    obtain rfl : depth = 0 := hdepth
    have hgoes : endsBefore true previous word = false := by
      cases hend : endsBefore true previous word with
      | false => rfl
      | true =>
        rw [skipExpression, if_pos ⟨rfl, hend⟩] at hbehind
        have hlength := congrArg (·.rest.length) hbehind
        simp at hlength
        omega
    rw [endsBefore, hword, Bool.or_eq_false_iff] at hgoes
    cases hline : word.newlineBefore with
    | false => exact .inl rfl
    | true => exact .inr (by simpa [hline] using hgoes.2)
  | cons t front ih =>
    obtain rfl : ts = t :: (front ++ word :: back ++ behind.rest) := hpasses.rest
    rw [skipExpression] at hbehind
    split at hbehind
    · have hlength := congrArg (·.rest.length) hbehind
      simp at hlength
      omega
    · have hlast : (t :: front).getLast?.or previous = front.getLast?.or (some t) := by
        rw [List.getLast?_cons]
        cases front.getLast? <;> rfl
      have hprevious := hpasses.previous
      rw [hlast]
      refine ih hbehind ⟨rfl, ?_⟩ hdepth
      rw [hprevious]
      simp [List.getLast?_append, List.getLast?_cons]

/-! ### Stripped sources -/

/-- **What stripping leaves.** A text is free of module syntax exactly if no word stands bare in it,
and exactly then it is left as it is when it is stripped once more. If a source is read as before,
then what is left of it is free of module syntax exactly if no exported declaration swallows a
statement. -/
theorem strip_clean_iff {s t : Text} (h : strip s = .ok t) :
    (Interface.read t = .ok .empty ↔
        hasBareWord 0 none ((tokenize t).map (·.kind)) none = false) ∧
      (strip t = .ok t ↔ Interface.read t = .ok .empty) ∧
      (KeepsReading s → (Interface.read t = .ok .empty ↔ ¬Swallows 0 (.ofSource s))) := by
  have hread : Interface.read t = .ok .empty ↔
      hasBareWord 0 none ((tokenize t).map (·.kind)) none = false := interfaceFrom_eq_empty_iff
  refine ⟨hread, strip_eq_self_iff, fun hkeeps => ?_⟩
  obtain ⟨found, hfound, -⟩ := map_eq_ok_iff.mp h
  have hkinds : (tokenize t).map (·.kind) = remainingKinds found.edits (tokenize s) := by
    rw [remainingKinds, ← hkeeps.written_strip h hfound, List.map_map]
    rfl
  have hswallowed : RemainSwallowed 0 (.ofSource s) found :=
    remainSwallowed hfound (placed_place _ _) text_ne_nil_of_mem_tokenize
  rw [hread, hkinds, ← Bool.not_eq_true]
  exact not_congr (hswallowed none fun hmember => by simp [isMember, Cursor.ofSource] at hmember)

/-- A source whose declaration ends with an operator, at which no expression is taken to end. -/
def incrementSource : Text := "export const a = x++\nimport 'b'".toList

/-- The import behind it is swallowed, and left. -/
theorem strip_clean_iff_of_increment :
    strip incrementSource = .ok "const a = x++\nimport 'b'".toList ∧ KeepsReading incrementSource ∧
      Swallows 0 (.ofSource incrementSource) ∧
      Interface.read "const a = x++\nimport 'b'".toList ≠ .ok .empty ∧
      strip "const a = x++\nimport 'b'".toList ≠ .ok "const a = x++\nimport 'b'".toList := by
  have hstrip : strip incrementSource = .ok "const a = x++\nimport 'b'".toList := by
    simp only [strip, Interface.read, Cursor.ofSource, tokenize_eq_upTo]
    cbv
  have hkeeps : KeepsReading incrementSource := keepsReading_of_plain (by decide) (by decide)
  have hbare : hasBareWord 0 none
      ((tokenize "const a = x++\nimport 'b'".toList).map (·.kind)) none = true := by
    simp only [tokenize_eq_upTo]
    cbv
  obtain ⟨hread, hself, hswallows⟩ := strip_clean_iff hstrip
  have hleft : Interface.read "const a = x++\nimport 'b'".toList ≠ .ok .empty := by
    rw [Ne, hread, hbare]
    decide
  refine ⟨hstrip, hkeeps, ?_, hleft, mt hself.mp hleft⟩
  exact Classical.not_not.mp (mt (hswallows hkeeps).mpr hleft)

end ScriptBundle
