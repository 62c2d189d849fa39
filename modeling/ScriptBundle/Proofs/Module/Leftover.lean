import ScriptBundle.Proofs.Module.Remaining

/-!
# Module Syntax That Is Left

A text is free of module syntax exactly if no word `import` or `export` stands bare in it. What is
left of a source is free of it exactly if no exported declaration of the source has swallowed such a
word: one that stands in an initialiser which goes on behind the end of its line.

## Main definitions

* `hasBareWord`: whether a word among tokens starts a module statement;
* `Swallows`: whether an exported declaration passes over such a word.

## Main statements

* `interfaceFrom_append`: tokens among which no word stands bare are passed;
* `interfaceFrom_eq_empty_iff`: nothing is declared exactly where no word stands bare;
* `strip_eq_self_iff`: exactly then nothing is stripped.
-/

namespace ScriptBundle

/-! ### Bare words -/

/-- Whether a token is a **bare word**, one that starts a module statement inside of `depth`
brackets, with tokens of the given kinds before and behind it. -/
def isBareWord (depth : Nat) (previous : Option TokenKind) (kind : TokenKind)
    (next : Option TokenKind) : Bool :=
  depth == 0 && !previous.any (· == .punctuator '.') &&
    (kind == .identifier "export" || kind == .identifier "import" &&
      !next.any fun kind => kind == .punctuator '(' || kind == .punctuator '.')

/-- Whether there is a bare word among tokens of the given kinds, in front of one of the kind
`after`. -/
def hasBareWord (depth : Nat) (previous : Option TokenKind) :
    List TokenKind → (after : Option TokenKind) → Bool
  | [], _ => false
  | kind :: rest, after =>
    isBareWord depth previous kind (rest.head?.or after) ||
      hasBareWord (depthAfter depth kind) (some kind) rest after

section

variable {depth : Nat} {c : Cursor} {t : Token} {rest : List Token}

/-- What makes a word bare, said of tokens. -/
theorem isBareWord_iff {previous next : Option Token} :
    isBareWord depth (previous.map (·.kind)) t.kind (next.map (·.kind)) = true ↔
      depth = 0 ∧ isMember previous = false ∧ (t.isName "export" = true ∨ t.isName "import" = true ∧
        next.any (fun t => t.isPunctuator '(' || t.isPunctuator '.') = false) := by
  have hmember : (previous.map (·.kind)).any (· == .punctuator '.') = isMember previous := by
    cases previous <;> rfl
  have hnext : (next.map (·.kind)).any (fun kind =>
      kind == .punctuator '(' || kind == .punctuator '.') =
        next.any fun t => t.isPunctuator '(' || t.isPunctuator '.' := by
    cases next <;> rfl
  rw [isBareWord, hmember, hnext]
  simp [Token.isName, and_assoc]

/-- An import is a statement. -/
theorem importStatement_ne_none (hrest : c.rest = t :: rest) : importStatement c ≠ .ok none := by
  obtain ⟨previous, ts⟩ := c
  obtain rfl : ts = t :: rest := hrest
  intro h
  rw [importStatement] at h
  simp only [Cursor.bump] at h
  split at h
  · simp at h
  · split at h
    · simp at h
    · obtain ⟨specifier, -, hnone⟩ := map_eq_ok_iff.mp h
      simp at hnone

/-- An export is a statement. -/
theorem exportStatement_ne_none (hrest : c.rest = t :: rest) : exportStatement c ≠ .ok none := by
  obtain ⟨previous, ts⟩ := c
  obtain rfl : ts = t :: rest := hrest
  intro h
  rw [exportStatement] at h
  simp only [Cursor.bump] at h
  split at h
  · simp at h
  · split at h
    · simp at h
    · obtain ⟨list, -, hnone⟩ := map_eq_ok_iff.mp h
      simp at hnone
    · split at h
      · obtain ⟨found, -, hnone⟩ := map_eq_ok_iff.mp h
        simp at hnone
      · obtain ⟨names, -, hnone⟩ := map_eq_ok_iff.mp h
        simp at hnone
    · simp at h

/-- A keyword outside of all brackets, and not behind a point, is that of a statement. -/
theorem moduleStatement_ne_none (hrest : c.rest = t :: rest) (hdepth : depth = 0)
    (hmember : isMember c.previous = false) (hkeyword : t.isModuleKeyword = true) :
    moduleStatement depth c ≠ .ok none := by
  have hname : ∀ name, c.atName name = t.isName name := by
    intro name
    rw [Cursor.atName, Cursor.peek, hrest]
    rfl
  intro hnone
  rw [moduleStatement, if_pos ⟨hdepth, hmember⟩, hname, hname] at hnone
  split at hnone
  · exact importStatement_ne_none hrest hnone
  · next himport =>
    rw [Token.isModuleKeyword, Bool.or_eq_true] at hkeyword
    rw [if_pos (hkeyword.resolve_left himport)] at hnone
    exact exportStatement_ne_none hrest hnone

/-- A bare word is the keyword of a statement. -/
theorem moduleStatement_of_bare (hrest : c.rest = t :: rest)
    (h : isBareWord depth (c.previous.map (·.kind)) t.kind (rest.head?.map (·.kind)) = true)
    {found : Option (Advance c Interface)} (hfound : moduleStatement depth c = .ok found) :
    ∃ a, found = some a ∧ a.value.edits ≠ [] := by
  obtain ⟨rfl, hmember, hword⟩ := isBareWord_iff.mp h
  cases found with
  | none =>
    have hkeyword : t.isModuleKeyword = true := by
      rw [Token.isModuleKeyword, Bool.or_eq_true]
      exact hword.symm.imp_left And.left
    exact absurd hfound (moduleStatement_ne_none hrest rfl hmember hkeyword)
  | some a =>
    refine ⟨a, rfl, ?_⟩
    obtain ⟨-, -, hcut⟩ := moduleStatement_cut hfound
    cases hcut with
    | @dynamic keyword passes word next empty =>
      obtain ⟨rfl, rfl⟩ := List.cons_eq_cons.mp (hrest.symm.trans passes.rest)
      rcases hword with hexport | ⟨-, hnext⟩
      · exact absurd (Token.eq_of_isName hexport word) (by decide)
      · rw [Cursor.atPunctuator, Cursor.atPunctuator, Cursor.peek] at next
        cases hhead : a.cursor.rest.head? <;> simp_all
    | whole passes keyword form member edits => simp [edits]
    | defaultValue passes keyword word next edits => simp [edits]
    | declaration passes closes keyword word among declared =>
      simp [declared, ScriptBundle.declared]

/-- A token that is no bare word declares nothing: it is passed, or it starts a dynamic import. -/
theorem moduleStatement_of_not_bare (hrest : c.rest = t :: rest)
    (h : isBareWord depth (c.previous.map (·.kind)) t.kind (rest.head?.map (·.kind)) = false) :
    moduleStatement depth c = .ok none ∨
      ∃ a, moduleStatement depth c = .ok (some a) ∧ a.value = .empty ∧ c.Passes [t] a.cursor ∧
        t.isName "import" = true := by
  have hnot := mt isBareWord_iff.mpr (Bool.eq_false_iff.mp h)
  have hname : ∀ name, c.atName name = t.isName name := by
    intro name
    rw [Cursor.atName, Cursor.peek, hrest]
    rfl
  rw [moduleStatement]
  split
  · next hplace =>
    rw [hname, hname]
    split
    · next himport =>
      cases hnext : rest.head?.any fun t => t.isPunctuator '(' || t.isPunctuator '.' with
      | false => exact absurd ⟨hplace.1, hplace.2, .inr ⟨himport, hnext⟩⟩ hnot
      | true =>
        obtain ⟨previous, ts⟩ := c
        obtain rfl : ts = t :: rest := hrest
        have hdynamic : (Cursor.atPunctuator ⟨some t, rest⟩ '(' ||
            Cursor.atPunctuator ⟨some t, rest⟩ '.') = true := by
          cases hhead : rest.head? <;> simp_all [Cursor.atPunctuator, Cursor.peek]
        refine .inr ⟨⟨.empty, ⟨some t, rest⟩, Nat.lt_succ_self _⟩, ?_, rfl, ⟨rfl, rfl⟩, himport⟩
        rw [importStatement]
        exact if_pos hdynamic
    · split
      · next hexport => exact absurd ⟨hplace.1, hplace.2, .inl hexport⟩ hnot
      · exact .inl rfl
  · exact .inl rfl

end

/-- A cursor that has passed the next token stands behind it. -/
theorem Cursor.Passes.eq_of_single {previous : Option Token} {t : Token} {rest : List Token}
    {behind : Cursor} (h : Cursor.Passes ⟨previous, t :: rest⟩ [t] behind) :
    behind = ⟨some t, rest⟩ := by
  obtain ⟨before, ts⟩ := behind
  obtain ⟨-, rfl⟩ := List.cons_eq_cons.mp h.rest
  exact congrArg (Cursor.mk · rest) h.previous

theorem map_empty_append (found : Except SyntaxError Interface) :
    found.map (Interface.empty ++ ·) = found := by
  cases found <;> rfl

/-- Where a word stands bare, something is declared or wrong. -/
theorem interfaceFrom_ne_empty {depth : Nat} {c : Cursor} {t : Token} {rest : List Token}
    (hrest : c.rest = t :: rest)
    (h : isBareWord depth (c.previous.map (·.kind)) t.kind (rest.head?.map (·.kind)) = true) :
    interfaceFrom depth c ≠ .ok .empty := by
  intro hempty
  rw [interfaceFrom] at hempty
  split at hempty
  · simp at hempty
  · next a hstatement =>
    obtain ⟨further, -, hsum⟩ := map_eq_ok_iff.mp hempty
    obtain ⟨a', hsome, hedits⟩ := moduleStatement_of_bare hrest h hstatement
    obtain rfl := Option.some.inj hsome
    have hsum := congrArg Interface.edits hsum
    exact hedits (List.append_eq_nil_iff.mp hsum).1
  · next hstatement =>
    obtain ⟨a, hsome, -⟩ := moduleStatement_of_bare hrest h hstatement
    simp at hsome

/-- A token that is no bare word is passed. -/
theorem interfaceFrom_of_not_bare {depth : Nat} {previous : Option Token} {t : Token}
    {rest : List Token}
    (h : isBareWord depth (previous.map (·.kind)) t.kind (rest.head?.map (·.kind)) = false) :
    interfaceFrom depth ⟨previous, t :: rest⟩ =
      interfaceFrom (depthAfter depth t.kind) ⟨some t, rest⟩ := by
  rcases moduleStatement_of_not_bare (c := ⟨previous, t :: rest⟩) rfl h with
    hnone | ⟨a, hsome, hempty, hpasses, himport⟩
  · rw [interfaceFrom, hnone]
    rfl
  · have hdepth : depthAfter depth t.kind = depth := by
      rw [Token.kind_of_isName himport]
      rfl
    rw [interfaceFrom, hsome, hdepth, ← hpasses.eq_of_single]
    change (interfaceFrom depth a.cursor).map (a.value ++ ·) = _
    rw [hempty, map_empty_append]

/-- So are tokens among which there is no bare word. -/
theorem interfaceFrom_append {depth : Nat} {previous : Option Token} {ts rest : List Token}
    (h : hasBareWord depth (previous.map (·.kind)) (ts.map (·.kind)) (rest.head?.map (·.kind)) =
      false) :
    interfaceFrom depth ⟨previous, ts ++ rest⟩ =
      interfaceFrom (depthBehind depth ts) ⟨ts.getLast?.or previous, rest⟩ := by
  induction ts generalizing depth previous with
  | nil => rfl
  | cons t ts ih =>
    obtain ⟨hfirst, hothers⟩ := Bool.or_eq_false_iff.mp h
    have hhead : (ts.map (·.kind)).head?.or (rest.head?.map (·.kind)) =
        (ts ++ rest).head?.map (·.kind) := by
      rw [List.head?_append, List.head?_map]
      cases ts.head? <;> rfl
    have hlast : (t :: ts).getLast?.or previous = ts.getLast?.or (some t) := by
      rw [List.getLast?_cons]
      cases ts.getLast? <;> rfl
    rw [hhead] at hfirst
    rw [List.cons_append, interfaceFrom_of_not_bare hfirst, hlast]
    exact ih hothers

/-- Nothing is declared behind a cursor exactly if no word stands bare there. -/
theorem interfaceFrom_eq_empty_iff {depth : Nat} {c : Cursor} :
    interfaceFrom depth c = .ok .empty ↔
      hasBareWord depth (c.previous.map (·.kind)) (c.rest.map (·.kind)) none = false := by
  obtain ⟨previous, ts⟩ := c
  induction ts generalizing depth previous with
  | nil => simp [interfaceFrom_nil, hasBareWord]
  | cons t rest ih =>
    have hhead : (rest.map (·.kind)).head?.or none = rest.head?.map (·.kind) := by simp
    rw [List.map_cons, hasBareWord, hhead]
    cases hbare : isBareWord depth (previous.map (·.kind)) t.kind (rest.head?.map (·.kind)) with
    | true =>
      have hne := interfaceFrom_ne_empty (c := ⟨previous, t :: rest⟩) rfl hbare
      simp [hne]
    | false =>
      have hbehind : interfaceFrom (depthAfter depth t.kind) ⟨some t, rest⟩ = .ok .empty ↔
          hasBareWord (depthAfter depth t.kind) (some t.kind) (rest.map (·.kind)) none = false :=
        ih (some t)
      rw [Bool.false_or, ← hbehind, interfaceFrom_of_not_bare hbare]

/-- Whatever is declared is taken out. -/
theorem interfaceFrom_eq_empty_of_edits {depth : Nat} {c : Cursor} {found : Interface}
    (h : interfaceFrom depth c = .ok found) (hedits : found.edits = []) : found = .empty := by
  fun_induction interfaceFrom depth c generalizing found with
  | case1 => simp at h
  | case2 depth c statement hstatement _ ih =>
    obtain ⟨further, hfurther, rfl⟩ := map_eq_ok_iff.mp h
    obtain ⟨hfirst, hrest⟩ := List.append_eq_nil_iff.mp hedits
    obtain ⟨-, -, hcut⟩ := moduleStatement_cut hstatement
    cases hcut with
    | dynamic passes word next empty =>
      rw [empty, ih hfurther hrest]
      rfl
    | whole passes keyword form member edits => simp [edits] at hfirst
    | defaultValue passes keyword word next edits => simp [edits] at hfirst
    | declaration passes closes keyword word among declared =>
      simp [declared, ScriptBundle.declared] at hfirst
  | case3 => exact (Except.ok.inj h).symm
  | case4 depth c hnone a hbump _ ih => exact ih h hedits

/-! ### Stripping twice -/

theorem size_replacement_le (replacement : Replacement) : Text.size replacement.text ≤ 5 := by
  cases replacement <;> decide

/-- Every edit makes a text shorter. -/
theorem CutInto.size_writePieces {ts : List Token} {edits : List Edit} {pieces : List Piece}
    (h : CutInto ts edits pieces) (bare : Bool) (trailing : Text)
    (hkeyword : ∀ t ∈ ts, t.isModuleKeyword = true → 5 < Text.size t.text) :
    Text.size (writePieces bare pieces trailing) + edits.length ≤
      Text.size (writeTokens ts ++ trailing) := by
  have hgap : ∀ bare : Bool, ∀ t : Token,
      Text.size (if bare then [] else t.gap) ≤ Text.size t.gap := by
    intro bare t
    cases bare
    · exact Nat.le_refl _
    · exact Nat.zero_le _
  induction h generalizing bare with
  | nil => simp [writePieces]
  | @kept t ts edits pieces _ ih =>
    have hrest := ih false fun t ht => hkeyword t (List.mem_cons_of_mem _ ht)
    have hfirst := hgap bare t
    simp only [writePieces, writeTokens_cons, Text.size_append] at hrest ⊢
    omega
  | @whole first others replacement ts edits pieces keyword _ ih =>
    have hrest := ih false fun t ht => hkeyword t (List.mem_append_right _ ht)
    have hfirst := hgap bare first
    have hword := hkeyword first (by simp) keyword
    have hreplacement := size_replacement_le replacement
    simp only [writePieces, List.cons_append, writeTokens_cons, writeTokens_append,
      Text.size_append,
      List.length_cons] at hrest ⊢
    omega
  | @front first next others replacement ts edits pieces keyword _ ih =>
    have hrest := ih true fun t ht => hkeyword t (List.mem_append_right _ ht)
    have hfirst := hgap bare first
    have hword := hkeyword first (by simp) keyword
    have hreplacement := size_replacement_le replacement
    simp only [writePieces, List.cons_append, writeTokens_cons, writeTokens_append,
      Text.size_append,
      List.length_cons] at hrest ⊢
    omega

/-- The words of module statements are longer than any replacement. -/
theorem size_of_isModuleKeyword {s : Text} :
    ∀ t ∈ tokenize s, t.isModuleKeyword = true → 5 < Text.size t.text := by
  intro t ht hkeyword
  have hmem := toLexeme_mem_lexemes ht
  rw [Token.isModuleKeyword, Bool.or_eq_true] at hkeyword
  rcases hkeyword with hkeyword | hkeyword
  · rw [text_of_mem_lexemes _ hmem (Token.kind_of_isName hkeyword)]
    decide
  · rw [text_of_mem_lexemes _ hmem (Token.kind_of_isName hkeyword)]
    decide

/-- A text stays as it is exactly if nothing is declared in it. -/
theorem strip_eq_self_iff {s : Text} : strip s = .ok s ↔ Interface.read s = .ok .empty := by
  constructor
  · intro h
    obtain ⟨found, pieces, hread, hcut, hpieces⟩ := exists_pieces_of_strip h
    have hsize := hcut.size_writePieces false (trailingTrivia .initial (afterHashbang s))
      size_of_isModuleKeyword
    have hwritten : writePieces false pieces (trailingTrivia .initial (afterHashbang s)) =
        afterHashbang s := by
      have hboth := (hashbang_append_afterHashbang s).trans hpieces
      exact (List.append_cancel_left hboth).symm
    rw [hwritten, writeTokens_tokenize] at hsize
    have hedits : found.edits = [] := List.length_eq_zero_iff.mp (by omega)
    rw [hread, interfaceFrom_eq_empty_of_edits hread hedits]
  · intro h
    rw [strip, h]
    rfl

end ScriptBundle
