import ScriptBundle.Proofs.Module.Passing

/-!
# Cut Statements

What a statement takes out of a source: a dynamic import nothing, an import and an export list all
of their tokens, and an exported declaration or default value no more than its first words.

## Main definitions

* `StatementCut`: the tokens, the interface and the end of one statement;
* `IsDeclaration`: whether a statement is an exported declaration;
* `ReadsTo`: whether the reader of a module gets from one place to another.

## Main statements

* `moduleStatement_cut`: each statement is of one of these forms;
* `IsDeclaration.cut`: an exported declaration passes the names that it declares;
* `exists_readsTo_of_edit`: the reader gets to the statement that an edit is of.
-/

namespace ScriptBundle

/-- Whether a token is one of the two words that module statements start with. -/
def Token.isModuleKeyword (t : Token) : Bool := t.isName "import" || t.isName "export"

/-- The words that an exported declaration may start with. -/
def declarationWords : List String := ["function", "async", "class", "const", "let", "var"]

/-- Whether a token is a word that an exported declaration may start with. -/
def Token.startsDeclaration (t : Token) : Bool := t.kind.name?.any declarationWords.contains

/-- A declaration starts with one of these words. -/
theorem Token.kind_of_startsDeclaration {t : Token} (h : t.startsDeclaration = true) :
    ∃ name ∈ declarationWords, t.kind = .identifier name := by
  cases hkind : t.kind with
  | identifier name =>
    refine ⟨name, ?_, rfl⟩
    simpa [startsDeclaration, hkind, TokenKind.name?] using h
  | _ => simp [startsDeclaration, hkind, TokenKind.name?] at h

theorem Token.isModuleKeyword_of_export {t : Token} (h : t.isName "export" = true) :
    t.isModuleKeyword = true := by
  rw [isModuleKeyword, h, Bool.or_true]

/-- The form of a statement, with what it declares and the cursor behind it. -/
inductive StatementCut (c : Cursor) (found : Interface) (behind : Cursor) : Prop where
  /-- A dynamic import is an expression. -/
  | dynamic {keyword : Token} (passes : c.Passes [keyword] behind)
    (word : keyword.isName "import" = true)
    (next : (behind.atPunctuator '(' || behind.atPunctuator '.') = true) (empty : found = .empty)
  /-- An import or an export list is taken out as a whole. -/
  | whole {first : Token} {others : List Token} (passes : c.Passes (first :: others) behind)
    (keyword : first.isModuleKeyword = true)
    (form : first.isName "import" = true ∨ others.head?.any (·.isPunctuator '{') = true)
    (member : isMember behind.previous = false)
    (edits : found.edits = [removal first.start (others.getLastD first).stop behind])
    (matching : ∃ form : SyntaxForm,
      form.Matches ((first :: others).map (·.kind)) (behind.rest.map (·.kind)))
  /-- Of a default export the first two words are taken out. -/
  | defaultValue {first second value : Token} (passes : c.Passes [first, second] behind)
    (keyword : first.isName "export" = true) (word : second.isName "default" = true)
    (next : behind.peek = some value)
    (edits : found.edits = [⟨⟨first.start, value.start⟩, defaultReplacement behind⟩])
  /-- Of an exported declaration the first word is taken out. -/
  | declaration {first next : Token} {between : Cursor} {kept : List Token} {names : List String}
    (passes : c.Passes [first, next] between) (closes : between.Closes 0 kept behind)
    (keyword : first.isName "export" = true) (word : next.startsDeclaration = true)
    (among : NamesAmong names kept) (declared : found = declared first.start next.start names)
    (opens : OpensDeclaration ((next :: between.rest).map (·.kind)))

/-- Every statement passes tokens. -/
theorem StatementCut.exists_passes {c behind : Cursor} {found : Interface}
    (h : StatementCut c found behind) : ∃ passed, c.Passes passed behind := by
  cases h with
  | dynamic passes => exact ⟨_, passes⟩
  | whole passes => exact ⟨_, passes⟩
  | defaultValue passes => exact ⟨_, passes⟩
  | declaration passes closes => exact ⟨_, passes.trans closes.toPasses⟩

/-- An import statement is dynamic or taken out as a whole. -/
theorem importStatement_cut {c : Cursor} {a : Advance c Interface}
    (hname : c.atName "import" = true) (h : importStatement c = .ok (some a)) :
    StatementCut c a.value a.cursor := by
  rw [importStatement] at h
  split at h
  · simp at h
  · next keyword hbump =>
    have hpasses := bump_passes hbump
    have himport : keyword.value.isName "import" = true := by
      rw [Cursor.atName, Cursor.peek, hpasses.rest] at hname
      simpa using hname
    split at h
    · next hnext =>
      obtain rfl : _ = a := by simpa using h
      exact .dynamic hpasses himport hnext rfl
    · split at h
      · simp at h
      · next clauses front hfront hhead =>
        obtain ⟨specifier, hspecifier, hsome⟩ := map_eq_ok_iff.mp h
        obtain rfl : _ = a := by simpa using hsome
        obtain ⟨middle, hmiddle, hform⟩ := importHead_passes hhead
        obtain ⟨t, ht, ⟨value, hvalue⟩, hstop⟩ := moduleSpecifier_passes hspecifier
        have hall : c.Passes (keyword.value :: (middle ++ [t])) specifier.cursor :=
          hpasses.trans (hmiddle.trans ht)
        have hmember : isMember specifier.cursor.previous = false := by
          rw [ht.previous_eq rfl]
          simp [isMember, Token.isPunctuator, hvalue]
        obtain ⟨back, hmore, hback, hend, hbehind⟩ := statementEnd_passes hall hmember
        have hlast : (middle ++ [t]).getLastD keyword.value = t := by simp
        rw [hlast, ← hstop] at hmore hend hbehind
        have hkeyword : keyword.value.kind = .identifier "import" := by
          simpa [Token.isName] using himport
        refine .whole hmore (by simp [Token.isModuleKeyword, himport]) (.inl himport) hbehind
          (by simp [hend]) ⟨.importDeclaration, _, value, hform, ?_⟩
        rcases hback with hback | hback <;> simp [IsStatement, hkeyword, hvalue, hback]

/-- The name of a function or class is passed as one token. -/
theorem expectName_passesNames {c : Cursor} {role : NameRole} {a : Advance c String}
    (h : expectName c role = .ok a) : (a.map fun name => [name]).PassesNames 0 := by
  obtain ⟨t, ht, hkind⟩ := expectName_passes h
  exact ⟨_, .name ht hkind, by simp [NamesAmong, hkind]⟩

theorem functionName_passes {c : Cursor} {a : Advance c String} (h : functionName c = .ok a) :
    (a.map fun name => [name]).PassesNames 0 := by
  rw [functionName] at h
  split at h
  · next star hstar =>
    obtain ⟨name, hname, rfl⟩ := map_eq_ok_iff.mp h
    exact (expectName_passesNames hname).behind (eatSeparator_closes hstar (by simp))
  · exact expectName_passesNames h

theorem functionName_opens {c : Cursor} {a : Advance c String} (h : functionName c = .ok a) :
    OpensFunction (c.rest.map (·.kind)) := by
  rw [functionName] at h
  split at h
  · next star hstar =>
    obtain ⟨name, hname, rfl⟩ := map_eq_ok_iff.mp h
    obtain ⟨t, ht, hkind⟩ := expectName_passes hname
    rw [(eatPunctuator_passes hstar).rest, ht.rest]
    simp only [List.cons_append, List.nil_append, List.map_cons, eatPunctuator_kind hstar, hkind]
    exact .generator name.value _
  · obtain ⟨t, ht, hkind⟩ := expectName_passes h
    rw [ht.rest]
    simp only [List.cons_append, List.nil_append, List.map_cons, hkind]
    exact .plain a.value _

/-- The words behind `export` are those of a declaration. -/
theorem exportedNames_opens {word : String} {c : Cursor} {start : Nat}
    {a : Advance c (List String)} (h : exportedNames word c start = .ok a) :
    OpensDeclaration (.identifier word :: c.rest.map (·.kind)) := by
  rw [exportedNames] at h
  split at h
  · next hword =>
    obtain ⟨name, hname, -⟩ := map_eq_ok_iff.mp h
    subst hword
    exact .plainFunction (functionName_opens hname)
  · split at h
    · next hword =>
      split at h
      · simp [Cursor.fail] at h
      · next second hsecond =>
        obtain ⟨name, hname, -⟩ := map_eq_ok_iff.mp h
        subst hword
        rw [(eatName_passes hsecond).rest]
        simp only [List.cons_append, List.nil_append, List.map_cons, eatName_kind hsecond]
        exact .asyncFunction (functionName_opens hname)
    · split at h
      · next hword =>
        obtain ⟨name, hname, -⟩ := map_eq_ok_iff.mp h
        obtain ⟨t, ht, hkind⟩ := expectName_passes hname
        subst hword
        rw [ht.rest]
        simp only [List.cons_append, List.nil_append, List.map_cons, hkind]
        exact .namedClass name.value _
      · split at h
        · next hword =>
          obtain ⟨t, rest, hrest, hopens⟩ := declaratorNames_opens h
          rw [hrest, List.map_cons]
          exact .variables hword hopens _
        · simp at h

/-- An exported declaration passes the names that it declares. -/
theorem exportedNames_passes {word : String} {c : Cursor} {start : Nat}
    {a : Advance c (List String)} (h : exportedNames word c start = .ok a) :
    a.PassesNames 0 ∧ word ∈ declarationWords := by
  rw [exportedNames] at h
  split at h
  · next hword =>
    obtain ⟨name, hname, rfl⟩ := map_eq_ok_iff.mp h
    exact ⟨functionName_passes hname, by simp [declarationWords, hword]⟩
  · split at h
    · next hword =>
      split at h
      · simp [Cursor.fail] at h
      · next second hsecond =>
        obtain ⟨name, hname, rfl⟩ := map_eq_ok_iff.mp h
        have hfront : c.Closes 0 [second.value] second.cursor :=
          .name (eatName_passes hsecond) (eatName_kind hsecond)
        exact ⟨(functionName_passes hname).behind hfront, by simp [declarationWords, hword]⟩
    · split at h
      · next hword =>
        obtain ⟨name, hname, rfl⟩ := map_eq_ok_iff.mp h
        exact ⟨expectName_passesNames hname, by simp [declarationWords, hword]⟩
      · split at h
        · next hword => exact ⟨declaratorNames_passes h, by
            rcases hword with rfl | rfl | rfl <;> decide⟩
        · simp at h

/-- An export list is taken out as a whole. -/
theorem exportList_cut {c between : Cursor} {first second : Token}
    (hpasses : c.Passes [first, second] between) (hkeyword : first.isName "export" = true)
    (hbrace : second.kind = .punctuator '{') {a : Advance between Interface}
    (h : exportList between first.start = .ok a) : StatementCut c a.value a.cursor := by
  rw [exportList] at h
  split at h
  · simp at h
  · next list hlist =>
    split at h
    · simp at h
    · obtain rfl := Except.ok.inj h
      obtain ⟨passed, hpassed, hlistForm, hmember⟩ := bracedList_passes hlist
      have hall : c.Passes (first :: (second :: passed)) list.cursor := hpasses.trans hpassed
      obtain ⟨back, hmore, hback, hend, hbehind⟩ := statementEnd_passes hall hmember
      have hprevious : list.cursor.previous = some ((second :: passed).getLastD first) :=
        hall.previous_eq (by simp [List.getLast?_cons, List.getLastD_eq_getLast?])
      have hstop : (list.cursor.previous.map Token.stop).getD first.start =
          ((second :: passed).getLastD first).stop := by
        rw [hprevious]
        rfl
      rw [← hstop] at hmore hend hbehind
      have hform : ((second :: passed) ++ back).head?.any (·.isPunctuator '{') = true := by
        simp [Token.isPunctuator, hbrace]
      have hword : first.kind = .identifier "export" := Token.kind_of_isName hkeyword
      refine .whole hmore (Token.isModuleKeyword_of_export hkeyword) (.inr hform) hbehind
        (by simp [hend]) ⟨.exportList, _, hlistForm, ?_⟩
      rcases hback with hback | hback <;> simp [IsStatement, hword, hbrace, hback]

/-- An export statement is taken out as a whole, or no more than its first words. -/
theorem exportStatement_cut {c : Cursor} {a : Advance c Interface}
    (hname : c.atName "export" = true) (h : exportStatement c = .ok (some a)) :
    StatementCut c a.value a.cursor := by
  rw [exportStatement] at h
  split at h
  · simp at h
  · next keyword hbump =>
    have hpasses := bump_passes hbump
    have hkeyword : keyword.value.isName "export" = true := by
      rw [Cursor.atName, Cursor.peek, hpasses.rest] at hname
      simpa using hname
    simp only at h
    split at h
    · simp at h
    · next second hsecond =>
      have hboth : c.Passes [keyword.value, second.value] second.cursor :=
        hpasses.trans (bump_passes hsecond)
      split at h
      · simp at h
      · next hbrace =>
        obtain ⟨list, hlist, hsome⟩ := map_eq_ok_iff.mp h
        obtain rfl : _ = a := by simpa using hsome
        exact exportList_cut hboth hkeyword hbrace hlist
      · next word hword =>
        split at h
        · next hdefault =>
          obtain ⟨found, hfound, hsome⟩ := map_eq_ok_iff.mp h
          obtain rfl : _ = a := by simpa using hsome
          rw [defaultExport] at hfound
          split at hfound
          · simp at hfound
          · next value hvalue =>
            obtain rfl := Except.ok.inj hfound
            exact .defaultValue hboth hkeyword (by simp [Token.isName, hword, hdefault]) hvalue rfl
        · obtain ⟨names, hnames, hsome⟩ := map_eq_ok_iff.mp h
          obtain rfl : _ = a := by simpa using hsome
          obtain ⟨⟨kept, hkept, hamong⟩, hdeclares⟩ := exportedNames_passes hnames
          refine .declaration hboth hkept hkeyword ?_ hamong rfl ?_
          · simpa [Token.startsDeclaration, hword, TokenKind.name?] using hdeclares
          · rw [List.map_cons, hword]
            exact exportedNames_opens hnames
      · simp at h

/-- Each statement is of one of these forms, and stands outside of all brackets. -/
theorem moduleStatement_cut {depth : Nat} {c : Cursor} {a : Advance c Interface}
    (h : moduleStatement depth c = .ok (some a)) :
    depth = 0 ∧ isMember c.previous = false ∧ StatementCut c a.value a.cursor := by
  rw [moduleStatement] at h
  split at h
  · next hplace =>
    refine ⟨hplace.1, hplace.2, ?_⟩
    split at h
    · next himport => exact importStatement_cut himport h
    · split at h
      · next hexport => exact exportStatement_cut hexport h
      · simp at h
  · simp at h

/-- A token is one name alone. -/
theorem Token.eq_of_isName {t : Token} {name other : String} (h : t.isName name = true)
    (h' : t.isName other = true) : name = other := by
  have hkind : t.kind = .identifier name := by simpa [isName] using h
  simpa [isName, hkind] using h'

/-- Whether a statement is an exported **declaration**: the word `export`, a word that declarations
start with, and the tokens that are passed behind it. -/
structure IsDeclaration (c : Cursor) (a : Advance c Interface) (word : Token)
    (kept : List Token) : Prop where
  statement : moduleStatement 0 c = .ok (some a)
  tokens : ∃ keyword : Token, keyword.isName "export" = true ∧
    c.rest = keyword :: word :: (kept ++ a.cursor.rest)
  word : word.startsDeclaration = true

/-- The parts of an exported declaration. -/
theorem IsDeclaration.cut {c : Cursor} {a : Advance c Interface} {word : Token}
    {kept : List Token} (h : IsDeclaration c a word kept) :
    ∃ (keyword : Token) (between : Cursor) (names : List String), keyword.isName "export" = true ∧
      c.Passes [keyword, word] between ∧ between.Closes 0 kept a.cursor ∧ NamesAmong names kept ∧
      a.value = declared keyword.start word.start names := by
  obtain ⟨keyword, hkeyword, hrest⟩ := h.tokens
  obtain ⟨-, -, hcut⟩ := moduleStatement_cut h.statement
  cases hcut with
  | @dynamic first passes himport next empty =>
    obtain ⟨rfl, -⟩ := List.cons_eq_cons.mp (hrest.symm.trans passes.rest)
    exact absurd (Token.eq_of_isName hkeyword himport) (by decide)
  | @whole first others passes keyword form member edits =>
    obtain ⟨rfl, hothers⟩ := List.cons_eq_cons.mp (hrest.symm.trans passes.rest)
    rcases form with himport | hbrace
    · exact absurd (Token.eq_of_isName hkeyword himport) (by decide)
    · cases others with
      | nil => simp at hbrace
      | cons brace others =>
        obtain ⟨rfl, -⟩ := List.cons_eq_cons.mp hothers
        have hkind : word.kind = .punctuator '{' := by simpa [Token.isPunctuator] using hbrace
        simpa [Token.startsDeclaration, hkind, TokenKind.name?] using h.word
  | @defaultValue first second value passes keyword hdefault next edits =>
    obtain ⟨-, hothers⟩ := List.cons_eq_cons.mp (hrest.symm.trans passes.rest)
    obtain ⟨rfl, -⟩ := List.cons_eq_cons.mp hothers
    have hkind : word.kind = .identifier "default" := Token.kind_of_isName hdefault
    have hword := h.word
    rw [Token.startsDeclaration, hkind] at hword
    exact absurd hword (by decide)
  | @declaration first next between passed names passes closes keyword word among declared =>
    have htokens := hrest.symm.trans passes.rest
    rw [closes.rest] at htokens
    obtain ⟨rfl, hothers⟩ := List.cons_eq_cons.mp htokens
    obtain ⟨rfl, hpassed⟩ := List.cons_eq_cons.mp hothers
    obtain rfl := List.append_cancel_right hpassed
    exact ⟨_, between, names, hkeyword, passes, closes, among, declared⟩

/-! ### The reader of a module -/

/-- Whether the reader of a module gets from one place to another: a cursor, and the number of
brackets open around it. -/
inductive ReadsTo : Nat → Cursor → Nat → Cursor → Prop where
  | refl (depth : Nat) (c : Cursor) : ReadsTo depth c depth c
  | token {depth depth' : Nat} {c c' : Cursor} {a : Advance c Token}
    (none : moduleStatement depth c = .ok none) (bump : c.bump = some a)
    (further : ReadsTo (depthAfter depth a.value.kind) a.cursor depth' c') :
    ReadsTo depth c depth' c'
  | statement {depth depth' : Nat} {c c' : Cursor} {a : Advance c Interface}
    (found : moduleStatement depth c = .ok (some a)) (further : ReadsTo depth a.cursor depth' c') :
    ReadsTo depth c depth' c'

/-- What stands behind a token that starts no statement is all that is declared there. -/
theorem interfaceFrom_of_token {depth : Nat} {c : Cursor} {a : Advance c Token}
    (hnone : moduleStatement depth c = .ok none) (hbump : c.bump = some a) :
    interfaceFrom depth c = interfaceFrom (depthAfter depth a.value.kind) a.cursor := by
  rw [interfaceFrom, hnone]
  simp only [hbump]

/-- A statement declares what it does in front of what is declared behind it. -/
theorem interfaceFrom_of_statement {depth : Nat} {c : Cursor} {a : Advance c Interface}
    (hstatement : moduleStatement depth c = .ok (some a)) :
    interfaceFrom depth c = (interfaceFrom depth a.cursor).map (a.value ++ ·) := by
  rw [interfaceFrom, hstatement]

/-- The reader of a module gets to the statement that an edit is of. -/
theorem exists_readsTo_of_edit {depth : Nat} {c : Cursor} {found : Interface}
    (h : interfaceFrom depth c = .ok found) :
    ∀ edit ∈ found.edits, ∃ (c' : Cursor) (a : Advance c' Interface),
      ReadsTo depth c 0 c' ∧ moduleStatement 0 c' = .ok (some a) ∧ edit ∈ a.value.edits := by
  fun_induction interfaceFrom depth c generalizing found with
  | case1 => simp at h
  | case2 depth c statement hstatement _ ih =>
    obtain ⟨further, hfurther, rfl⟩ := map_eq_ok_iff.mp h
    obtain ⟨rfl, -⟩ := moduleStatement_cut hstatement
    intro edit hedit
    rcases List.mem_append.mp hedit with hedit | hedit
    · exact ⟨c, statement, .refl 0 c, hstatement, hedit⟩
    · obtain ⟨c', a, hreads, ha, hmem⟩ := ih hfurther edit hedit
      exact ⟨c', a, .statement hstatement hreads, ha, hmem⟩
  | case3 =>
    obtain rfl := Except.ok.inj h
    simp [Interface.empty]
  | case4 depth c hnone a hbump _ ih =>
    intro edit hedit
    obtain ⟨c', statement, hreads, hstatement, hmem⟩ := ih h edit hedit
    exact ⟨c', statement, .token hnone hbump hreads, hstatement, hmem⟩

end ScriptBundle
