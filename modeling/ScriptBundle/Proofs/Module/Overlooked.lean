import ScriptBundle.Proofs.Module.Members

/-!
# Overlooked Exports

Not every word `export` in front of a value or a variable is that of a statement. It may be the name
of a member, and it may stand in an exported declaration, of which the reader passes over all that
is behind its first word. In import declarations and export lists it is a name, too, but there no
word follows that it would be read with.

## Main definitions

* `OpensExport`: the first two words of an export that a value belongs to;
* `IsListed`: whether the word `export` is a name among tokens of module syntax;
* `PassesOver`: whether an exported declaration passes over a place;
* `IsOverlooked`: whether the word at a cursor is one that the reader does not read as a keyword.

## Main statements

* `StatementCut.closes`: every statement closes the brackets that it opens;
* `ReadsTo.exists_passes`: the reader counts the brackets that it passes;
* `PassesOver.behind`: what is passed over ends outside of all brackets;
* `readsTo_or_passesOver`: the reader gets to the first word of an export or passes over it;
* `exists_edit_iff_not_isOverlooked`: which words are taken out.
-/

namespace ScriptBundle

/-- The words behind `export` with which a value is exported. -/
def exportWords : List String := ["default", "const", "let", "var"]

/-- Whether two tokens are the first ones of an export with a value. -/
structure OpensExport (keyword word : Token) : Prop where
  keyword : keyword.kind = .identifier "export"
  word : ∃ name ∈ exportWords, word.kind = .identifier name

theorem OpensExport.isName {keyword word : Token} (h : OpensExport keyword word) :
    keyword.isName "export" = true := by
  simp [Token.isName, h.keyword]

/-! ### Names among module syntax -/

/-- Whether a token may stand behind another one where the word `export` is a name. -/
def FollowsName (kind next : TokenKind) : Prop :=
  kind = .identifier "export" → ∀ name ∈ exportWords, next ≠ .identifier name

/-- Whether tokens are **listed**: they close `n` brackets, and the word `export` is a name among
them. -/
structure IsListed (n : Nat) (kinds : List TokenKind) : Prop where
  balanced : ∀ around, kinds.foldl depthAfter (around + n) = around
  names : kinds.IsChain FollowsName

namespace IsListed

variable {m n : Nat} {kinds others : List TokenKind}

/-- Listed tokens in two parts. -/
theorem append (h : IsListed n kinds) (h' : IsListed m others)
    (hjoint : ∀ kind ∈ kinds.getLast?, ∀ next ∈ others.head?, FollowsName kind next) :
    IsListed (m + n) (kinds ++ others) where
  balanced around := by rw [List.foldl_append, ← Nat.add_assoc, h.balanced, h'.balanced]
  names := List.isChain_append.mpr ⟨h.names, h'.names, hjoint⟩

/-- One token that is no bracket. -/
theorem single {kind : TokenKind} (hopening : kind.isOpening = false)
    (hclosing : kind.isClosing = false) : IsListed 0 [kind] :=
  ⟨fun around => by simp [depthAfter, hopening, hclosing], .singleton kind⟩

end IsListed

theorem followsName_of_ne {kind : TokenKind} (h : kind ≠ .identifier "export") (next : TokenKind) :
    FollowsName kind next := fun heq => absurd heq h

theorem followsName_punctuator (kind : TokenKind) (char : Char) :
    FollowsName kind (.punctuator char) := fun _ _ _ => by simp

theorem followsName_identifier (kind : TokenKind) {name : String} (h : name ∉ exportWords) :
    FollowsName kind (.identifier name) := by
  rintro - other hother heq
  obtain rfl := TokenKind.identifier.inj heq
  exact h hother

/-- A name in a list is no bracket. -/
theorem isListed_of_isListName {kind : TokenKind} (h : kind.isListName = true) :
    IsListed 0 [kind] := by
  cases kind with
  | identifier | string => exact .single rfl rfl
  | _ => simp [TokenKind.isListName] at h

theorem isListed_identifier (name : String) : IsListed 0 [.identifier name] := .single rfl rfl

theorem IsListEntry.isListed {entry : List TokenKind} (h : IsListEntry entry) :
    IsListed 0 entry := by
  cases h with
  | plain hname => exact isListed_of_isListName hname
  | renamed hname hbound =>
    have hword : IsListed 0 [.identifier "as"] := .single rfl rfl
    have hlast := hword.append (isListed_of_isListName hbound) (by simp [FollowsName])
    refine (isListed_of_isListName hname).append hlast ?_
    simp [followsName_identifier _ (show "as" ∉ exportWords by decide)]

theorem IsListRest.isListed {list : List TokenKind} (h : IsListRest list) : IsListed 1 list := by
  have hclosing : IsListed 1 [.punctuator '\x7d'] := ⟨fun around => rfl, .singleton _⟩
  induction h with
  | closed => exact hclosing
  | last hentry => exact hentry.isListed.append hclosing (by simp [followsName_punctuator])
  | more hentry _ ih =>
    have hcomma : IsListed 0 [.punctuator ','] := .single rfl rfl
    have hothers := hcomma.append ih (by simp [FollowsName])
    exact hentry.isListed.append hothers (by simp [followsName_punctuator])

theorem IsListRest.getLast? {list : List TokenKind} (h : IsListRest list) :
    list.getLast? = some (.punctuator '\x7d') := by
  induction h with
  | closed => rfl
  | last => simp
  | more _ _ ih => simp [List.getLast?_append, List.getLast?_cons, ih]

/-- A braced list closes the brace that it opens. -/
theorem IsListRest.isListed_braced {list : List TokenKind} (h : IsListRest list) :
    IsListed 0 (.punctuator '\x7b' :: list) where
  balanced around := h.isListed.balanced around
  names := List.isChain_cons.mpr ⟨fun _ _ => followsName_of_ne (by simp) _, h.isListed.names⟩

theorem IsNamedClause.isListed {clause : List TokenKind} (h : IsNamedClause clause) :
    IsListed 0 clause := by
  cases h with
  | namespaceObject name =>
    have hstar : IsListed 0 [.punctuator '*'] := .single rfl rfl
    have hword := (isListed_identifier "as").append (isListed_identifier name)
      (by simp [FollowsName])
    exact hstar.append hword (by simp [FollowsName])
  | names hlist => exact hlist.isListed_braced

theorem IsImportClause.isListed {clause : List TokenKind} (h : IsImportClause clause) :
    IsListed 0 clause := by
  cases h with
  | named hclause => exact hclause.isListed
  | defaultExport name => exact .single rfl rfl
  | both name hclause =>
    have hcomma : IsListed 0 [.punctuator ','] := .single rfl rfl
    have hothers := hcomma.append hclause.isListed (by simp [FollowsName])
    exact (isListed_identifier name).append hothers (by simp [followsName_punctuator])

theorem IsImportHead.isListed {head : List TokenKind} (h : IsImportHead head) :
    IsListed 0 head := by
  cases h with
  | bare => exact ⟨fun _ => rfl, .nil⟩
  | clause hclause =>
    refine hclause.isListed.append (isListed_identifier "from") ?_
    simp [followsName_identifier _ (show "from" ∉ exportWords by decide)]

/-- A statement is listed with or without a semicolon, and does not end with the word `export`. -/
theorem isListed_statement {statement tokens : List TokenKind} (h : IsListed 0 statement)
    (hlast : statement.getLast? ≠ some (.identifier "export"))
    (hstatement : IsStatement statement tokens) :
    IsListed 0 tokens ∧ tokens.getLast? ≠ some (.identifier "export") := by
  rcases hstatement with rfl | rfl
  · exact ⟨h, hlast⟩
  · have hend : IsListed 0 [.punctuator ';'] := .single rfl rfl
    exact ⟨h.append hend (by simp [followsName_punctuator]), by simp⟩

/-- An import declaration and an export list hold names only. -/
theorem SyntaxForm.Matches.isListed {form : SyntaxForm} {tokens behind : List TokenKind}
    (h : form.Matches tokens behind) (hform : form = .importDeclaration ∨ form = .exportList) :
    IsListed 0 tokens ∧ tokens.getLast? ≠ some (.identifier "export") := by
  rcases hform with rfl | rfl
  · obtain ⟨head, specifier, hhead, hstatement⟩ := h
    have hword := isListed_identifier "import"
    have hspecifier : IsListed 0 [.string specifier] := .single rfl rfl
    have hothers := hhead.isListed.append hspecifier (by simp [FollowsName])
    exact isListed_statement (hword.append hothers (by simp [FollowsName]))
      (by simp [List.getLast?_append, List.getLast?_cons]) hstatement
  · obtain ⟨list, hlist, hstatement⟩ := h
    have hothers := (isListed_identifier "export").append hlist.isListed_braced
      (by simp [followsName_punctuator])
    refine isListed_statement hothers ?_ hstatement
    simp [List.getLast?_cons, hlist.getLast?]

/-! ### What statements pass -/

/-- Of two ways to split tokens the one with the longer rest splits the front of the other. -/
theorem exists_of_append_eq {xs ys front zs : List α} {z : α} (h : xs ++ ys = front ++ z :: zs)
    (hlength : ys.length ≤ zs.length) : ∃ back, xs = front ++ z :: back ∧ zs = back ++ ys := by
  rcases List.append_eq_append_iff.mp h with ⟨back, rfl, rfl⟩ | ⟨back, rfl, hback⟩
  · simp only [List.length_append, List.length_cons] at hlength
    omega
  · cases back with
    | nil =>
      have hlengths := congrArg List.length hback
      simp only [List.nil_append, List.length_cons] at hlengths
      omega
    | cons first back =>
      obtain ⟨rfl, rfl⟩ := List.cons_eq_cons.mp hback
      exact ⟨back, rfl, rfl⟩

namespace Cursor.Passes

variable {c between behind : Cursor} {front back : List Token}

/-- What is passed up to the same tokens is the same. -/
theorem unique {other : Cursor} (h : c.Passes front behind) (h' : c.Passes back other)
    (hrest : behind.rest = other.rest) : front = back ∧ behind = other := by
  obtain ⟨previous, ts⟩ := behind
  obtain ⟨previous', ts'⟩ := other
  obtain rfl : ts = ts' := hrest
  obtain rfl : front = back := List.append_cancel_right (h.rest.symm.trans h'.rest)
  obtain rfl : previous = previous' := h.previous.trans h'.previous.symm
  exact ⟨rfl, rfl⟩

/-- A cursor that has passed nothing is where it was. -/
theorem eq_of_nil (h : c.Passes [] behind) : behind = c :=
  (h.unique (.refl c) h.rest.symm).2

/-- What is passed behind the front of it. -/
theorem of_append (h : c.Passes (front ++ back) behind) (hfront : c.Passes front between) :
    between.Passes back behind := by
  refine ⟨?_, ?_⟩
  · have hrest := hfront.rest.symm.trans h.rest
    rw [List.append_assoc] at hrest
    exact List.append_cancel_left hrest
  · rw [h.previous, hfront.previous, List.getLast?_append, Option.or_assoc]

end Cursor.Passes

/-- Two names close no bracket. -/
theorem Cursor.Passes.closes_names {c behind : Cursor} {first second : Token} {name other : String}
    (h : c.Passes [first, second] behind) (hfirst : first.kind = .identifier name)
    (hsecond : second.kind = .identifier other) : c.Closes 0 [first, second] behind := by
  refine ⟨h, .inr fun around => ?_⟩
  rw [depthBehind, ← List.foldl_map, List.map_cons, List.map_singleton, hfirst, hsecond]
  rfl

namespace StatementCut

variable {c behind : Cursor} {found : Interface}

/-- Every statement closes the brackets that it opens. -/
theorem closes (h : StatementCut c found behind) : ∃ passed, c.Closes 0 passed behind := by
  cases h with
  | dynamic passes word => exact ⟨_, .name passes (Token.kind_of_isName word)⟩
  | whole passes keyword form member edits matching =>
    obtain ⟨_, hmatches⟩ := matching
    obtain ⟨hlisted, -⟩ := hmatches.isListed (hmatches.isWhole form)
    refine ⟨_, passes, .inr fun around => ?_⟩
    rw [depthBehind, ← List.foldl_map]
    exact hlisted.balanced around
  | defaultValue passes keyword word =>
    exact ⟨_, passes.closes_names (Token.kind_of_isName keyword) (Token.kind_of_isName word)⟩
  | declaration passes closes keyword word =>
    obtain ⟨name, -, hword⟩ := Token.kind_of_startsDeclaration word
    exact ⟨_, (passes.closes_names (Token.kind_of_isName keyword) hword).trans closes⟩

/-- The first word of an export that stands in a statement, but not at its front, is passed over by
an exported declaration. -/
theorem exists_kept (h : StatementCut c found behind) {t keyword word : Token}
    {front rest : List Token} (htokens : c.rest = t :: front ++ keyword :: word :: rest)
    (hinside : behind.rest.length ≤ (word :: rest).length) (hopens : OpensExport keyword word) :
    ∃ first next kept back, first.isName "export" = true ∧ next.startsDeclaration = true ∧
      c.rest = first :: next :: (kept ++ keyword :: back ++ behind.rest) ∧
        word :: rest = back ++ behind.rest := by
  cases h with
  | dynamic passes =>
    obtain ⟨back, hback, -⟩ := exists_of_append_eq (passes.rest.symm.trans htokens) hinside
    simp at hback
  | whole passes _ form _ _ matching =>
    obtain ⟨back, hback, hword⟩ := exists_of_append_eq (passes.rest.symm.trans htokens) hinside
    obtain ⟨_, hmatches⟩ := matching
    obtain ⟨hlisted, hlast⟩ := hmatches.isListed (hmatches.isWhole form)
    have hkinds : (t :: front ++ keyword :: back).map (·.kind) =
        (t :: front).map (·.kind) ++ .identifier "export" :: back.map (·.kind) := by
      rw [List.map_append, ← hopens.keyword]
      rfl
    rw [hback, hkinds] at hlisted hlast
    cases back with
    | nil => exact absurd List.getLast?_concat hlast
    | cons next back =>
      obtain ⟨rfl, -⟩ := List.cons_eq_cons.mp hword
      obtain ⟨name, hname, hkind⟩ := hopens.word
      have hnames := (List.isChain_append.mp hlisted.names).2.1
      rw [List.map_cons, List.isChain_cons_cons] at hnames
      exact absurd hkind (hnames.1 rfl name hname)
  | @defaultValue first second value passes _ isword =>
    obtain ⟨back, hback, -⟩ := exists_of_append_eq (passes.rest.symm.trans htokens) hinside
    have hsecond := Token.kind_of_isName isword
    cases front with
    | nil =>
      obtain ⟨-, rfl, -⟩ : first = t ∧ second = keyword ∧ [] = back := by simpa using hback
      simp [hopens.keyword] at hsecond
    | cons => simp at hback
  | @declaration first next between kept names passes closes iskeyword isword =>
    have hpasses := (passes.trans closes.toPasses).rest
    obtain ⟨back, hback, hword⟩ := exists_of_append_eq (hpasses.symm.trans htokens) hinside
    cases front with
    | nil =>
      obtain ⟨-, rfl, -⟩ : first = t ∧ next = keyword ∧ kept = back := by simpa using hback
      obtain ⟨name, hname, hkind⟩ := Token.kind_of_startsDeclaration isword
      obtain rfl := TokenKind.identifier.inj (hopens.keyword.symm.trans hkind)
      exact absurd hname (by decide)
    | cons u front =>
      obtain ⟨rfl, rfl, rfl⟩ : first = t ∧ next = u ∧ kept = front ++ keyword :: back := by
        simpa using hback
      exact ⟨first, next, front, back, iskeyword, isword, by simpa using hpasses, hword⟩

end StatementCut

/-! ### What the reader passes -/

/-- The reader passes what is in front of a place that it gets to, and counts the brackets there. -/
theorem ReadsTo.exists_passes {depth depth' : Nat} {c c' : Cursor} (h : ReadsTo depth c depth' c') :
    ∃ passed, c.Passes passed c' ∧ (c'.rest = [] ∨ depthBehind depth passed = depth') := by
  induction h with
  | refl depth c => exact ⟨[], .refl c, .inr rfl⟩
  | @token _ _ _ _ a none bump _ ih =>
    obtain ⟨passed, hpasses, hdepth⟩ := ih
    exact ⟨a.value :: passed, (bump_passes bump).trans hpasses, hdepth⟩
  | @statement depth _ _ c' a found further ih =>
    obtain ⟨passed, hpasses, hdepth⟩ := ih
    obtain ⟨rfl, -, hcut⟩ := moduleStatement_cut found
    obtain ⟨front, hfront⟩ := hcut.closes
    refine ⟨front ++ passed, hfront.toPasses.trans hpasses, ?_⟩
    rcases hfront.depth with hend | haround
    · refine .inl (List.length_eq_zero_iff.mp ?_)
      have hle := further.length_le
      simpa [hend] using hle
    · rw [depthBehind_append, haround]
      exact hdepth

/-- Whether an exported declaration that the reader gets to **passes over** a place: the next token
there is one of those that it keeps behind its first word. -/
def PassesOver (depth : Nat) (c k : Cursor) : Prop :=
  ∃ (c' : Cursor) (a : Advance c' Interface) (word t : Token) (front back : List Token),
    ReadsTo depth c 0 c' ∧ IsDeclaration c' a word (front ++ t :: back) ∧
      k.rest = t :: (back ++ a.cursor.rest)

/-- What is passed over behind a place that the reader gets to. -/
theorem ReadsTo.passesOver {depth depth' : Nat} {c c' k : Cursor} (h : ReadsTo depth c depth' c')
    (hpasses : PassesOver depth' c' k) : PassesOver depth c k := by
  obtain ⟨c'', a, word, t, front, back, hreads, hdeclaration, hrest⟩ := hpasses
  exact ⟨c'', a, word, t, front, back, h.trans hreads, hdeclaration, hrest⟩

/-- The first word of an export stands behind a statement, or is passed over in it. -/
theorem readsTo_or_passesOver_of_statement {c k : Cursor} {a : Advance c Interface}
    (hstatement : moduleStatement 0 c = .ok (some a)) {t keyword word : Token}
    {front rest : List Token} (hpasses : c.Passes (t :: front) k)
    (hrest : k.rest = keyword :: word :: rest) (hopens : OpensExport keyword word)
    (hbehind : ∀ {front}, a.cursor.Passes front k →
      ReadsTo 0 a.cursor (depthBehind 0 front) k ∨ PassesOver 0 a.cursor k) :
    ReadsTo 0 c (depthBehind 0 (t :: front)) k ∨ PassesOver 0 c k := by
  obtain ⟨-, -, hcut⟩ := moduleStatement_cut hstatement
  have htokens := hpasses.rest
  rw [hrest] at htokens
  -- The place is behind the statement, or else one of the tokens that the statement passes.
  rcases Nat.lt_or_ge (word :: rest).length a.cursor.rest.length with hlength | hlength
  · obtain ⟨passed, hpassed⟩ := hcut.closes
    obtain ⟨others, hothers⟩ : passed <+: t :: front := by
      refine List.prefix_of_prefix_length_le ⟨_, hpassed.rest.symm⟩ ⟨_, htokens.symm⟩ ?_
      have hlengths := congrArg List.length (hpassed.rest.symm.trans htokens)
      simp only [List.length_append, List.length_cons] at hlengths hlength ⊢
      omega
    rw [← hothers] at hpasses ⊢
    have hdepth : depthBehind 0 passed = 0 :=
      (hpassed.depth.resolve_left fun hend => by simp [hend] at hlength) 0
    have hread : ReadsTo 0 c 0 a.cursor := .statement hstatement (.refl 0 a.cursor)
    rw [depthBehind_append, hdepth]
    exact (hbehind (hpasses.of_append hpassed.toPasses)).imp hread.trans hread.passesOver
  · obtain ⟨first, next, kept, back, hfirst, hnext, hc, hback⟩ :=
      hcut.exists_kept htokens hlength hopens
    exact .inr ⟨c, a, next, keyword, kept, back, .refl 0 c,
      ⟨hstatement, ⟨first, hfirst, hc⟩, hnext⟩,
      by rw [hrest, hback]⟩

/-- **Reading on.** In front of a word that starts an export the reader comes to a stop, unless an
exported declaration passes over it. -/
theorem readsTo_or_passesOver {depth : Nat} {c k : Cursor} {found : Interface}
    (h : interfaceFrom depth c = .ok found) {front rest : List Token} {keyword word : Token}
    (hpasses : c.Passes front k) (hrest : k.rest = keyword :: word :: rest)
    (hopens : OpensExport keyword word) :
    ReadsTo depth c (depthBehind depth front) k ∨ PassesOver depth c k := by
  fun_induction interfaceFrom depth c generalizing found front with
  | case1 => simp at h
  | case2 depth c a hstatement _ ih =>
    obtain ⟨further, hfurther, -⟩ := map_eq_ok_iff.mp h
    obtain ⟨rfl, -⟩ := moduleStatement_cut hstatement
    cases front with
    | nil => exact .inl (hpasses.eq_of_nil ▸ .refl 0 c)
    | cons t front =>
      exact readsTo_or_passesOver_of_statement hstatement hpasses hrest hopens (ih hfurther)
  | case3 depth c hnone hend =>
    have htokens := hpasses.rest
    rw [hrest] at htokens
    obtain ⟨previous, ts⟩ := c
    cases ts with
    | nil => simp at htokens
    | cons t ts => simp [Cursor.bump] at hend
  | case4 depth c hnone a hbump _ ih =>
    cases front with
    | nil => exact .inl (hpasses.eq_of_nil ▸ .refl depth c)
    | cons t front =>
      have hfirst := bump_passes hbump
      obtain ⟨rfl, -⟩ := List.cons_eq_cons.mp (hfirst.rest.symm.trans hpasses.rest)
      have hread : ReadsTo depth c (depthAfter depth a.value.kind) a.cursor :=
        .token hnone hbump (.refl _ _)
      have hothers : c.Passes ([a.value] ++ front) k := hpasses
      exact (ih h (hothers.of_append hfirst)).imp hread.trans hread.passesOver

/-! ### Words that are overlooked -/

/-- The reader does not get to a place that it passes over. -/
theorem PassesOver.not_readsTo {depth depth' : Nat} {c k : Cursor} (h : PassesOver depth c k) :
    ¬ReadsTo depth c depth' k := by
  obtain ⟨c', a, word, t, front, back, hreads, hdeclaration, hrest⟩ := h
  obtain ⟨keyword, -, hfront⟩ := hdeclaration.tokens
  have hlength := congrArg List.length hrest
  have hlength' := congrArg List.length hfront
  simp only [List.length_cons, List.length_append] at hlength hlength'
  intro hreads'
  rcases hreads.total hreads' with hbehind | hbehind
  · cases hbehind with
    | refl => omega
    | token none =>
      rw [hdeclaration.statement] at none
      simp at none
    | statement found further =>
      obtain rfl := Option.some.inj (Except.ok.inj (hdeclaration.statement.symm.trans found))
      have hle := further.length_le
      omega
  · have hle := hbehind.length_le
    omega

/-- What is passed over ends outside of all brackets: behind such a place the reader still passes
over what is there, or no more brackets are open than behind the end of the declaration. -/
theorem PassesOver.behind {depth : Nat} {c k k' : Cursor} (h : PassesOver depth c k)
    {front passed : List Token} (hfront : c.Passes front k) (hpassed : k.Passes passed k') :
    PassesOver depth c k' ∨ k'.rest = [] ∨ ∃ kept back, passed = kept ++ back ∧ kept ≠ [] ∧
      depthBehind depth (front ++ passed) = depthBehind 0 back := by
  obtain ⟨c', a, word, t, before, back, hreads, hdeclaration, hrest⟩ := h
  have htokens : t :: back ++ a.cursor.rest = passed ++ k'.rest := hrest.symm.trans hpassed.rest
  -- What is passed ends in the declaration or behind it.
  rcases Nat.lt_or_ge a.cursor.rest.length k'.rest.length with hlength | hlength
  · obtain ⟨next, others, hnext⟩ := List.exists_cons_of_length_pos (Nat.zero_lt_of_lt hlength)
    rw [hnext, List.length_cons] at hlength
    rw [hnext] at htokens
    obtain ⟨kept, hkept, hothers⟩ := exists_of_append_eq htokens (Nat.le_of_lt_succ hlength)
    rw [hkept, ← List.append_assoc] at hdeclaration
    exact .inl ⟨c', a, word, next, before ++ passed, kept, hreads, hdeclaration, by
      rw [hnext, hothers]⟩
  · obtain ⟨others, rfl⟩ : t :: back <+: passed := by
      refine List.prefix_of_prefix_length_le ⟨_, rfl⟩ ⟨_, htokens.symm⟩ ?_
      have hlengths := congrArg List.length htokens
      simp only [List.length_append] at hlengths
      omega
    have hend : ReadsTo depth c 0 a.cursor :=
      hreads.trans (.statement hdeclaration.statement (.refl 0 a.cursor))
    obtain ⟨whole, hwhole, hdepth⟩ := hend.exists_passes
    rcases hdepth with hnone | hdepth
    · have hlengths := congrArg List.length hnone
      simp only [List.length_nil] at hlengths
      exact .inr (.inl (List.length_eq_zero_iff.mp (by omega)))
    · have hkept : k.Passes (t :: back) ⟨(t :: back).getLast?.or k.previous, a.cursor.rest⟩ :=
        ⟨hrest, rfl⟩
      obtain ⟨rfl, -⟩ := hwhole.unique (hfront.trans hkept) rfl
      refine .inr (.inr ⟨t :: back, others, rfl, List.cons_ne_nil _ _, ?_⟩)
      rw [← List.append_assoc, depthBehind_append, hdepth]

/-- Whether a word is **overlooked**: it is the name of a member, or an exported declaration passes
over it. -/
def IsOverlooked (source : Text) (k : Cursor) : Prop :=
  isMember k.previous = true ∨ PassesOver 0 (.ofSource source) k

section

variable {source : Text} {found : Interface} (hfound : Interface.read source = .ok found)
  {front rest : List Token} {k : Cursor} {keyword word : Token}
  (hpasses : (Cursor.ofSource source).Passes front k) (hrest : k.rest = keyword :: word :: rest)
  (hopens : OpensExport keyword word)
include hfound hpasses hrest hopens

/-- The reader finds a statement at the first word of an export that is not overlooked. -/
theorem exists_statement_of_not_isOverlooked (hnot : ¬IsOverlooked source k)
    (hdepth : depthBehind 0 front = 0) :
    ReadsTo 0 (.ofSource source) 0 k ∧ ∃ a, moduleStatement 0 k = .ok (some a) := by
  obtain ⟨hmember, hover⟩ := not_or.mp hnot
  have hreads := (readsTo_or_passesOver hfound hpasses hrest hopens).resolve_right hover
  rw [hdepth] at hreads
  obtain ⟨-, further, hfurther, -⟩ := hreads.exists_append hfound
  have hne := moduleStatement_ne_none hrest rfl (Bool.not_eq_true _ ▸ hmember)
    (Token.isModuleKeyword_of_export hopens.isName)
  refine ⟨hreads, ?_⟩
  rw [interfaceFrom] at hfurther
  cases hstatement : moduleStatement 0 k with
  | error e => simp [hstatement] at hfurther
  | ok statement =>
    obtain ⟨a, rfl⟩ := Option.ne_none_iff_exists'.mp fun hnone => hne (hnone ▸ hstatement)
    exact ⟨a, rfl⟩

/-- The first word of an export is taken out exactly if it stands outside of all brackets and is not
overlooked. -/
theorem exists_edit_iff_not_isOverlooked :
    (∃ edit ∈ found.edits, edit.span.start = keyword.start) ↔
      ¬IsOverlooked source k ∧ depthBehind 0 front = 0 := by
  constructor
  · rintro ⟨edit, hedit, hstart⟩
    have htokens : tokenize source = front ++ k.rest := hpasses.rest
    rw [hrest] at htokens
    obtain ⟨previous, hreads, a, hstatement⟩ :=
      exists_readsTo_of_start hfound ⟨front, htokens.symm⟩ hedit hstart
    obtain ⟨passed, hpassed, hdepth⟩ := hreads.exists_passes
    obtain ⟨rfl, rfl⟩ := hpassed.unique hpasses hrest.symm
    obtain ⟨-, hmember, -⟩ := moduleStatement_cut hstatement
    refine ⟨not_or.mpr ⟨by simp [hmember], fun hover => hover.not_readsTo hreads⟩, ?_⟩
    exact hdepth.resolve_left (List.cons_ne_nil _ _)
  · rintro ⟨hnot, hdepth⟩
    obtain ⟨hreads, -⟩ := exists_statement_of_not_isOverlooked hfound hpasses hrest hopens hnot
      hdepth
    obtain ⟨hmember, -⟩ := not_or.mp hnot
    obtain ⟨previous, ts⟩ := k
    obtain rfl : ts = keyword :: word :: rest := hrest
    exact exists_edit_of_readsTo hfound hreads
      (isBareWord_iff.mpr ⟨rfl, Bool.not_eq_true _ ▸ hmember, .inl hopens.isName⟩)

end

end ScriptBundle
