import ScriptBundle.Proofs.Module.Cutting
import ScriptBundle.Proofs.Token.Facing

/-!
# Statements Ahead

What the reader of a module makes of the tokens of an import declaration, of an export list and of a
default export. A word such as `as`, `from` or `default` may be a name: what it is goes by the place
where it stands.

## Main definitions

* `EntryOf`, `HeadOf`, `StatementOf`: how the parts of a statement are read;
* `Yields`: what is declared by tokens outside of all brackets.

## Main statements

* `bracedList_faces`, `importStatement_faces`, `exportStatement_faces`: statements are read up to
  their end;
* `StatementOf.yields`: a statement declares what it stands for in front of what is behind it;
* `yields_statements`: statements in a row declare what each of them stands for.
-/

namespace ScriptBundle

variable {c : Cursor} {kinds tokens : List TokenKind}

/-! ### Parts of statements -/

/-- Whether a token of a braced list is the given name, as a word or as a string. -/
def IsNameToken (kind : TokenKind) (name : String) : Prop :=
  kind = .identifier name ∨ kind = .string name

theorem listName_faces {kind : TokenKind} {name : String} (hname : IsNameToken kind name)
    (h : c.Faces (kind :: kinds)) : Gives (listName c) name kinds := by
  obtain ⟨a, hbump, hkind, hbehind⟩ := h.bump
  rw [listName, hbump]
  rcases hname with rfl | rfl
  · simp only [hkind]
    exact ⟨_, rfl, rfl, hbehind⟩
  · simp only [hkind]
    exact ⟨_, rfl, rfl, hbehind⟩

/-- How an entry of a braced list is read: as a name, and as the name that it gets behind the word
`as`. -/
inductive EntryOf : List TokenKind → String × String → Prop
  | plain {kind : TokenKind} {name : String} (h : IsNameToken kind name) :
      EntryOf [kind] (name, name)
  | renamed {kind other : TokenKind} {name bound : String} (h : IsNameToken kind name)
      (hbound : IsNameToken other bound) : EntryOf [kind, .identifier "as", other] (name, bound)

/-- An entry is read up to what is behind it, unless it would go on there. -/
theorem listEntry_faces {entry : String × String} (hentry : EntryOf tokens entry)
    (h : c.Faces (tokens ++ kinds)) (hbehind : kinds.head? ≠ some (.identifier "as")) :
    Gives (listEntry c) entry kinds := by
  cases hentry with
  | plain hname =>
    obtain ⟨a, ha, rfl, haBehind⟩ := listName_faces hname h
    rw [listEntry, ha]
    simp only [haBehind.eatName_eq_none _ hbehind]
    exact ⟨_, rfl, rfl, haBehind⟩
  | renamed hname hbound =>
    obtain ⟨a, ha, rfl, haBehind⟩ := listName_faces hname h
    obtain ⟨word, hword, hwordBehind⟩ := haBehind.eatName
    rw [listEntry, ha]
    simp only [hword]
    exact (listName_faces hbound hwordBehind).map (fun _ hb => congrArg _ hb) fun _ => rfl

/-- No entry starts with the token that closes the list. -/
theorem EntryOf.head?_ne {entry : String × String} (h : EntryOf tokens entry) :
    (tokens ++ kinds).head? ≠ some (.punctuator '\x7d') := by
  have hname : ∀ {kind : TokenKind} {name : String}, IsNameToken kind name →
      kind ≠ .punctuator '\x7d' := by
    rintro kind name (rfl | rfl) <;> simp
  cases h with
  | plain h => simpa using hname h
  | renamed h => simpa using hname h

/-- A braced list is read up to its end. -/
theorem bracedList_faces {entries : List (String × String)}
    (hlist : Separated (.punctuator '\x7d') EntryOf tokens entries)
    (h : c.Faces (tokens ++ kinds)) : Gives (bracedList c) entries kinds := by
  induction hlist generalizing c with
  | closed =>
    obtain ⟨a, heat, hbehind⟩ := h.eatPunctuator
    rw [bracedList, heat]
    exact ⟨_, rfl, rfl, hbehind⟩
  | last hentry =>
    rw [List.append_assoc] at h
    obtain ⟨entry, hread, rfl, hbehind⟩ := listEntry_faces hentry h (by simp)
    obtain ⟨closing, hclosing, hclosingBehind⟩ := hbehind.eatPunctuator
    rw [bracedList, h.eatPunctuator_eq_none _ hentry.head?_ne]
    simp only [hread, hbehind.eatPunctuator_eq_none ',' (by simp), hclosing]
    exact ⟨_, rfl, rfl, hclosingBehind⟩
  | more hentry hrest ih =>
    rw [List.append_assoc] at h
    obtain ⟨entry, hread, rfl, hbehind⟩ := listEntry_faces hentry h (by simp)
    obtain ⟨comma, hcomma, hcommaBehind⟩ := hbehind.eatPunctuator
    rw [bracedList, h.eatPunctuator_eq_none _ hentry.head?_ne]
    simp only [hread, hcomma]
    exact (ih hcommaBehind).map (fun _ hothers => by rw [← hothers]; rfl) fun _ => rfl

theorem expectName_faces {name : String} (role : NameRole)
    (h : c.Faces (.identifier name :: kinds)) : Gives (expectName c role) name kinds := by
  obtain ⟨a, hbump, hkind, hbehind⟩ := h.bump
  rw [expectName, hbump]
  simp only [hkind, TokenKind.name?]
  exact ⟨_, rfl, rfl, hbehind⟩

theorem moduleSpecifier_faces {source : String} (h : c.Faces (.string source :: kinds)) :
    ∃ a, moduleSpecifier c = .ok a ∧ a.value.1 = source ∧ a.cursor.Faces kinds := by
  obtain ⟨a, hbump, hkind, hbehind⟩ := h.bump
  rw [moduleSpecifier, hbump]
  simp only [hkind]
  exact ⟨_, rfl, rfl, hbehind⟩

/-- What may be written at the **end** of a statement. -/
def IsEnd (tokens : List TokenKind) : Prop := tokens = [] ∨ tokens = [.punctuator ';']

/-- What may follow a statement: another one, or nothing. -/
def OpensStatement (kinds : List TokenKind) : Prop :=
  ∀ kind ∈ kinds.head?, kind = .identifier "import" ∨ kind = .identifier "export"

/-- The end of a statement is passed, or left if it stands on another line. -/
theorem statementEnd_faces (hend : IsEnd tokens) (hkinds : OpensStatement kinds)
    (h : c.Faces (tokens ++ kinds)) (stop : Nat) :
    ∃ left, IsEnd left ∧ (statementEnd c stop).2.Faces (left ++ kinds) := by
  rcases hend with rfl | rfl
  · have hnone : c.eat (fun t => t.isPunctuator ';' && !t.newlineBefore) = none := by
      refine h.eat_eq_none fun t ht => ?_
      rcases hkinds t.kind ht with hkind | hkind <;> simp [Token.isPunctuator, hkind]
    rw [statementEnd, hnone]
    exact ⟨[], .inl rfl, h⟩
  · obtain ⟨a, hbump, hkind, hbehind⟩ := h.bump
    have heat : c.eat (fun t => t.isPunctuator ';' && !t.newlineBefore) =
        if a.value.newlineBefore = false then some a else none := by
      rw [Cursor.eat, hbump, Option.filter_some]
      simp [Token.isPunctuator, hkind]
    rw [statementEnd, heat]
    split
    · next hpassed =>
      split at hpassed
      · obtain rfl := Option.some.inj hpassed
        exact ⟨[], .inl rfl, hbehind⟩
      · cases hpassed
    · exact ⟨_, .inr rfl, h⟩

/-! ### Imports -/

/-- How a namespace binding or a braced list is read. -/
inductive NamedClauseOf : List TokenKind → ImportClause → Prop
  | namespaceObject (bound : String) :
      NamedClauseOf [.punctuator '*', .identifier "as", .identifier bound] (.namespaceObject bound)
  | names {list : List TokenKind} {entries : List (String × String)}
      (h : Separated (.punctuator '\x7d') EntryOf list entries) :
      NamedClauseOf (.punctuator '\x7b' :: list) (.names (entries.map fun e => ⟨e.1, e.2⟩))

/-- How an import clause is read. -/
inductive ClauseOf : List TokenKind → ImportClause → Prop
  | defaultExport (bound : String) : ClauseOf [.identifier bound] (.defaultExport bound)
  | named {tokens : List TokenKind} {clause : ImportClause} (h : NamedClauseOf tokens clause) :
      ClauseOf tokens clause

/-- How the tokens between the word `import` and the specifier are read. -/
inductive HeadOf : List TokenKind → ImportClause → Prop
  | nothing : HeadOf [] .nothing
  | clause {tokens : List TokenKind} {clause : ImportClause} (h : ClauseOf tokens clause) :
      HeadOf (tokens ++ [.identifier "from"]) clause

theorem namedClause_faces {clause : ImportClause} (hclause : NamedClauseOf tokens clause)
    (h : c.Faces (tokens ++ kinds)) : Gives (namedClause c) clause kinds := by
  cases hclause with
  | namespaceObject bound =>
    obtain ⟨star, hstar, hstarBehind⟩ := h.eatPunctuator
    obtain ⟨word, hword, hwordBehind⟩ := hstarBehind.eatName
    rw [namedClause, hstar]
    simp only [hword]
    exact (expectName_faces _ hwordBehind).map (fun _ hb => congrArg _ hb) fun _ => rfl
  | names hlist =>
    obtain ⟨brace, hbrace, hbraceBehind⟩ := h.eatPunctuator
    rw [namedClause, h.eatPunctuator_eq_none '*' (by simp), hbrace]
    exact (bracedList_faces hlist hbraceBehind).map (fun _ hentries => by rw [← hentries]; rfl)
      fun _ => rfl

/-- Whether an import clause may start with a token. -/
def TokenKind.opensClause : TokenKind → Bool
  | identifier _ => true
  | punctuator c => c == '*' || c == '\x7b'
  | _ => false

/-- A named clause starts with a star or a brace. -/
theorem NamedClauseOf.exists_head {clause : ImportClause} (h : NamedClauseOf tokens clause) :
    ∃ char others, tokens = .punctuator char :: others ∧
      (TokenKind.punctuator char).opensClause = true := by
  cases h with
  | namespaceObject bound => exact ⟨_, _, rfl, rfl⟩
  | names hlist => exact ⟨_, _, rfl, rfl⟩

theorem ClauseOf.exists_head {clause : ImportClause} (h : ClauseOf tokens clause) :
    ∃ kind others, tokens = kind :: others ∧ kind.opensClause = true := by
  cases h with
  | defaultExport bound => exact ⟨_, _, rfl, rfl⟩
  | named hnamed =>
    obtain ⟨char, others, heq, hopens⟩ := hnamed.exists_head
    exact ⟨_, others, heq, hopens⟩

theorem importClauses_faces {clause : ImportClause} (hclause : ClauseOf tokens clause)
    (h : c.Faces (tokens ++ .identifier "from" :: kinds)) :
    Gives (importClauses c) [clause] (.identifier "from" :: kinds) := by
  cases hclause with
  | defaultExport bound =>
    obtain ⟨t, hpeek, hkind⟩ := h.peek
    obtain ⟨a, ha, rfl, hbehind⟩ := expectName_faces .defaultImport h
    rw [importClauses, hpeek]
    simp only [Option.bind_some, hkind, TokenKind.name?, ha,
      hbehind.eatPunctuator_eq_none ',' (by simp)]
    exact ⟨_, rfl, rfl, hbehind⟩
  | named hnamed =>
    obtain ⟨char, others, rfl, -⟩ := hnamed.exists_head
    obtain ⟨t, hpeek, hkind⟩ := h.peek
    rw [importClauses, hpeek]
    simp only [Option.bind_some, hkind, TokenKind.name?]
    exact (namedClause_faces hnamed h).map (fun _ hother => congrArg ([·]) hother) fun _ => rfl

theorem importHead_faces {clause : ImportClause} {source : String} (hhead : HeadOf tokens clause)
    (h : c.Faces (tokens ++ .string source :: kinds)) :
    ∃ r, importHead c = .ok r ∧ r.1.1 = [clause] ∧ r.1.2.Faces (.string source :: kinds) := by
  have hquoted : c.peek.any (isQuotedLike ·.kind) =
      (tokens ++ .string source :: kinds).head?.any isQuotedLike := h.any_peek fun _ => rfl
  cases hhead with
  | nothing =>
    rw [importHead, if_pos (by rw [hquoted]; rfl)]
    exact ⟨_, rfl, rfl, h⟩
  | @clause tokens _ hclause =>
    obtain ⟨kind, others, rfl, hopens⟩ := hclause.exists_head
    have hplain : isQuotedLike kind = false := by
      cases kind <;> simp_all [TokenKind.opensClause, isQuotedLike]
    rw [List.append_assoc] at h
    obtain ⟨clauses, hclauses, hvalue, hbehind⟩ := importClauses_faces hclause h
    obtain ⟨word, hword, hwordBehind⟩ := hbehind.eatName
    rw [importHead, if_neg (by rw [hquoted]; simp [hplain]), hclauses]
    simp only [hword]
    exact ⟨_, rfl, hvalue, hwordBehind⟩

/-- The word `import` of a declaration is not used as an expression. -/
theorem HeadOf.not_expression {clause : ImportClause} {source : String}
    (hhead : HeadOf tokens clause) (h : c.Faces (tokens ++ .string source :: kinds)) :
    (c.atPunctuator '(' || c.atPunctuator '.') = false := by
  rw [h.atPunctuator, h.atPunctuator]
  cases hhead with
  | nothing => rfl
  | clause hclause =>
    obtain ⟨kind, others, rfl, hopens⟩ := hclause.exists_head
    cases kind with
    | identifier name => rfl
    | punctuator char =>
      rcases Bool.or_eq_true_iff.mp hopens with hchar | hchar
      · obtain rfl := eq_of_beq hchar
        rfl
      · obtain rfl := eq_of_beq hchar
        rfl
    | _ => cases hopens

/-- An import declaration is read up to its end. -/
theorem importStatement_faces {clause : ImportClause} {source : String} {last : List TokenKind}
    (hhead : HeadOf tokens clause) (hend : IsEnd last) (hkinds : OpensStatement kinds)
    (h : c.Faces (.identifier "import" :: (tokens ++ .string source :: (last ++ kinds)))) :
    ∃ a left, importStatement c = .ok (some a) ∧ a.value.imports = [⟨clause, source⟩] ∧
      a.value.exports = [] ∧ IsEnd left ∧ a.cursor.Faces (left ++ kinds) := by
  obtain ⟨keyword, hkeyword, -, hkeywordBehind⟩ := h.bump
  have hplain := hhead.not_expression hkeywordBehind
  obtain ⟨⟨⟨clauses, front⟩, hfront⟩, hread, hclauses, hfrontFaces⟩ :=
    importHead_faces hhead hkeywordBehind
  obtain rfl : clauses = [clause] := hclauses
  obtain ⟨specifier, hspecifier, rfl, hbehind⟩ := moduleSpecifier_faces hfrontFaces
  obtain ⟨left, hleft, hleftFaces⟩ :=
    statementEnd_faces hend hkinds hbehind specifier.value.2
  rw [importStatement, hkeyword]
  simp only [hplain, hread, hspecifier]
  exact ⟨_, left, rfl, rfl, rfl, hleft, hleftFaces⟩

/-! ### Exports -/

/-- An export list is read from behind its opening brace up to its end. -/
theorem exportList_faces {entries : List (String × String)} {last : List TokenKind}
    (hlist : Separated (.punctuator '\x7d') EntryOf tokens entries) (hend : IsEnd last)
    (hkinds : OpensStatement kinds) (h : c.Faces (tokens ++ (last ++ kinds))) (start : Nat) :
    ∃ a left, exportList c start = .ok a ∧ a.value.imports = [] ∧
      a.value.exports = entries.map (fun entry => .ofName entry.2) ∧ IsEnd left ∧
      a.cursor.Faces (left ++ kinds) := by
  obtain ⟨list, hread, rfl, hbehind⟩ := bracedList_faces hlist h
  have hfrom : list.cursor.atName "from" = false := by
    rw [hbehind.atName]
    rcases hend with rfl | rfl
    · cases kinds with
      | nil => rfl
      | cons kind kinds => rcases hkinds kind rfl with rfl | rfl <;> rfl
    · rfl
  obtain ⟨left, hleft, hleftFaces⟩ := statementEnd_faces hend hkinds hbehind
    ((list.cursor.previous.map Token.stop).getD start)
  rw [exportList, hread]
  simp only [hfrom]
  exact ⟨_, left, rfl, rfl, rfl, hleft, hleftFaces⟩

/-- A statement with an export list is read up to its end. -/
theorem exportStatement_faces {entries : List (String × String)} {last : List TokenKind}
    (hlist : Separated (.punctuator '\x7d') EntryOf tokens entries) (hend : IsEnd last)
    (hkinds : OpensStatement kinds)
    (h : c.Faces (.identifier "export" :: .punctuator '\x7b' :: (tokens ++ (last ++ kinds)))) :
    ∃ a left, exportStatement c = .ok (some a) ∧ a.value.imports = [] ∧
      a.value.exports = entries.map (fun entry => .ofName entry.2) ∧ IsEnd left ∧
      a.cursor.Faces (left ++ kinds) := by
  obtain ⟨keyword, hkeyword, -, hkeywordBehind⟩ := h.bump
  obtain ⟨brace, hbrace, hbraceKind, hbraceBehind⟩ := hkeywordBehind.bump
  obtain ⟨list, left, hread, himports, hexports, hleft, hleftFaces⟩ :=
    exportList_faces hlist hend hkinds hbraceBehind keyword.value.start
  rw [exportStatement, hkeyword]
  simp only [hbrace, hbraceKind, hread]
  exact ⟨_, left, rfl, himports, hexports, hleft, hleftFaces⟩

/-- Of a default export the first two words are read. -/
theorem exportDefault_faces {value : TokenKind}
    (h : c.Faces (.identifier "export" :: .identifier "default" :: value :: kinds)) :
    ∃ a, exportStatement c = .ok (some a) ∧ a.value.imports = [] ∧
      a.value.exports = [.defaultValue] ∧ a.cursor.Faces (value :: kinds) := by
  obtain ⟨keyword, hkeyword, -, hkeywordBehind⟩ := h.bump
  obtain ⟨word, hword, hwordKind, hwordBehind⟩ := hkeywordBehind.bump
  obtain ⟨t, hpeek, -⟩ := hwordBehind.peek
  rw [exportStatement, hkeyword]
  simp only [hword, hwordKind, if_true, defaultExport, hpeek]
  exact ⟨_, rfl, rfl, rfl, hwordBehind⟩

/-- A statement that exports variables ends where their declarators end. -/
theorem exportStatement_variables {previous : Option Token} {keyword word : Token}
    {rest : List Token}
    (hword : ∃ name, (name = "const" ∨ name = "let" ∨ name = "var") ∧
      word.kind = .identifier name) :
    (∀ names, declaratorNames ⟨some word, rest⟩ = .ok names →
      ∃ a, exportStatement ⟨previous, keyword :: word :: rest⟩ = .ok (some a) ∧
        a.value = declared keyword.start word.start names.value ∧ a.cursor = names.cursor) ∧
    ∀ a, exportStatement ⟨previous, keyword :: word :: rest⟩ = .ok (some a) →
      ∃ names, declaratorNames ⟨some word, rest⟩ = .ok names ∧ a.cursor = names.cursor := by
  obtain ⟨name, hname, hkind⟩ := hword
  have hdefault : name ≠ "default" := by rcases hname with rfl | rfl | rfl <;> decide
  have hnames : exportedNames name ⟨some word, rest⟩ keyword.start =
      declaratorNames ⟨some word, rest⟩ := by
    rcases hname with rfl | rfl | rfl <;> simp [exportedNames]
  simp only [exportStatement, Cursor.bump, hkind, if_neg hdefault, hnames]
  refine ⟨fun names hnames => ?_, fun a ha => ?_⟩
  · rw [hnames]
    exact ⟨_, rfl, rfl, rfl⟩
  · obtain ⟨names, hnames, hsome⟩ := map_eq_ok_iff.mp ha
    obtain rfl := Option.some.inj hsome
    exact ⟨names, hnames, rfl⟩

/-! ### Statements in a row -/

/-- Whether no **point** is near a cursor: neither the token just passed nor one ahead is a
point. -/
def Cursor.Pointless (c : Cursor) : Prop :=
  ∀ t ∈ c.previous.toList ++ c.rest, t.kind ≠ .punctuator '.'

/-- What is passed leads to no point. -/
theorem Cursor.Pointless.of_passes (h : c.Pointless) {passed : List Token} {behind : Cursor}
    (hpasses : c.Passes passed behind) : behind.Pointless := by
  intro t ht
  rw [Cursor.Pointless, hpasses.rest] at h
  rcases List.mem_append.mp ht with ht | ht
  · rw [hpasses.previous, Option.mem_toList] at ht
    rcases Option.or_eq_some_iff.mp ht with hlast | ⟨-, hprevious⟩
    · exact h t (by simp [List.mem_of_getLast? hlast])
    · exact h t (by simp [hprevious])
  · exact h t (by simp [ht])

/-- The word at a cursor with no point near it is not the name of a member. -/
theorem Cursor.Pointless.isMember (h : c.Pointless) : isMember c.previous = false := by
  cases hprevious : c.previous with
  | none => rfl
  | some t =>
    have hkind := h t (by simp [hprevious])
    simpa [ScriptBundle.isMember, Token.isPunctuator] using hkind

theorem moduleStatement_import (h : c.Faces (.identifier "import" :: kinds))
    (hmember : isMember c.previous = false) : moduleStatement 0 c = importStatement c := by
  have hname : c.atName "import" = true := by
    rw [h.atName]
    rfl
  rw [moduleStatement, if_pos ⟨rfl, hmember⟩, if_pos hname]

theorem moduleStatement_export (h : c.Faces (.identifier "export" :: kinds))
    (hmember : isMember c.previous = false) : moduleStatement 0 c = exportStatement c := by
  have hother : c.atName "import" = false := by
    rw [h.atName]
    rfl
  have hname : c.atName "export" = true := by
    rw [h.atName]
    rfl
  rw [moduleStatement, if_pos ⟨rfl, hmember⟩, hother, if_neg Bool.false_ne_true, if_pos hname]

/-- Whether tokens **yield** imports and exports: that is what they declare outside of all brackets,
if there is no point near them. -/
def Yields (kinds : List TokenKind) (imports : List Import) (exports : List Export) : Prop :=
  ∀ c : Cursor, c.Faces kinds → c.Pointless →
    ∃ found, interfaceFrom 0 c = .ok found ∧ found.imports = imports ∧ found.exports = exports

theorem yields_nil : Yields [] [] [] := by
  intro c h _
  obtain ⟨previous, rest⟩ := c
  obtain rfl : rest = [] := List.map_eq_nil_iff.mp h
  exact ⟨_, interfaceFrom_nil 0 previous, rfl, rfl⟩

namespace Yields

variable {imports : List Import} {exports : List Export}

/-- A token that neither starts a statement nor is a bracket is passed. -/
theorem passed (h : Yields kinds imports exports) {kind : TokenKind}
    (himport : kind ≠ .identifier "import") (hexport : kind ≠ .identifier "export")
    (hdepth : depthAfter 0 kind = 0) : Yields (kind :: kinds) imports exports := by
  intro c hfaces hpoint
  obtain ⟨a, hbump, rfl, hbehind⟩ := hfaces.bump
  have hnone : moduleStatement 0 c = .ok none := by
    rw [moduleStatement, hfaces.atName, hfaces.atName]
    simp [himport, hexport]
  rw [interfaceFrom_of_token hnone hbump, hdepth]
  exact h a.cursor hbehind (hpoint.of_passes (bump_passes hbump))

/-- What is left of the end of a statement is passed. -/
theorem behind_end (h : Yields kinds imports exports) (hend : IsEnd tokens) :
    Yields (tokens ++ kinds) imports exports := by
  rcases hend with rfl | rfl
  · exact h
  · exact h.passed (by simp) (by simp) (by decide)

/-- A statement yields what it declares in front of what is yielded behind it. -/
theorem of_statement {behind : List TokenKind}
    (h : Yields behind imports exports) {a : Advance c Interface}
    (hstatement : moduleStatement 0 c = .ok (some a)) (hbehind : a.cursor.Faces behind)
    (hpoint : c.Pointless) : ∃ found, interfaceFrom 0 c = .ok found ∧
      found.imports = a.value.imports ++ imports ∧ found.exports = a.value.exports ++ exports := by
  obtain ⟨-, -, hcut⟩ := moduleStatement_cut hstatement
  obtain ⟨passed, hpasses⟩ := hcut.exists_passes
  obtain ⟨others, hothers, rfl, rfl⟩ := h a.cursor hbehind (hpoint.of_passes hpasses)
  refine ⟨a.value ++ others, ?_, rfl, rfl⟩
  rw [interfaceFrom_of_statement hstatement, hothers]
  rfl

end Yields

/-- How the statement of a declaration is read. -/
inductive StatementOf : List TokenKind → Import ⊕ Export → Prop
  | importDeclaration {head last : List TokenKind} {clause : ImportClause} (h : HeadOf head clause)
      (source : String) (hend : IsEnd last) :
      StatementOf (.identifier "import" :: (head ++ .string source :: last)) (.inl ⟨clause, source⟩)
  | exportList {list last : List TokenKind} {entry : String × String}
      (h : Separated (.punctuator '\x7d') EntryOf list [entry]) (hend : IsEnd last) :
      StatementOf (.identifier "export" :: .punctuator '\x7b' :: (list ++ last))
        (.inr (.ofName entry.2))
  | exportDefault (value : String) {last : List TokenKind} (hend : IsEnd last) :
      StatementOf (.identifier "export" :: .identifier "default" :: .string value :: last)
        (.inr .defaultValue)

/-- The tokens of a statement open one. -/
theorem StatementOf.opensStatement {declaration : Import ⊕ Export}
    (h : StatementOf tokens declaration) : OpensStatement (tokens ++ kinds) := by
  cases h with
  | importDeclaration => simp [OpensStatement]
  | exportList => simp [OpensStatement]
  | exportDefault => simp [OpensStatement]

/-- A statement yields its declaration in front of what is yielded behind it. -/
theorem StatementOf.yields {declaration : Import ⊕ Export} (h : StatementOf tokens declaration)
    {imports : List Import} {exports : List Export} (hkinds : OpensStatement kinds)
    (hyields : Yields kinds imports exports) :
    Yields (tokens ++ kinds) (declaration.getLeft?.toList ++ imports)
      (declaration.getRight?.toList ++ exports) := by
  intro c hfaces hpoint
  cases h with
  | importDeclaration hhead source hend =>
    obtain ⟨a, left, hread, himports, hexports, hleft, hbehind⟩ :=
      importStatement_faces hhead hend hkinds (by simpa using hfaces)
    rw [← moduleStatement_import hfaces hpoint.isMember] at hread
    have hfound := (hyields.behind_end hleft).of_statement hread hbehind hpoint
    rwa [himports, hexports] at hfound
  | exportList hlist hend =>
    obtain ⟨a, left, hread, himports, hexports, hleft, hbehind⟩ :=
      exportStatement_faces hlist hend hkinds (by simpa using hfaces)
    rw [← moduleStatement_export hfaces hpoint.isMember] at hread
    have hfound := (hyields.behind_end hleft).of_statement hread hbehind hpoint
    rwa [himports, hexports] at hfound
  | exportDefault value hend =>
    obtain ⟨a, hread, himports, hexports, hbehind⟩ := exportDefault_faces hfaces
    rw [← moduleStatement_export hfaces hpoint.isMember] at hread
    have hvalue : Yields (.string value :: (_ ++ kinds)) imports exports :=
      (hyields.behind_end hend).passed (by simp) (by simp) rfl
    have hfound := hvalue.of_statement hread hbehind hpoint
    rwa [himports, hexports] at hfound

/-- Statements in a row yield their declarations. -/
theorem yields_statements {parts : List α} {write : α → List TokenKind}
    {value : α → Import ⊕ Export} (h : ∀ part ∈ parts, StatementOf (write part) (value part)) :
    Yields (parts.flatMap write) (parts.filterMap fun part => (value part).getLeft?)
      (parts.filterMap fun part => (value part).getRight?) := by
  induction parts with
  | nil => exact yields_nil
  | cons part parts ih =>
    obtain ⟨hpart, hparts⟩ := List.forall_mem_cons.mp h
    have hopens : OpensStatement (parts.flatMap write) := by
      cases parts with
      | nil => simp [OpensStatement]
      | cons next parts => exact (hparts next List.mem_cons_self).opensStatement
    have hyields := hpart.yields hopens (ih hparts)
    cases hvalue : value part <;> simpa [hvalue] using hyields

end ScriptBundle
