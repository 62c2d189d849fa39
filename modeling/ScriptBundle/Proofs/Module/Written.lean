import ScriptBundle.Proofs.Module.Facing
import ScriptBundle.Proofs.Token.Written

/-!
# Written Declarations

Imports and exports that are written one statement a line are read back, whatever characters their
specifiers and names are made of.

## Main definitions

* `IsWritable`: whether there is a statement for a declaration;
* `DeclarationSpelling`: what may be chosen when a declaration is written;
* `declarationText`: declarations, each on a line of its own.

## Main statements

* `DeclarationSpelling.statementOf_line`: the tokens of a written statement are read as the
  declaration;
* `read_declarationText`: written declarations are read back.
-/

namespace ScriptBundle

/-- Whether there is a statement for a declaration: the names that an import binds must be words,
and an export under the name `default` is the default export. -/
def IsWritable : Import ⊕ Export → Prop
  | .inl declaration => ∀ name ∈ declaration.clause.boundNames, isWord name = true
  | .inr declaration => declaration ≠ .named "default"

instance : DecidablePred IsWritable
  | .inl declaration =>
    inferInstanceAs (Decidable (∀ name ∈ declaration.clause.boundNames, isWord name = true))
  | .inr declaration => inferInstanceAs (Decidable (declaration ≠ .named "default"))

/-- What may be chosen when a declaration is written. -/
structure DeclarationSpelling where
  quote : Quote
  /-- Whether a word in braces is written without quotes. -/
  bare : Bool
  /-- Whether a word in braces is written once if it keeps its name. -/
  short : Bool
  /-- Whether there is a comma behind the last entry of a list. -/
  comma : Bool
  /-- Whether there is a semicolon at the end. -/
  semicolon : Bool
  /-- The name of what is exported under another one. -/
  subject : String
  isWord_subject : isWord subject = true
  /-- Whether the default export is written as an entry of a list. -/
  listed : Bool

namespace DeclarationSpelling

variable (spelling : DeclarationSpelling)

/-- A name in braces. -/
def nameToken (name : String) : Lexeme :=
  if spelling.bare = true ∧ isWord name = true then .word [' '] name
  else .literal [' '] spelling.quote name

/-- An entry of an import list. -/
def importEntry (name : ImportName) : List Lexeme :=
  if spelling.short = true ∧ name.imported = name.bound then [.word [' '] name.bound]
  else [spelling.nameToken name.imported, .word [' '] "as", .word [' '] name.bound]

/-- An entry of an export list. -/
def exportEntry (name : String) : List Lexeme :=
  if spelling.short = true ∧ isWord name = true then [.word [' '] name]
  else [.word [' '] spelling.subject, .word [' '] "as", spelling.nameToken name]

/-- A list in braces. -/
def bracedList (entries : List (List Lexeme)) : List Lexeme :=
  .mark [' '] '\x7b' ::
    (commaSeparated (.mark [] ',') spelling.comma entries ++ [.mark [' '] '\x7d'])

/-- What is written between the word `import` and the specifier. -/
def head : ImportClause → List Lexeme
  | .names list => spelling.bracedList (list.map spelling.importEntry) ++ [.word [' '] "from"]
  | .defaultExport bound => [.word [' '] bound, .word [' '] "from"]
  | .namespaceObject bound =>
    [.mark [' '] '*', .word [' '] "as", .word [' '] bound, .word [' '] "from"]
  | .nothing => []

/-- The end of a statement. -/
def ending : List Lexeme := if spelling.semicolon then [.mark [] ';'] else []

/-- The statement that exports a name. -/
def exportLine (name : String) : List Lexeme :=
  .word [] "export" :: (spelling.bracedList [spelling.exportEntry name] ++ spelling.ending)

/-- The statement of a declaration. -/
def line : Import ⊕ Export → List Lexeme
  | .inl declaration =>
    .word [] "import" :: (spelling.head declaration.clause ++
      .literal [' '] spelling.quote declaration.source :: spelling.ending)
  | .inr (.named name) => spelling.exportLine name
  | .inr .defaultValue =>
    if spelling.listed then spelling.exportLine "default"
    else .word [] "export" :: .word [' '] "default" ::
      .literal [' '] spelling.quote spelling.subject :: spelling.ending

/-! ### Tokens that are kept apart -/

theorem isApart_nameToken (name : String) : (spelling.nameToken name).IsApart := by
  rw [nameToken]
  split
  · next hword => exact .spaced hword.2
  · exact .literal isBlankText_space _ _

theorem isApart_importEntry {name : ImportName} (h : isWord name.bound = true) :
    ∀ l ∈ spelling.importEntry name, l.IsApart := by
  have hbound : (Lexeme.word [' '] name.bound).IsApart := .spaced h
  rw [importEntry]
  split
  · exact List.forall_mem_singleton.mpr hbound
  · simp only [List.forall_mem_cons]
    exact ⟨spelling.isApart_nameToken _, .spaced (by decide), hbound,
      List.forall_mem_nil _⟩

theorem isApart_exportEntry (name : String) :
    ∀ l ∈ spelling.exportEntry name, l.IsApart := by
  rw [exportEntry]
  split
  · next hword => exact List.forall_mem_singleton.mpr (.spaced hword.2)
  · simp only [List.forall_mem_cons]
    exact ⟨.spaced spelling.isWord_subject,
      .spaced (by decide), spelling.isApart_nameToken _,
      List.forall_mem_nil _⟩

theorem isApart_bracedList {entries : List (List Lexeme)}
    (h : ∀ entry ∈ entries, ∀ l ∈ entry, l.IsApart) :
    ∀ l ∈ spelling.bracedList entries, l.IsApart := by
  have hlist := isApart_commaSeparated h spelling.comma
  simp only [bracedList, List.forall_mem_cons, List.forall_mem_append]
  exact ⟨.mark isBlankText_space (by decide), hlist, .mark isBlankText_space (by decide),
    List.forall_mem_nil _⟩

theorem isApart_head {clause : ImportClause} (h : ∀ name ∈ clause.boundNames, isWord name = true) :
    ∀ l ∈ spelling.head clause, l.IsApart := by
  have hfrom : (Lexeme.word [' '] "from").IsApart := .spaced (by decide)
  cases clause with
  | names list =>
    have hlist : ∀ entry ∈ list.map spelling.importEntry, ∀ l ∈ entry, l.IsApart :=
      List.forall_mem_map.mpr fun name hname =>
        spelling.isApart_importEntry (h name.bound (List.mem_map_of_mem hname))
    exact List.forall_mem_append.mpr
      ⟨spelling.isApart_bracedList hlist, List.forall_mem_singleton.mpr hfrom⟩
  | defaultExport bound =>
    have hbound := h bound List.mem_cons_self
    simp only [head, List.forall_mem_cons]
    exact ⟨.spaced hbound, hfrom, List.forall_mem_nil _⟩
  | namespaceObject bound =>
    have hbound := h bound List.mem_cons_self
    simp only [head, List.forall_mem_cons]
    exact ⟨.mark isBlankText_space (by decide), .spaced (by decide),
      .spaced hbound, hfrom, List.forall_mem_nil _⟩
  | nothing => exact List.forall_mem_nil _

theorem isApart_ending : ∀ l ∈ spelling.ending, l.IsApart := by
  rw [ending]
  split
  · exact List.forall_mem_singleton.mpr (.mark isBlankText_nil (by decide))
  · exact List.forall_mem_nil _

theorem isWrittenLine_exportLine (name : String) : IsWrittenLine (spelling.exportLine name) := by
  have hentry : ∀ entry ∈ [spelling.exportEntry name], ∀ l ∈ entry, l.IsApart :=
    List.forall_mem_singleton.mpr (spelling.isApart_exportEntry name)
  exact .mk (by decide) (List.forall_mem_append.mpr
    ⟨spelling.isApart_bracedList hentry, spelling.isApart_ending⟩)

/-- The statement of a declaration is a written line. -/
theorem isWrittenLine_line {declaration : Import ⊕ Export} (h : IsWritable declaration) :
    IsWrittenLine (spelling.line declaration) := by
  rcases declaration with declaration | name | _
  · exact .mk (by decide) (List.forall_mem_append.mpr ⟨spelling.isApart_head h,
      List.forall_mem_cons.mpr ⟨.literal isBlankText_space _ _, spelling.isApart_ending⟩⟩)
  · exact spelling.isWrittenLine_exportLine name
  · rw [line]
    split
    · exact spelling.isWrittenLine_exportLine "default"
    · exact .mk (by decide) (List.forall_mem_cons.mpr
        ⟨.spaced (by decide),
          List.forall_mem_cons.mpr ⟨.literal isBlankText_space _ _, spelling.isApart_ending⟩⟩)

/-! ### Kinds of tokens -/

theorem isNameToken_nameToken (name : String) :
    IsNameToken (spelling.nameToken name).kind name := by
  rw [nameToken]
  split
  · exact .inl rfl
  · exact .inr rfl

theorem entryOf_importEntry (name : ImportName) :
    EntryOf ((spelling.importEntry name).map Lexeme.kind) (name.imported, name.bound) := by
  rw [importEntry]
  split
  · next hsame =>
    rw [hsame.2]
    exact .plain (.inl rfl)
  · exact .renamed (spelling.isNameToken_nameToken _) (.inl rfl)

theorem entryOf_exportEntry (name : String) :
    ∃ subject, EntryOf ((spelling.exportEntry name).map Lexeme.kind) (subject, name) := by
  rw [exportEntry]
  split
  · exact ⟨name, .plain (.inl rfl)⟩
  · exact ⟨spelling.subject, .renamed (.inl rfl) (spelling.isNameToken_nameToken _)⟩

theorem kinds_bracedList (entries : List (List Lexeme)) :
    (spelling.bracedList entries).map Lexeme.kind = .punctuator '\x7b' ::
      (commaSeparated (.punctuator ',') spelling.comma (entries.map (List.map Lexeme.kind)) ++
        [.punctuator '\x7d']) := by
  simp [bracedList, map_commaSeparated, Lexeme.mark]

theorem isEnd_ending : IsEnd (spelling.ending.map Lexeme.kind) := by
  rw [ending]
  split
  · exact .inr rfl
  · exact .inl rfl

/-- The kinds of the tokens in front of the specifier are those of the clause. -/
theorem headOf_head (clause : ImportClause) :
    HeadOf ((spelling.head clause).map Lexeme.kind) clause := by
  cases clause with
  | names list =>
    have hentries : ∀ name ∈ list, EntryOf ((spelling.importEntry name).map Lexeme.kind)
        (name.imported, name.bound) := fun name _ => spelling.entryOf_importEntry name
    have hclause := NamedClauseOf.names (separated_commaSeparated hentries spelling.comma)
    rw [List.map_map] at hclause
    have hnames : list.map ((fun e : String × String => (⟨e.1, e.2⟩ : ImportName)) ∘
        fun name => (name.imported, name.bound)) = list := List.map_id _
    rw [hnames] at hclause
    have hhead := HeadOf.clause (.named hclause)
    rw [head, List.map_append, kinds_bracedList, List.map_map]
    exact hhead
  | defaultExport bound => exact .clause (.defaultExport bound)
  | namespaceObject bound => exact .clause (.named (.namespaceObject bound))
  | nothing => exact .nothing

theorem statementOf_exportLine (name : String) :
    StatementOf ((spelling.exportLine name).map Lexeme.kind) (.inr (.ofName name)) := by
  obtain ⟨subject, hentry⟩ := spelling.entryOf_exportEntry name
  have hlist : Separated (.punctuator '\x7d') EntryOf _ [(subject, name)] :=
    separated_commaSeparated (List.forall_mem_singleton.mpr hentry) spelling.comma
  rw [exportLine, List.map_cons, List.map_append, kinds_bracedList, List.map_singleton]
  exact .exportList hlist spelling.isEnd_ending

/-- The kinds of the tokens of a statement are those of the declaration. -/
theorem statementOf_line {declaration : Import ⊕ Export} (h : IsWritable declaration) :
    StatementOf ((spelling.line declaration).map Lexeme.kind) declaration := by
  rcases declaration with declaration | name | _
  · rw [line, List.map_cons, List.map_append]
    exact .importDeclaration (spelling.headOf_head declaration.clause) declaration.source
      spelling.isEnd_ending
  · have hstatement := spelling.statementOf_exportLine name
    have hname : name ≠ "default" := fun heq => h (congrArg Export.named heq)
    rwa [Export.ofName, if_neg hname] at hstatement
  · rw [line]
    split
    · exact spelling.statementOf_exportLine "default"
    · exact .exportDefault spelling.subject spelling.isEnd_ending

end DeclarationSpelling

/-- Declarations, each written on a line of its own. -/
def declarationText (written : List (DeclarationSpelling × (Import ⊕ Export))) : Text :=
  .joinLines (written.map fun d => writeLexemes (d.1.line d.2))

/-- Imports and exports that are **written** one statement a line are read back in order. -/
theorem read_declarationText (written : List (DeclarationSpelling × (Import ⊕ Export)))
    (h : ∀ d ∈ written, IsWritable d.2) :
    ∃ found, Interface.read (declarationText written) = .ok found ∧
      found.imports = written.filterMap (·.2.getLeft?) ∧
      found.exports = written.filterMap (·.2.getRight?) := by
  have hlines : ∀ line ∈ written.map fun d => d.1.line d.2, IsWrittenLine line :=
    List.forall_mem_map.mpr fun d hd => d.1.isWrittenLine_line (h d hd)
  have hfaces : (Cursor.ofSource (declarationText written)).Faces
      (written.flatMap fun d => (d.1.line d.2).map Lexeme.kind) := by
    have hkinds := kinds_joinLines hlines
    rwa [List.map_map, List.map_flatten, List.map_map] at hkinds
  have hpoint : (Cursor.ofSource (declarationText written)).Pointless := by
    intro t ht hkind
    have hmem : t.kind ∈ (Cursor.ofSource (declarationText written)).rest.map (·.kind) :=
      List.mem_map_of_mem ht
    rw [show _ = _ from hfaces, hkind] at hmem
    obtain ⟨d, hd, hl⟩ := List.mem_flatMap.mp hmem
    obtain ⟨l, hl, hpoint⟩ := List.mem_map.mp hl
    have hmarks := (d.1.isWrittenLine_line (h d hd)).mem_marks hl hpoint
    exact absurd hmarks (by decide)
  exact yields_statements (fun d hd => d.1.statementOf_line (h d hd)) _ hfaces hpoint

/-- Declarations that are full of words with a meaning of their own. -/
def contextualDeclarations : List (DeclarationSpelling × (Import ⊕ Export)) :=
  let long : DeclarationSpelling := ⟨.single, false, false, false, true, "from", by decide, false⟩
  let brief : DeclarationSpelling := ⟨.double, true, true, true, false, "as", by decide, true⟩
  [(long, .inl ⟨.names [⟨"as", "as"⟩, ⟨"it's", "default"⟩], "./a.js"⟩),
    (brief, .inl ⟨.names [⟨"as", "as"⟩, ⟨"from", "as"⟩], "./b\\.js"⟩),
    (brief, .inl ⟨.names [], ""⟩),
    (long, .inl ⟨.defaultExport "from", "from"⟩),
    (brief, .inl ⟨.namespaceObject "as", "as"⟩),
    (long, .inl ⟨.nothing, "./c.js"⟩),
    (long, .inr (.named "a\nb")),
    (brief, .inr (.named "from")),
    (long, .inr .defaultValue),
    ({ brief with short := false }, .inr .defaultValue)]

/-- They are read back. -/
theorem read_declarationText_of_contextual :
    (∀ d ∈ contextualDeclarations, IsWritable d.2) ∧
      declarationText contextualDeclarations = Text.joinLines ([
        "import \x7b 'as' as as, 'it\\'s' as default \x7d from './a.js';",
        "import \x7b as, from as as, \x7d from \"./b\\\\.js\"",
        "import \x7b \x7d from \"\"",
        "import from from 'from';",
        "import * as as from \"as\"",
        "import './c.js';",
        "export \x7b from as 'a\\nb' \x7d;",
        "export \x7b from, \x7d",
        "export default 'from';",
        "export \x7b as as default, \x7d"].map String.toList) ∧
      ∃ found, Interface.read (declarationText contextualDeclarations) = .ok found ∧
        found.imports = [⟨.names [⟨"as", "as"⟩, ⟨"it's", "default"⟩], "./a.js"⟩,
          ⟨.names [⟨"as", "as"⟩, ⟨"from", "as"⟩], "./b\\.js"⟩, ⟨.names [], ""⟩,
          ⟨.defaultExport "from", "from"⟩, ⟨.namespaceObject "as", "as"⟩, ⟨.nothing, "./c.js"⟩] ∧
        found.exports = [.named "a\nb", .named "from", .defaultValue, .defaultValue] := by
  have hwritable : ∀ d ∈ contextualDeclarations, IsWritable d.2 := by decide
  exact ⟨hwritable, by decide +kernel, read_declarationText contextualDeclarations hwritable⟩

end ScriptBundle
