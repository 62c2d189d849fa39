import ScriptBundle.Proofs.Module.Bare
import ScriptBundle.Proofs.Source.Loading
import ScriptBundle.Proofs.Token.Bounded
import ScriptBundle.Proofs.Token.Unbroken

/-!
# Declarations of the Same Lines

A module is loaded from the text of its file, and its body is made from that text with line feeds as
line ends. Both readings find the same declarations unless a literal is broken by an escaped line
end.

## Main definitions

* `Interface.bare`: an interface whose edits have no place.

## Main statements

* `interfaceFrom_bare`: what is declared does not depend on the characters and places of tokens;
* `read_withLineFeeds`: the line ends of a text do not matter to its declarations;
* `ModuleRecord.Describes.body`: the body of a loaded module is made from what was declared on
  loading.
-/

namespace ScriptBundle

/-- An interface whose edits have no place. -/
def Interface.bare (found : Interface) : Interface :=
  ⟨found.imports, found.exports, found.edits.map fun e => ⟨⟨0, 0⟩, e.replacement⟩⟩

@[simp] theorem Interface.append_bare (a b : Interface) : (a ++ b).bare = a.bare ++ b.bare := by
  simp only [Interface.bare, Interface.append_edits, List.map_append]
  rfl

/-! ### Parts of statements -/

theorem moduleSpecifier_bare (c : Cursor) : moduleSpecifier c.bare =
    bareResult (Advance.bare fun specifier => (specifier.1, 0)) (moduleSpecifier c) := by
  rw [moduleSpecifier, moduleSpecifier, c.bump_bare]
  cases c.bump with
  | none => exact c.fail_bare _ _
  | some a =>
    simp only [Option.map_some, Advance.bare_kind]
    split
    · rfl
    · exact c.fail_bare _ _
    · exact c.fail_bare _ _

theorem statementEnd_bare (c : Cursor) (stop : Nat) :
    statementEnd c.bare 0 = (0, (statementEnd c stop).2.bare) := by
  rw [statementEnd, statementEnd, c.eat_bare fun _ => rfl]
  cases c.eat _ <;> rfl

/-- What is left of a statement up to its end. -/
theorem removal_statementEnd_bare (start stop : Nat) (c : Cursor) :
    let finish := statementEnd c stop
    removal 0 (statementEnd c.bare 0).1 (statementEnd c.bare 0).2 =
      ⟨⟨0, 0⟩, (removal start finish.1 finish.2).replacement⟩ := by
  intro finish
  rw [statementEnd_bare c stop, removal, removal, finish.2.atContinuation_bare]

theorem listName_bare (c : Cursor) :
    listName c.bare = bareResult (Advance.bare id) (listName c) := by
  rw [listName, listName, c.bump_bare]
  cases c.bump with
  | none => exact c.fail_bare _ _
  | some a =>
    simp only [Option.map_some, Advance.bare_kind]
    split
    · rfl
    · rfl
    · exact c.fail_bare _ _

theorem listEntry_bare (c : Cursor) :
    listEntry c.bare = bareResult (Advance.bare id) (listEntry c) := by
  rw [listEntry, listEntry, listName_bare]
  cases listName c with
  | error e => rfl
  | ok name =>
    have hword := name.cursor.eatName_bare "as"
    simp only [bareResult_ok, Advance.bare_cursor, hword]
    cases name.cursor.eatName "as" with
    | none => rfl
    | some a => exact map_bareResult (listName_bare a.cursor) fun _ => rfl

theorem bracedList_bare (c : Cursor) :
    bracedList c.bare = bareResult (Advance.bare id) (bracedList c) := by
  rw [bracedList, bracedList, c.eatPunctuator_bare]
  cases c.eatPunctuator '}' with
  | some a => rfl
  | none =>
    rw [listEntry_bare]
    cases listEntry c with
    | error e => rfl
    | ok entry =>
      have hcomma := entry.cursor.eatPunctuator_bare ','
      have hclosing := entry.cursor.eatPunctuator_bare '}'
      have := entry.shorter
      simp only [Option.map_none, bareResult_ok, Advance.bare_cursor, hcomma, hclosing]
      cases entry.cursor.eatPunctuator ',' with
      | some comma =>
        have := comma.shorter
        exact map_bareResult (bracedList_bare comma.cursor) fun _ => rfl
      | none =>
        cases entry.cursor.eatPunctuator '}' with
        | some a => rfl
        | none => exact entry.cursor.fail_bare (Advance.bare id) _
termination_by c.rest.length

theorem expectName_bare (c : Cursor) (role : NameRole) :
    expectName c.bare role = bareResult (Advance.bare id) (expectName c role) := by
  rw [expectName, expectName, c.bump_bare]
  cases c.bump with
  | none => exact c.fail_bare _ _
  | some a =>
    simp only [Option.map_some, Advance.bare_kind]
    split
    · rfl
    · exact c.fail_bare _ _

/-! ### Imports -/

theorem namedClause_bare (c : Cursor) :
    namedClause c.bare = bareResult (Advance.bare id) (namedClause c) := by
  rw [namedClause, namedClause, c.eatPunctuator_bare, c.eatPunctuator_bare]
  cases c.eatPunctuator '*' with
  | some star =>
    have hword := star.cursor.eatName_bare "as"
    simp only [Option.map_some, Advance.bare_cursor, hword]
    cases star.cursor.eatName "as" with
    | none => exact star.cursor.fail_bare (Advance.bare id) _
    | some a => exact map_bareResult (expectName_bare a.cursor _) fun _ => rfl
  | none =>
    cases c.eatPunctuator '{' with
    | none => exact c.fail_bare _ _
    | some brace => exact map_bareResult (bracedList_bare brace.cursor) fun _ => rfl

theorem importClauses_bare (c : Cursor) :
    importClauses c.bare = bareResult (Advance.bare id) (importClauses c) := by
  have hpeek : c.bare.peek.bind (·.kind.name?) = c.peek.bind (·.kind.name?) := by
    rw [c.peek_bare, Option.bind_map]
    rfl
  rw [importClauses, importClauses, hpeek]
  cases c.peek.bind (·.kind.name?) with
  | none => exact map_bareResult (namedClause_bare c) fun _ => rfl
  | some _ =>
    rw [expectName_bare]
    cases expectName c .defaultImport with
    | error e => rfl
    | ok name =>
      have hcomma := name.cursor.eatPunctuator_bare ','
      simp only [bareResult_ok, Advance.bare_cursor, hcomma]
      cases name.cursor.eatPunctuator ',' with
      | none => rfl
      | some comma => exact map_bareResult (namedClause_bare comma.cursor) fun _ => rfl

theorem importHead_bare (c : Cursor) : importHead c.bare =
    bareResult (fun found => ⟨(found.1.1, found.1.2.bare), by
      simpa [Cursor.bare] using found.2⟩) (importHead c) := by
  have hpeek : c.bare.peek.any (isQuotedLike ·.kind) = c.peek.any (isQuotedLike ·.kind) := by
    rw [c.peek_bare]
    exact Cursor.any_bare (fun _ => rfl) c.peek
  rw [importHead, importHead, hpeek, importClauses_bare]
  split
  · rfl
  · cases importClauses c with
    | error e => rfl
    | ok clauses =>
      have hword := clauses.cursor.eatName_bare "from"
      simp only [bareResult_ok, Advance.bare_cursor, hword]
      cases clauses.cursor.eatName "from" with
      | none => exact clauses.cursor.fail_bare _ _
      | some a => rfl

theorem importStatement_bare (c : Cursor) : importStatement c.bare =
    bareResult (Option.map (Advance.bare Interface.bare)) (importStatement c) := by
  rw [importStatement, importStatement, c.bump_bare]
  cases c.bump with
  | none => rfl
  | some keyword =>
    have hcall := keyword.cursor.atPunctuator_bare '('
    have hmember := keyword.cursor.atPunctuator_bare '.'
    simp only [Option.map_some, Advance.bare_cursor, hcall, hmember]
    split
    · rfl
    · have hhead := importHead_bare keyword.cursor
      rw [hhead]
      cases importHead keyword.cursor with
      | error e => rfl
      | ok found =>
        obtain ⟨⟨clauses, front⟩, hfront⟩ := found
        refine map_bareResult (moduleSpecifier_bare front) fun specifier => ?_
        have hremoval := removal_statementEnd_bare keyword.value.start specifier.value.2
          specifier.cursor
        have hfinish := statementEnd_bare specifier.cursor specifier.value.2
        refine congrArg some (Advance.eq_of_cursor ?_ (congrArg Prod.snd hfinish))
        exact congrArg
          (fun edit => (⟨clauses.map (⟨·, specifier.value.1⟩), [], [edit]⟩ : Interface))
          hremoval

/-! ### Exports -/

theorem functionName_bare (c : Cursor) :
    functionName c.bare = bareResult (Advance.bare id) (functionName c) := by
  rw [functionName, functionName, c.eatPunctuator_bare]
  cases c.eatPunctuator '*' with
  | some a => exact map_bareResult (expectName_bare a.cursor _) fun _ => rfl
  | none => exact expectName_bare c _

theorem exportList_bare (c : Cursor) (start : Nat) :
    exportList c.bare 0 = bareResult (Advance.bare Interface.bare) (exportList c start) := by
  rw [exportList, exportList, bracedList_bare]
  cases bracedList c with
  | error e => rfl
  | ok list =>
    have hword := list.cursor.atName_bare "from"
    simp only [bareResult_ok, Advance.bare_cursor, hword]
    split
    · rfl
    · have hstop : (list.cursor.bare.previous.map Token.stop).getD 0 = 0 := by
        rw [Cursor.bare]
        cases list.cursor.previous <;> rfl
      simp only [hstop]
      refine congrArg Except.ok (Advance.eq_of_cursor ?_ ?_)
      · exact congrArg (fun edit => (⟨[], list.value.map (Export.ofName ·.2), [edit]⟩ : Interface))
          (removal_statementEnd_bare start _ list.cursor)
      · exact congrArg Prod.snd (statementEnd_bare list.cursor _)

theorem nameFollows_bare (c : Cursor) (n : Nat) : nameFollows c.bare n = nameFollows c n := by
  simp only [nameFollows, c.peekNth_bare]
  rw [Cursor.any_bare fun _ => rfl, Cursor.any_bare fun _ => rfl]

theorem defaultForm_bare (c : Cursor) : defaultForm c.bare = defaultForm c := by
  have hname : (c.bare.peekNth 1).bind (·.kind.name?) = (c.peekNth 1).bind (·.kind.name?) := by
    rw [c.peekNth_bare, Option.bind_map]
    rfl
  rw [defaultForm, defaultForm, hname, c.peekNth_bare, Cursor.any_bare fun _ => rfl]
  simp only [c.atName_bare, nameFollows_bare]

theorem defaultReplacement_bare (c : Cursor) :
    defaultReplacement c.bare = defaultReplacement c := by
  rw [defaultReplacement, defaultReplacement, c.atPunctuator_bare, c.atContinuation_bare,
    defaultForm_bare]

theorem defaultExport_bare (c : Cursor) (start : Nat) :
    defaultExport c.bare 0 = bareResult Interface.bare (defaultExport c start) := by
  rw [defaultExport, defaultExport, c.peek_bare, defaultReplacement_bare]
  cases c.peek <;> rfl

theorem exportedNames_bare (word : String) (c : Cursor) (start : Nat) :
    exportedNames word c.bare 0 = bareResult (Advance.bare id) (exportedNames word c start) := by
  rw [exportedNames, exportedNames, c.eatName_bare, functionName_bare, expectName_bare,
    declaratorNames_bare]
  split
  · exact map_bareResult rfl fun _ => rfl
  · split
    · cases c.eatName "function" with
      | none => exact c.fail_bare _ _
      | some f => exact map_bareResult (functionName_bare f.cursor) fun _ => rfl
    · split
      · exact map_bareResult rfl fun _ => rfl
      · split <;> rfl

theorem exportStatement_bare (c : Cursor) : exportStatement c.bare =
    bareResult (Option.map (Advance.bare Interface.bare)) (exportStatement c) := by
  rw [exportStatement, exportStatement, c.bump_bare]
  cases c.bump with
  | none => rfl
  | some keyword =>
    have hnext := keyword.cursor.bump_bare
    simp only [Option.map_some, Advance.bare_cursor, hnext]
    cases keyword.cursor.bump with
    | none => rfl
    | some next =>
      simp only [Option.map_some, Advance.bare_kind]
      split
      · rfl
      · exact map_bareResult (exportList_bare next.cursor _) fun _ => rfl
      · split
        · exact map_bareResult (defaultExport_bare next.cursor _) fun _ => rfl
        · exact map_bareResult (exportedNames_bare _ next.cursor _) fun _ => rfl
      · rfl

/-! ### Whole modules -/

theorem moduleStatement_bare (depth : Nat) (c : Cursor) : moduleStatement depth c.bare =
    bareResult (Option.map (Advance.bare Interface.bare)) (moduleStatement depth c) := by
  have hmember : isMember c.bare.previous = isMember c.previous := Cursor.any_bare (fun _ => rfl) _
  rw [moduleStatement, moduleStatement, hmember, c.atName_bare, c.atName_bare,
    importStatement_bare, exportStatement_bare]
  split
  · split
    · rfl
    · split <;> rfl
  · rfl

/-- What tokens declare does not depend on their characters and places. -/
theorem interfaceFrom_bare (depth : Nat) (c : Cursor) :
    interfaceFrom depth c.bare = bareResult Interface.bare (interfaceFrom depth c) := by
  rw [interfaceFrom, interfaceFrom, moduleStatement_bare]
  cases moduleStatement depth c with
  | error e => rfl
  | ok statement? =>
    cases statement? with
    | some statement =>
      have := statement.shorter
      exact map_bareResult (interfaceFrom_bare depth statement.cursor) fun _ =>
        (Interface.append_bare _ _).symm
    | none =>
      simp only [bareResult_ok, Option.map_none, c.bump_bare]
      cases c.bump with
      | none => rfl
      | some a =>
        have := a.shorter
        exact interfaceFrom_bare _ a.cursor
termination_by c.rest.length

/-! ### Line ends -/

variable {source : Text}

/-- A text whose literals are not broken is read like its lines. -/
theorem interfaceRead_bare (hwhole : Unbroken .initial (afterHashbang source)) :
    bareResult Interface.bare (Interface.read source) =
      bareResult Interface.bare (Interface.read (withLineFeeds source)) := by
  have hbare : (Cursor.ofSource (withLineFeeds source)).bare = (Cursor.ofSource source).bare := by
    have hreading := congrArg
      (List.map fun reading : TokenKind × Bool => (⟨⟨[], [], reading.1, reading.2⟩, 0⟩ : Token))
      (tokenize_withLineFeeds hwhole)
    rw [List.map_map, List.map_map] at hreading
    exact congrArg (Cursor.mk none) hreading
  rw [Interface.read, Interface.read, ← interfaceFrom_bare, ← interfaceFrom_bare, hbare]

/-- **Loading and emission read the same declarations** of a source text if none of its literals is
broken by an escaped line end: as it is and with line feeds as line ends, it has the same fault or
else the same imports and the same exports. -/
theorem read_withLineFeeds (hwhole : Unbroken .initial (afterHashbang source)) :
    (∃ e e', Interface.read source = .error e ∧
        Interface.read (withLineFeeds source) = .error e' ∧ e'.fault = e.fault) ∨
      ∃ found found', Interface.read source = .ok found ∧
        Interface.read (withLineFeeds source) = .ok found' ∧
        found'.imports = found.imports ∧ found'.exports = found.exports := by
  refine (eq_of_bareResult (interfaceRead_bare hwhole)).imp_right ?_
  rintro ⟨found, found', hread, hread', hbare⟩
  have himports := congrArg Interface.imports hbare
  have hexports := congrArg Interface.exports hbare
  exact ⟨found, found', hread, hread', himports, hexports⟩

/-- A module with lines of both kinds, of which one goes on behind its end. -/
def returningSource : Text := "import './t.js'\r\nexport var a = 'b\\\nc'\r\n".toList

/-- Its declarations are the same with line feeds alone. -/
theorem read_withLineFeeds_of_returning :
    Unbroken .initial (afterHashbang returningSource) ∧
      withLineFeeds returningSource = "import './t.js'\nexport var a = 'b\\\nc'\n".toList ∧
      ∃ found, Interface.read (withLineFeeds returningSource) = .ok found ∧
        found.imports = [⟨.nothing, "./t.js"⟩] ∧ found.exports = [.named "a"] := by
  have hwhole : Unbroken .initial (afterHashbang returningSource) :=
    unbroken_of_not_infix (by decide +kernel) .initial
  have hread : Interface.read returningSource = .ok ⟨[⟨.nothing, "./t.js"⟩], [.named "a"],
      [⟨⟨0, 15⟩, .nothing⟩, ⟨⟨17, 24⟩, .nothing⟩]⟩ := by
    simp only [Interface.read, Cursor.ofSource, tokenize_eq_upTo]
    cbv
  refine ⟨hwhole, by cbv, ?_⟩
  obtain ⟨e, -, herror, -⟩ | ⟨found, found', hfound, hfound', himports, hexports⟩ :=
    read_withLineFeeds hwhole
  · rw [hread] at herror
    cases herror
  · obtain rfl := Except.ok.inj (hread.symm.trans hfound)
    exact ⟨found', hfound', himports, hexports⟩

/-- What is loaded can be emitted: the body of a module is made from a text that declares what the
record says. -/
theorem ModuleRecord.Describes.body {record : ModuleRecord} {root : SourceRoot} {t : FileTree}
    (h : record.Describes root t) (hwhole : Unbroken .initial (afterHashbang record.content)) :
    ∃ found body, Interface.read (withLineFeeds record.content) = .ok found ∧
      found.imports = record.imports ∧ found.exports = record.exports ∧
      moduleBody record.content = .ok body := by
  obtain ⟨edits, hload⟩ := h.interface
  obtain ⟨e, -, herror, -⟩ | ⟨loaded, found, hloaded, hread, hbare⟩ :=
    eq_of_bareResult (interfaceRead_bare hwhole)
  · rw [hload] at herror
    cases herror
  · obtain rfl := Except.ok.inj (hload.symm.trans hloaded)
    have himports := congrArg Interface.imports hbare
    have hexports := congrArg Interface.exports hbare
    obtain ⟨body, hbody⟩ : ∃ body, moduleBody record.content = .ok body := by
      rw [moduleBody, strip, hread]
      exact ⟨_, rfl⟩
    exact ⟨found, body, hread, himports, hexports, hbody⟩

end ScriptBundle
