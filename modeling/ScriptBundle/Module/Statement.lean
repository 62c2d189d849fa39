import ScriptBundle.Module.Interface
import ScriptBundle.Module.Pattern

/-!
# Module Statements

Finds the import and export statements of a source text. Only statements outside of all
brackets count, and the word `import` or `export` behind a point is the name of a member.

## Main definitions

* `importStatement`, `exportStatement`: one statement, from its keyword on;
* `Interface.read`: the interface of a source text.

## Main statements

* `interfaceFrom_nil`: without tokens nothing is declared.
-/

namespace ScriptBundle

/-! ### Parts of statements -/

/-- Passes the specifier of a module, a string. Gives its value and the offset where it ends. -/
def moduleSpecifier (c : Cursor) : Except SyntaxError (Advance c (String × Nat)) :=
  match c.bump with
  | none => c.fail .missingSpecifier
  | some a =>
    match a.value.kind with
    | .string value => .ok (a.map fun t => (value, t.stop))
    | .unterminated => c.fail .unterminatedSpecifier
    | _ => c.fail .missingSpecifier

/-- The end of a statement that ends at `stop`, or behind a semicolon on the same line. A
semicolon that starts the next line guards the statement behind it and is left there. -/
def statementEnd (c : Cursor) (stop : Nat) : Nat × Cursor :=
  match c.eat fun t => t.isPunctuator ';' && !t.newlineBefore with
  | some a => (a.value.stop, a.cursor)
  | none => (stop, c)

theorem statementEnd_length (c : Cursor) (stop : Nat) :
    (statementEnd c stop).2.rest.length ≤ c.rest.length := by
  unfold statementEnd
  split
  · next a _ => exact Nat.le_of_lt a.shorter
  · exact Nat.le_refl _

/-- Takes a whole statement out. A semicolon stays behind if the next token would go on with the
line before the statement. -/
def removal (start stop : Nat) (next : Cursor) : Edit :=
  ⟨⟨start, stop⟩, if next.atContinuation then .semicolon else .nothing⟩

/-- Passes a name in a braced list, which may be written as a string. -/
def listName (c : Cursor) : Except SyntaxError (Advance c String) :=
  match c.bump with
  | none => c.fail .missingListName
  | some a =>
    match a.value.kind with
    | .identifier name => .ok (a.map fun _ => name)
    | .string value => .ok (a.map fun _ => value)
    | _ => c.fail .missingListName

/-- Passes an entry of a braced list: a name, and the name that it gets behind the word `as`. -/
def listEntry (c : Cursor) : Except SyntaxError (Advance c (String × String)) :=
  match listName c with
  | .error e => .error e
  | .ok name =>
    match name.cursor.eatName "as" with
    | none => .ok (name.map fun n => (n, n))
    | some a =>
      (listName a.cursor).map fun bound => name.trans (a.trans (bound.map fun n => (name.value, n)))

/-- The entries in the rest of a braced list behind its opening brace or behind a comma. -/
def bracedList (c : Cursor) : Except SyntaxError (Advance c (List (String × String))) :=
  match c.eatPunctuator '}' with
  | some a => .ok (a.map fun _ => [])
  | none =>
    match listEntry c with
    | .error e => .error e
    | .ok entry =>
      have := entry.shorter
      match entry.cursor.eatPunctuator ',' with
      | some comma =>
        have := comma.shorter
        (bracedList comma.cursor).map fun others =>
          (entry.trans (comma.trans others)).map (entry.value :: ·)
      | none =>
        match entry.cursor.eatPunctuator '}' with
        | some a => .ok ((entry.trans a).map fun _ => [entry.value])
        | none => entry.cursor.fail .missingListSeparator
termination_by c.rest.length

/-- Passes a name of the given role. -/
def expectName (c : Cursor) (role : NameRole) : Except SyntaxError (Advance c String) :=
  match c.bump with
  | none => c.fail (.missingName role)
  | some a =>
    match a.value.kind.name? with
    | some name => .ok (a.map fun _ => name)
    | none => c.fail (.missingName role)

/-! ### Imports -/

/-- Passes the part of an import clause that may follow a default binding: a namespace binding
or a braced list. -/
def namedClause (c : Cursor) : Except SyntaxError (Advance c ImportClause) :=
  match c.eatPunctuator '*' with
  | some star =>
    match star.cursor.eatName "as" with
    | none => star.cursor.fail .missingAs
    | some a =>
      (expectName a.cursor .namespaceImport).map fun name =>
        star.trans (a.trans (name.map ImportClause.namespaceObject))
  | none =>
    match c.eatPunctuator '{' with
    | none => c.fail .unknownImportClause
    | some brace =>
      (bracedList brace.cursor).map fun list =>
        (brace.trans list).map fun entries =>
          .names (entries.map fun (imported, bound) => ⟨imported, bound⟩)

/-- Passes an import clause. A default binding and another clause behind it count as two. -/
def importClauses (c : Cursor) : Except SyntaxError (Advance c (List ImportClause)) :=
  match c.peek.bind (·.kind.name?) with
  | none => (namedClause c).map fun clause => clause.map fun other => [other]
  | some _ =>
    match expectName c .defaultImport with
    | .error e => .error e
    | .ok name =>
      match name.cursor.eatPunctuator ',' with
      | none => .ok (name.map fun n => [.defaultExport n])
      | some comma =>
        (namedClause comma.cursor).map fun clause =>
          name.trans (comma.trans (clause.map fun other => [.defaultExport name.value, other]))

/-- Whether a token is a quoted literal, closed or not. -/
def isQuotedLike : TokenKind → Bool
  | .string _ => true
  | .unterminated => true
  | _ => false

/-- Passes the clauses of an import and the word `from`, or nothing in front of a bare
specifier. -/
def importHead (c : Cursor) : Except SyntaxError { r : List ImportClause × Cursor //
    r.2.rest.length ≤ c.rest.length } :=
  if c.peek.any (isQuotedLike ·.kind) then .ok ⟨([.nothing], c), Nat.le_refl _⟩
  else
    match importClauses c with
    | .error e => .error e
    | .ok clauses =>
      match clauses.cursor.eatName "from" with
      | none => clauses.cursor.fail .missingFrom
      | some a => .ok ⟨(clauses.value, a.cursor), Nat.le_of_lt (clauses.trans a).shorter⟩

/-- Passes an import statement, whose keyword is the next token. A dynamic import or a use of
the module's own properties is an expression, of which only the keyword is passed. -/
def importStatement (c : Cursor) : Except SyntaxError (Option (Advance c Interface)) :=
  match c.bump with
  | none => .ok none
  | some keyword =>
    if keyword.cursor.atPunctuator '(' || keyword.cursor.atPunctuator '.' then
      .ok (some (keyword.map fun _ => .empty))
    else
      match importHead keyword.cursor with
      | .error e => .error e
      | .ok ⟨(clauses, front), hfront⟩ =>
        (moduleSpecifier front).map fun specifier =>
          let (source, stop) := specifier.value
          let finish := statementEnd specifier.cursor stop
          some ⟨{ imports := clauses.map (⟨·, source⟩)
                  edits := [removal keyword.value.start finish.1 finish.2] },
            finish.2,
            Nat.lt_of_le_of_lt (statementEnd_length _ _)
              (Nat.lt_trans (Nat.lt_of_lt_of_le specifier.shorter hfront) keyword.shorter)⟩

/-! ### Exports -/

/-- Takes the keyword `export` out and leaves the declaration behind it in place. -/
def keywordRemoval (start next : Nat) : Edit := ⟨⟨start, next⟩, .nothing⟩

/-- The interface of an exported declaration. -/
def declared (start next : Nat) (names : List String) : Interface :=
  { exports := names.map Export.named, edits := [keywordRemoval start next] }

/-- Passes an exported function from the word `function` on: a star, if there is one, and the
name. -/
def functionName (c : Cursor) : Except SyntaxError (Advance c String) :=
  match c.eatPunctuator '*' with
  | some a => (expectName a.cursor .functionName).map a.trans
  | none => expectName c .functionName

/-- Passes an export list behind its opening brace. The statement starts at `start`. -/
def exportList (c : Cursor) (start : Nat) : Except SyntaxError (Advance c Interface) :=
  match bracedList c with
  | .error e => .error e
  | .ok list =>
    if list.cursor.atName "from" then .error ⟨.reexportOfNames, start⟩
    else
      let stop := (list.cursor.previous.map Token.stop).getD start
      let finish := statementEnd list.cursor stop
      .ok ((list.map fun entries =>
        { exports := entries.map fun entry => Export.ofName entry.2
          edits := [removal start finish.1 finish.2] }).moveTo finish.2
            (statementEnd_length _ _))

/-- Whether a name follows the word `function` that stands `n` places ahead, with or without a
star between them. -/
def nameFollows (c : Cursor) (n : Nat) : Bool :=
  let next := if (c.peekNth (n + 1)).any (·.isPunctuator '*') then n + 2 else n + 1
  (c.peekNth next).any (·.kind.name?.isSome)

/-- What kind of value stands behind `export default`. -/
inductive DefaultForm where
  /-- A function or class with a name. -/
  | namedDeclaration
  /-- A function or class without one, which cannot stand alone as a statement. -/
  | anonymousDeclaration
  | expression
  deriving DecidableEq, Repr

/-- The form of the value that starts at the cursor. -/
def defaultForm (c : Cursor) : DefaultForm :=
  if c.atName "function" then
    if nameFollows c 0 then .namedDeclaration else .anonymousDeclaration
  else if c.atName "async" && (c.peekNth 1).any (·.isName "function") then
    if nameFollows c 1 then .namedDeclaration else .anonymousDeclaration
  else if c.atName "class" then
    if ((c.peekNth 1).bind (·.kind.name?)).any (· != "extends") then .namedDeclaration
    else .anonymousDeclaration
  else .expression

/-- What takes the place of `export default` in front of the value at the cursor. A value that
could not start a statement becomes an operand, and one that would go on with the line before
is kept apart from it. -/
def defaultReplacement (c : Cursor) : Replacement :=
  if c.atPunctuator '{' || defaultForm c == .anonymousDeclaration then .voidOperator
  else if c.atContinuation then .semicolon
  else .nothing

/-- Reads the statement behind `export default`. The value itself is not passed. -/
def defaultExport (c : Cursor) (start : Nat) : Except SyntaxError Interface :=
  match c.peek with
  | none => .error ⟨.missingDefaultValue, start⟩
  | some value =>
    .ok { exports := [.defaultValue]
          edits := [⟨⟨start, value.start⟩, defaultReplacement c⟩] }

/-- Passes an exported declaration from its first word on. -/
def exportedNames (word : String) (a : Cursor) (start : Nat) :
    Except SyntaxError (Advance a (List String)) :=
  if word = "function" then (functionName a).map fun name => name.map fun n => [n]
  else if word = "async" then
    match a.eatName "function" with
    | none => a.fail .asyncWithoutFunction
    | some f => (functionName f.cursor).map fun name => (f.trans name).map fun n => [n]
  else if word = "class" then
    (expectName a .className).map fun name => name.map fun n => [n]
  else if word = "const" ∨ word = "let" ∨ word = "var" then declaratorNames a
  else .error ⟨.unknownExport, start⟩

/-- Passes an export statement, whose keyword is the next token. Of an exported declaration no
more is passed than its names need. -/
def exportStatement (c : Cursor) : Except SyntaxError (Option (Advance c Interface)) :=
  match c.bump with
  | none => .ok none
  | some keyword =>
    let start := keyword.value.start
    match keyword.cursor.bump with
    | none => .error ⟨.danglingExport, start⟩
    | some next =>
      match next.value.kind with
      | .punctuator '*' => .error ⟨.reexportOfAll, start⟩
      | .punctuator '{' =>
        (exportList next.cursor start).map fun list => some (keyword.trans (next.trans list))
      | .identifier word =>
        if word = "default" then
          (defaultExport next.cursor start).map fun found =>
            some ((keyword.trans next).map fun _ => found)
        else
          (exportedNames word next.cursor start).map fun names =>
            some ((keyword.trans (next.trans names)).map (declared start next.value.start))
      | _ => .error ⟨.unknownExport, start⟩

/-! ### Whole modules -/

/-- Whether a token is a name behind a point. -/
def isMember (previous : Option Token) : Bool := previous.any (·.isPunctuator '.')

/-- The statement that starts at the cursor, inside of `depth` brackets. There is none at any
other token and in front of the end. -/
def moduleStatement (depth : Nat) (c : Cursor) :
    Except SyntaxError (Option (Advance c Interface)) :=
  if depth = 0 ∧ isMember c.previous = false then
    if c.atName "import" then importStatement c
    else if c.atName "export" then exportStatement c
    else .ok none
  else .ok none

/-- The interface that the tokens from the cursor on declare, inside of `depth` brackets. A
closing bracket that was never opened counts for nothing. -/
def interfaceFrom (depth : Nat) (c : Cursor) : Except SyntaxError Interface :=
  match moduleStatement depth c with
  | .error e => .error e
  | .ok (some statement) =>
    have := statement.shorter
    (interfaceFrom depth statement.cursor).map (statement.value ++ ·)
  | .ok none =>
    match c.bump with
    | none => .ok .empty
    | some a =>
      have := a.shorter
      interfaceFrom (depthAfter depth a.value.kind) a.cursor
termination_by c.rest.length

/-- The **interface** of a source text. -/
def Interface.read (source : Text) : Except SyntaxError Interface :=
  interfaceFrom 0 (.ofSource source)

/-- Without tokens nothing is declared. -/
theorem interfaceFrom_nil (depth : Nat) (previous : Option Token) :
    interfaceFrom depth ⟨previous, []⟩ = .ok .empty := by
  rw [interfaceFrom]
  simp [moduleStatement, Cursor.atName, Cursor.peek, Cursor.bump]

end ScriptBundle
