import Mathlib.Logic.ExistsUnique
import ScriptBundle.Token.Basic

/-!
# Grammar of Module Syntax

The tokens that module syntax is made of, said without the readers that pass them: what an import
declaration, an export list, and the words in front of an exported declaration or default value look
like.

## Main definitions

* `IsListRest`: the rest of a braced list behind its opening brace;
* `IsImportHead`: what stands between the word `import` and the specifier;
* `OpensDeclaration`: what stands behind the word `export` of a declaration;
* `SyntaxForm.Matches`: whether tokens are module syntax of a form.

## Main statements

* `SyntaxForm.Matches.unique`: no tokens are of two forms.
-/

namespace ScriptBundle

/-! ### Braced lists -/

/-- Whether a token may be a name in a braced list, where a name may be written as a string. -/
def TokenKind.isListName : TokenKind → Bool
  | identifier _ => true
  | string _ => true
  | _ => false

/-- An **entry** of a braced list: a name, and the name that it gets behind the word `as`. -/
inductive IsListEntry : List TokenKind → Prop
  | plain {name : TokenKind} (h : name.isListName = true) : IsListEntry [name]
  | renamed {name bound : TokenKind} (h : name.isListName = true)
      (hbound : bound.isListName = true) : IsListEntry [name, .identifier "as", bound]

/-- The **rest of a braced list** behind its opening brace or behind a comma. -/
inductive IsListRest : List TokenKind → Prop
  | closed : IsListRest [.punctuator '}']
  | last {entry : List TokenKind} (h : IsListEntry entry) : IsListRest (entry ++ [.punctuator '}'])
  | more {entry rest : List TokenKind} (h : IsListEntry entry) (further : IsListRest rest) :
      IsListRest (entry ++ .punctuator ',' :: rest)

/-! ### Imports -/

/-- A **named clause** binds a namespace object or the names of a braced list. -/
inductive IsNamedClause : List TokenKind → Prop
  | namespaceObject (name : String) :
      IsNamedClause [.punctuator '*', .identifier "as", .identifier name]
  | names {list : List TokenKind} (h : IsListRest list) : IsNamedClause (.punctuator '{' :: list)

/-- An **import clause** may start with a default binding. -/
inductive IsImportClause : List TokenKind → Prop
  | named {clause : List TokenKind} (h : IsNamedClause clause) : IsImportClause clause
  | defaultExport (name : String) : IsImportClause [.identifier name]
  | both (name : String) {clause : List TokenKind} (h : IsNamedClause clause) :
      IsImportClause (.identifier name :: .punctuator ',' :: clause)

/-- What stands between the word `import` and the specifier. -/
inductive IsImportHead : List TokenKind → Prop
  | bare : IsImportHead []
  | clause {clause : List TokenKind} (h : IsImportClause clause) :
      IsImportHead (clause ++ [.identifier "from"])

/-! ### Exported declarations -/

/-- What stands behind the word `function` of an exported function. -/
inductive OpensFunction : List TokenKind → Prop
  | plain (name : String) (rest : List TokenKind) : OpensFunction (.identifier name :: rest)
  | generator (name : String) (rest : List TokenKind) :
      OpensFunction (.punctuator '*' :: .identifier name :: rest)

/-- Whether a pattern may start with a token. -/
def TokenKind.opensPattern : TokenKind → Bool
  | identifier _ => true
  | punctuator c => c == '{' || c == '['
  | _ => false

/-- What stands behind the word `export` of a **declaration**: the start of a function, of a class
or of variables. -/
inductive OpensDeclaration : List TokenKind → Prop
  | plainFunction {rest : List TokenKind} (h : OpensFunction rest) :
      OpensDeclaration (.identifier "function" :: rest)
  | asyncFunction {rest : List TokenKind} (h : OpensFunction rest) :
      OpensDeclaration (.identifier "async" :: .identifier "function" :: rest)
  | namedClass (name : String) (rest : List TokenKind) :
      OpensDeclaration (.identifier "class" :: .identifier name :: rest)
  | variables {word : String} (hword : word = "const" ∨ word = "let" ∨ word = "var")
      {first : TokenKind} (hfirst : first.opensPattern = true) (rest : List TokenKind) :
      OpensDeclaration (.identifier word :: first :: rest)

/-! ### Forms -/

/-- The **forms** of module syntax. -/
inductive SyntaxForm where
  | importDeclaration
  | exportList
  /-- The word `export` in front of a declaration. -/
  | exportKeyword
  /-- The words `export default` in front of a value. -/
  | exportDefault
  deriving DecidableEq, Repr

/-- Whether tokens are those of a statement, with a semicolon behind them or without one. -/
def IsStatement (statement tokens : List TokenKind) : Prop :=
  tokens = statement ∨ tokens = statement ++ [.punctuator ';']

/-- Whether tokens, in front of the tokens `behind`, are module syntax of the given form. -/
def SyntaxForm.Matches (form : SyntaxForm) (tokens behind : List TokenKind) : Prop :=
  match form with
  | importDeclaration => ∃ head specifier, IsImportHead head ∧
      IsStatement (.identifier "import" :: (head ++ [.string specifier])) tokens
  | exportList => ∃ list, IsListRest list ∧
      IsStatement (.identifier "export" :: .punctuator '{' :: list) tokens
  | exportKeyword => tokens = [.identifier "export"] ∧ OpensDeclaration behind
  | exportDefault => tokens = [.identifier "export", .identifier "default"] ∧ behind ≠ []

namespace SyntaxForm

/-- The only form that tokens may be of: their first two tell. -/
def ofTokens : List TokenKind → SyntaxForm
  | .identifier "import" :: _ => importDeclaration
  | _ :: .punctuator _ :: _ => exportList
  | [_] => exportKeyword
  | _ => exportDefault

variable {form other : SyntaxForm} {tokens behind : List TokenKind}

theorem Matches.eq_ofTokens (h : form.Matches tokens behind) : form = ofTokens tokens := by
  cases form with
  | importDeclaration =>
    obtain ⟨head, specifier, -, rfl | rfl⟩ := h
    · rfl
    · rfl
  | exportList =>
    obtain ⟨list, -, rfl | rfl⟩ := h
    · rfl
    · rfl
  | exportKeyword =>
    obtain ⟨rfl, -⟩ := h
    rfl
  | exportDefault =>
    obtain ⟨rfl, -⟩ := h
    rfl

/-- No tokens are of two forms. -/
theorem Matches.unique (h : form.Matches tokens behind) (h' : other.Matches tokens behind) :
    form = other :=
  h.eq_ofTokens.trans h'.eq_ofTokens.symm

end SyntaxForm

end ScriptBundle
