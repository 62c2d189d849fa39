import ScriptBundle.Text.Position

/-!
# Syntax Errors

What can be wrong with the module statements of a source text, or with the object that declares
a script's header fields.

## Main definitions

* `SyntaxFault`: the causes, each with its `message`;
* `SyntaxError`: a cause and the offset it is reported at.
-/

namespace ScriptBundle

/-- What a missing name would have named. -/
inductive NameRole where
  | defaultImport
  | namespaceImport
  | functionName
  | className
  deriving DecidableEq, Repr

/-- A name's role in words. -/
def NameRole.text : NameRole → String
  | defaultImport => "a default import binding"
  | namespaceImport => "a namespace binding"
  | functionName => "a function name"
  | className => "a class name"

/-- Why a source text is rejected. -/
inductive SyntaxFault where
  /-- A name is missing. -/
  | missingName (role : NameRole)
  | missingSpecifier
  | unterminatedSpecifier
  /-- An entry of a braced list is neither a name nor a string. -/
  | missingListName
  /-- A braced list goes on without a comma. -/
  | missingListSeparator
  | missingAs
  | missingFrom
  | unknownImportClause
  /-- Nothing follows the word `export`. -/
  | danglingExport
  | reexportOfAll
  | reexportOfNames
  | asyncWithoutFunction
  | unknownExport
  | missingDefaultValue
  /-- A declarator starts with neither a name nor a bracket. -/
  | missingPattern
  | unknownPatternKey
  /-- A key that binds no name of its own is not followed by a pattern. -/
  | missingPatternColon
  /-- A pattern goes on without a comma; it would be closed by `closing`. -/
  | missingPatternSeparator (closing : Char)
  /-- A value is exported, but no object. -/
  | metadataNotObject
  | metadataNotFound
  | metadataKey
  | metadataSubstitution
  | metadataValue
  | missingMetadataPunctuator (char : Char)
  deriving DecidableEq, Repr

/-- The words in which a fault is reported. -/
def SyntaxFault.message : SyntaxFault → String
  | missingName role => "expected " ++ role.text
  | missingSpecifier => "expected a module specifier string"
  | unterminatedSpecifier => "unterminated module specifier"
  | missingListName => "expected a binding name"
  | missingListSeparator => "expected `,` or `\x7d` in binding list"
  | missingAs => "expected `as` after `import *`"
  | missingFrom => "expected `from` after import clause"
  | unknownImportClause => "unrecognized import clause"
  | danglingExport => "dangling `export`"
  | reexportOfAll => "re-exports (`export * from`) are not supported"
  | reexportOfNames => "re-exports (`export \x7b ... \x7d from`) are not supported"
  | asyncWithoutFunction => "expected `function` after `export async`"
  | unknownExport => "unsupported export form"
  | missingDefaultValue => "missing value after `export default`"
  | missingPattern => "expected a binding name or pattern"
  | unknownPatternKey => "unsupported property in binding pattern"
  | missingPatternColon => "expected `:` after a quoted or computed key"
  | missingPatternSeparator closing =>
    "expected `,` or `" ++ String.singleton closing ++ "` in binding pattern"
  | metadataNotObject => "exported metadata must be an object literal"
  | metadataNotFound => "no exported metadata object found"
  | metadataKey => "metadata keys must be identifiers or string literals"
  | metadataSubstitution => "metadata templates cannot contain substitutions"
  | metadataValue => "metadata values must be strings or arrays of strings"
  | missingMetadataPunctuator char =>
    "expected `" ++ String.singleton char ++ "` in metadata object"

/-- A **syntax error** is a fault and the byte offset at which it was found. -/
structure SyntaxError where
  fault : SyntaxFault
  offset : Nat
  deriving DecidableEq, Repr

/-- The message of an error's fault. -/
def SyntaxError.message (e : SyntaxError) : String := e.fault.message

/-- The line of an error in a text, if its offset has a place there. -/
def SyntaxError.line? (e : SyntaxError) (source : Text) : Option Nat := source.line? e.offset

end ScriptBundle
