import ScriptBundle.BuildContext
import ScriptBundle.BuildError
import ScriptBundle.Document.Body
import ScriptBundle.Document.Layout
import ScriptBundle.Metadata.Header
import ScriptBundle.Metadata.Placeholder
import ScriptBundle.Metadata.Reader
import ScriptBundle.Module.Record
import ScriptBundle.Report

/-!
# Documents

Puts modules together to one script: the header, and a function around the bodies of all
modules but the one that declares the metadata.

## Main definitions

* `DocumentStyle`: which module declares the metadata, and how far bodies are indented;
* `headerOf`: the header of a list of modules;
* `moduleParts`: the lines that a module contributes;
* `concatenate`: the document.
-/

namespace ScriptBundle

/-- The **style** of a document. -/
structure DocumentStyle where
  /-- The relative path of the module whose object becomes the header. -/
  metadataModule : String
  /-- The number of spaces in front of each line inside the function. -/
  indentWidth : Nat
  deriving DecidableEq, Repr

/-- The spaces of one level of indentation. -/
def DocumentStyle.indent (style : DocumentStyle) : Text := List.replicate style.indentWidth ' '

/-- The line that opens the function around the bodies. -/
def wrapperOpen : Text := "(function () \x7b".toList

/-- The line that closes and calls the function. -/
def wrapperClose : Text := "\x7d)();".toList

/-- The directive inside the function. -/
def strictDirective : Text := "'use strict';".toList

/-- Names the line of an error in the text of a module. -/
def placed (m : ModuleRecord) (e : SyntaxError) (fault : Nat → DocumentFault) : BuildError :=
  match e.line? m.content with
  | some line => .document (fault line)
  | none => .unplaced m.relativePath e

/-- The header of a list of modules. -/
def headerOf (style : DocumentStyle) (modules : List ModuleRecord) (context : BuildContext) :
    Report BuildError Text := do
  let some m := modules.find? (·.relativePath == style.metadataModule)
    | Report.fail (.document (.metadataMissing style.metadataModule))
  let reading := MetadataReading.ofSource m.content
  Report.warn reading.warnings
  let declared ← Report.ofExcept <| reading.result.mapError fun e =>
    placed m e (.metadataMalformed m.relativePath · e.fault)
  if declared.fields.isEmpty then
    Report.fail (.document (.metadataEmpty m.relativePath))
  let metadata := declared.substitute context.templateValues
  Report.warn metadata.unresolved
  match metadata.unsafeField? with
  | some key => Report.fail (.document (.metadataUnsafe key m.relativePath))
  | none => return metadata.header

/-- The parts that a module contributes to the document: an empty line, a comment that names it,
and its body, unless that is empty. -/
def moduleParts (style : DocumentStyle) (m : ModuleRecord) : Except BuildError (List Text) :=
  match moduleBody m.content with
  | .error e => .error (placed m e (.bodyMalformed m.relativePath · e.fault))
  | .ok body =>
    .ok ([[], style.indent ++ ['/', '/', ' '] ++ m.relativePath.toList] ++
      if body.isEmpty then [] else [indentBody style.indent body])

/-- The parts of several modules, up to the first error. -/
def allModuleParts (style : DocumentStyle) : List ModuleRecord → Except BuildError (List Text)
  | [] => .ok []
  | m :: rest =>
    match moduleParts style m with
    | .error e => .error e
    | .ok parts => (allModuleParts style rest).map (parts ++ ·)

/-- The modules that contribute code, which are all but the one that declares the metadata. -/
def emittedModules (style : DocumentStyle) (modules : List ModuleRecord) : List ModuleRecord :=
  modules.filter (·.relativePath != style.metadataModule)

/-- A document around a header and the parts of modules. -/
def documentText (style : DocumentStyle) (header : Text) (parts : List Text) : Text :=
  Text.joinLines ([header, [], wrapperOpen, style.indent ++ strictDirective] ++ parts ++
    [wrapperClose]) ++ ['\n']

/-- The **document** of modules that are in order of execution. A finished document must be accepted
as a script. -/
def concatenate (accepts : Text → Bool) (style : DocumentStyle) (modules : List ModuleRecord)
    (context : BuildContext) : Report BuildError Text := do
  let header ← headerOf style modules context
  let parts ← Report.ofExcept (allModuleParts style (emittedModules style modules))
  let document := documentText style header parts
  if accepts document then return document else Report.fail .invalidScript

end ScriptBundle
