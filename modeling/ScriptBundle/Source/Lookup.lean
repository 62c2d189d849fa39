import ScriptBundle.BuildError
import ScriptBundle.FileTree.Walk
import ScriptBundle.Path.Normal
import ScriptBundle.Source.Specifier

/-!
# Looking Up Specifiers

Which file an import means.

## Main definitions

* `SourceRoot`: the directory below which modules lie, and their extension;
* `SourceRoot.relative`: how a file is called in messages and in the document;
* `SourceRoot.candidate?`: the path that a specifier leads to;
* `SourceRoot.lookup`: the file at that path.

## Main statements

* `SourceRoot.candidate?_eq_none`: external specifiers, and no others, lead nowhere.
-/

namespace ScriptBundle

/-- A **source root** with what is needed to follow specifiers in it. -/
structure SourceRoot where
  /-- The absolute path of the root, without links. -/
  path : Path
  extension : Text
  deriving DecidableEq, Repr

namespace SourceRoot

/-- A path below the root without the root, and any other path in plain form. -/
def relative (root : SourceRoot) (p : Path) : String :=
  match p.below? root.path with
  | some steps => String.ofList (Path.plainText steps)
  | none => p.display

/-- The extensions with which a specifier is complete, beside the one of the root. -/
def scriptExtensions : List Text := ["js".toList, "mjs".toList, "cjs".toList]

/-- The path that a specifier leads to from an importing module. Whether a file is there is
another question. External specifiers lead nowhere. -/
def candidate? (root : SourceRoot) (specifier : Text) (importer : Path) : Option Path :=
  let complete (p : Path) : Path := (p.withExtension root.extension scriptExtensions).normalize
  match SpecifierKind.of specifier with
  | .relative => some (complete ((importer.parent?.getD root.path).join ⟨specifier⟩))
  | .rooted => some (complete (root.path.join ⟨specifier.dropWhile (· == '/')⟩))
  | .external => none

/-- The file that a specifier means, without links. A specifier that is not external must mean
one. -/
def lookup (root : SourceRoot) (t : FileTree) (specifier : String) (importer : Path) :
    Except BuildError (Option Path) :=
  match root.candidate? specifier.toList importer with
  | none => .ok none
  | some candidate =>
    match t.isFile candidate, t.canonical candidate with
    | true, .ok target => .ok (some target)
    | _, _ => .error (.resolution specifier (root.relative importer))

/-- External specifiers, and no others, lead nowhere. -/
theorem candidate?_eq_none {root : SourceRoot} {specifier : Text} {importer : Path} :
    root.candidate? specifier importer = none ↔ SpecifierKind.of specifier = .external := by
  unfold candidate?
  cases SpecifierKind.of specifier <;> simp

end SourceRoot

end ScriptBundle
