import ScriptBundle.Module.Statement

/-!
# Stripped Sources

The source of a module without its module syntax. Imports are gone, and exported declarations
are left as plain ones.

## Main definitions

* `applyEdits`: a text with edits carried out;
* `strip`: a source text without module syntax.

## Main statements

* `applyEdits_nil`: without edits the text stays as it is.
-/

namespace ScriptBundle

/-- Carries out edits, in order of position, on the part of a source that starts at `offset`. -/
def applyEdits (offset : Nat) (rest : Text) : List Edit → Text
  | [] => rest
  | r :: others =>
    let ahead := Text.dropBytes (r.span.start - offset) rest
    Text.takeBytes (r.span.start - offset) rest ++ r.replacement.text ++
      applyEdits r.span.stop (Text.dropBytes (r.span.stop - r.span.start) ahead) others

/-- The source of a module without imports and without the word `export`. -/
def strip (source : Text) : Except SyntaxError Text :=
  (Interface.read source).map fun found => applyEdits 0 source found.edits

/-- Without edits a text stays as it is. -/
@[simp] theorem applyEdits_nil (offset : Nat) (rest : Text) :
    applyEdits offset rest [] = rest := rfl

end ScriptBundle
