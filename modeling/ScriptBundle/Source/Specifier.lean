import ScriptBundle.Text.Basic

/-!
# Specifiers

How the text of an import names another module.

## Main definitions

* `SpecifierKind`: relative, rooted or external;
* `SpecifierKind.of`: the kind of a specifier.
-/

namespace ScriptBundle

/-- The **kind** of a specifier. -/
inductive SpecifierKind where
  /-- Starts from the directory of the importing module. -/
  | relative
  /-- Starts from the source root. -/
  | rooted
  /-- Names nothing in the source tree. -/
  | external
  deriving DecidableEq, Repr

/-- The kind of a specifier, by the characters it starts with. -/
def SpecifierKind.of (specifier : Text) : SpecifierKind :=
  match specifier with
  | '.' :: '/' :: _ => relative
  | '.' :: '.' :: '/' :: _ => relative
  | '/' :: _ => rooted
  | _ => external

/-- Whether a specifier of this kind is left as it is. -/
def SpecifierKind.isExternal : SpecifierKind → Bool
  | external => true
  | _ => false

/-- The name of a kind. -/
def SpecifierKind.text : SpecifierKind → String
  | relative => "relative"
  | rooted => "rooted"
  | external => "external"

end ScriptBundle
