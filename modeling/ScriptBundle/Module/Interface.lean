import ScriptBundle.Token.Basic

/-!
# Module Interfaces

What a module takes from other modules, what it offers to them, and the places in its source
that say so.

## Main definitions

* `Import`, `Export`: one declaration each;
* `Edit`: a place in the source and what stands there once the module is bundled;
* `Interface`: all of them in source order.
-/

namespace ScriptBundle

/-- One name in a braced import list: the name that the other module exports and the name that
it is bound to here. -/
structure ImportName where
  imported : String
  bound : String
  deriving DecidableEq, Repr

/-- What an import declaration binds. -/
inductive ImportClause where
  /-- The names of a braced list. -/
  | names (list : List ImportName)
  /-- The default export. -/
  | defaultExport (bound : String)
  /-- An object that holds every export. -/
  | namespaceObject (bound : String)
  /-- Nothing; the module is imported for what it does. -/
  | nothing
  deriving DecidableEq, Repr

/-- An **import** is a clause and the specifier of the module that it names. -/
structure Import where
  clause : ImportClause
  source : String
  deriving DecidableEq, Repr

/-- An **export** is a name that a module offers, or its default value. -/
inductive Export where
  | named (name : String)
  | defaultValue
  deriving DecidableEq, Repr

/-- What is left where module syntax has been taken out. -/
inductive Replacement where
  | nothing
  /-- A semicolon, so that two statements do not become one. -/
  | semicolon
  /-- The operator that makes an operand of a value which cannot start a statement. -/
  | voidOperator
  deriving DecidableEq, Repr

/-- An **edit** is a span of the source and what stands there in the bundle. -/
structure Edit where
  span : Span
  replacement : Replacement
  deriving DecidableEq, Repr

/-- An **interface** is the declarations of a module and the edits that take them out. -/
structure Interface where
  imports : List Import := []
  exports : List Export := []
  edits : List Edit := []
  deriving DecidableEq, Repr

/-! ### Imports and exports -/

/-- The names that a clause binds, in order. -/
def ImportClause.boundNames : ImportClause → List String
  | names list => list.map ImportName.bound
  | defaultExport bound => [bound]
  | namespaceObject bound => [bound]
  | nothing => []

/-- Whether a clause binds the default export. -/
def ImportClause.isDefault : ImportClause → Bool
  | defaultExport _ => true
  | _ => false

/-- The name under which an export is asked for. The default value answers to `default`. -/
def Export.name : Export → String
  | named name => name
  | defaultValue => "default"

/-- Whether an export is the default value. -/
def Export.isDefault : Export → Bool
  | named _ => false
  | defaultValue => true

/-- The export that a name in an export list stands for. -/
def Export.ofName (name : String) : Export :=
  if name = "default" then defaultValue else named name

/-- The characters of a replacement. -/
def Replacement.text : Replacement → Text
  | nothing => []
  | semicolon => [';']
  | voidOperator => ['v', 'o', 'i', 'd', ' ']

/-- The name of an export made from a name is that name. -/
@[simp] theorem Export.name_ofName (name : String) : (Export.ofName name).name = name := by
  unfold Export.ofName
  split
  · next h => exact h.symm
  · rfl

/-! ### Interfaces -/

namespace Interface

/-- An interface without declarations. -/
def empty : Interface := {}

/-- The declarations of one part of a source and then those of the part behind it. -/
protected def append (a b : Interface) : Interface :=
  ⟨a.imports ++ b.imports, a.exports ++ b.exports, a.edits ++ b.edits⟩

instance : Append Interface := ⟨Interface.append⟩

@[simp] theorem append_imports (a b : Interface) : (a ++ b).imports = a.imports ++ b.imports := rfl

@[simp] theorem append_exports (a b : Interface) : (a ++ b).exports = a.exports ++ b.exports := rfl

@[simp] theorem append_edits (a b : Interface) :
    (a ++ b).edits = a.edits ++ b.edits := rfl

theorem append_assoc (a b c : Interface) : a ++ b ++ c = a ++ (b ++ c) := by
  change Interface.append (Interface.append a b) c = Interface.append a (Interface.append b c)
  simp only [Interface.append, List.append_assoc]

end Interface

end ScriptBundle
