import ScriptBundle.Metadata.Basic
import ScriptBundle.Text.Search
import ScriptBundle.Warning

/-!
# Placeholders

A value of the header may name a value of the build, such as its version, by a placeholder in
doubled braces.

## Main definitions

* `fillPlaceholders`: a text with the placeholders of a list replaced, one after the other;
* `Metadata.substitute`: the same for every value of the header;
* `Metadata.unresolved`: warnings for the placeholders that are left.
-/

namespace ScriptBundle

/-- Replaces every occurrence of `pattern` in a string. -/
def replaceString (s pattern replacement : String) : String :=
  String.ofList (Text.replaceAll pattern.toList replacement.toList s.toList)

/-- Replaces the placeholders of a list in turn. What one of them was replaced by is searched
for the next. -/
def fillPlaceholders (values : List (String × String)) (s : String) : String :=
  values.foldl (fun filled (placeholder, replacement) =>
    replaceString filled placeholder replacement) s

/-- Replaces the placeholders in every value. -/
def Metadata.substitute (m : Metadata) (values : List (String × String)) : Metadata :=
  ⟨m.fields.map fun (key, value) => (key, value.map (fillPlaceholders values))⟩

/-- A warning for every field that holds the opening of a placeholder. -/
def Metadata.unresolved (m : Metadata) : List Warning :=
  m.fields.filterMap fun (key, value) =>
    if value.items.any fun item => Text.contains ['{', '{'] item.toList then
      some (.unresolvedField key)
    else none

/-- Substitution keeps the keys. -/
@[simp] theorem Metadata.keys_substitute (m : Metadata) (values : List (String × String)) :
    (m.substitute values).keys = m.keys := by
  simp [Metadata.keys, Metadata.substitute, Function.comp_def]

end ScriptBundle
