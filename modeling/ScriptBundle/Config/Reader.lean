import ScriptBundle.Config.Basic
import ScriptBundle.Toml.Document

/-!
# Reading Configurations

## Main definitions

* `Config.set?`: a configuration with one setting changed;
* `Config.ofToml`: the configuration that a document describes.

## Main statements

* `Config.ofToml_nil`: an empty document leaves all settings at their defaults.
-/

namespace ScriptBundle.Config

/-- Changes the setting of a key. A key takes values of one type only. -/
def set? (c : Config) (key : String) (value : Toml.Value) : Option Config :=
  match key, value with
  | "src", .text s => some { c with src := ⟨s⟩ }
  | "extension", .text s => some { c with extension := s }
  | "metadata-module", .text s => some { c with metadataModule := String.ofList s }
  | "output", .text s => some { c with output := ⟨s⟩ }
  | "version", .text s => some { c with version := String.ofList s }
  | "branch", .text s => some { c with branch := String.ofList s }
  | "release-url", .text s => some { c with releaseUrl := some (String.ofList s) }
  | "exclude", .texts names => some { c with exclude := names }
  | "indent-width", .number n => some { c with indentWidth := n }
  | "max-module-lines", .number n => some { c with maxModuleLines := some n }
  | "lint-command", .texts words => some { c with lintCommand := some words }
  | _, _ => none

/-- Changes the settings of several keys, none of which may come twice. -/
def setAll? (c : Config) (entries : List (Text × Toml.Value)) : Option Config :=
  if (entries.map Prod.fst).Nodup then
    entries.foldlM (fun c (key, value) => c.set? (String.ofList key) value) c
  else none

/-- The configuration that a document describes. Keys that it does not hold keep their
defaults. -/
def ofToml (document : Text) : Except ConfigFault Config :=
  match (Toml.entries? document).bind (setAll? {}) with
  | none => .error .malformed
  | some c => c.check.map fun _ => c

/-- An empty document leaves all settings at their defaults. -/
theorem ofToml_nil : ofToml [] = .ok {} := by
  have h : Toml.entries? [] = some [] := by
    simp [Toml.entries?, Toml.entriesFrom, Toml.skipTrivia]
  rw [ofToml, h]
  rfl

end ScriptBundle.Config
