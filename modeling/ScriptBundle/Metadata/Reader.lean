import ScriptBundle.Metadata.Basic
import ScriptBundle.Module.Pattern
import ScriptBundle.Text.Search
import ScriptBundle.Warning

/-!
# Reading Metadata

The metadata of a script is the object that one of its modules exports. The object is read as
data, with strings and lists of strings for values; nothing in it is evaluated.

## Main definitions

* `seekObject`: the cursor in front of the exported object;
* `metadataEntries`: the declarations in the object, up to the first error;
* `MetadataReading`: what was read, with the error that ended it;
* `Metadata.read`: the metadata of a module's source.
-/

namespace ScriptBundle

/-! ### The exported object -/

/-- Passes the words of an export up to its value. `false` stands for an export of another
form, of which no more is passed than was looked at. -/
def exportedValue (c : Cursor) : Bool × Cursor :=
  match c.eatName "default" with
  | some a => (true, a.cursor)
  | none =>
    match c.eat fun t => t.isName "const" || t.isName "let" || t.isName "var" with
    | none => (false, c)
    | some word =>
      match word.cursor.bump with
      | none => (false, word.cursor)
      | some name =>
        if name.value.kind.name?.isSome then
          match name.cursor.eatPunctuator '=' with
          | some a => (true, a.cursor)
          | none => (false, name.cursor)
        else (false, name.cursor)

theorem exportedValue_length (c : Cursor) :
    (exportedValue c).2.rest.length ≤ c.rest.length := by
  unfold exportedValue
  split
  · next a _ => exact Nat.le_of_lt a.shorter
  · split
    · exact Nat.le_refl _
    · next word _ =>
      have := word.shorter
      split
      · exact Nat.le_of_lt this
      · next name _ =>
        have := name.shorter
        split
        · split
          · next a _ =>
            have := a.shorter
            exact Nat.le_of_lt (by dsimp only; omega)
          · exact Nat.le_of_lt (by dsimp only; omega)
        · exact Nat.le_of_lt (by dsimp only; omega)

/-- The cursor in front of the first object that is exported outside of all brackets.
`notObject` is the place of the first exported value that was none. -/
def seekObject (depth : Nat) (notObject : Option Nat) (c : Cursor) : Except SyntaxError Cursor :=
  match c.bump with
  | none =>
    match notObject with
    | some offset => .error ⟨.metadataNotObject, offset⟩
    | none => .error ⟨.metadataNotFound, 0⟩
  | some a =>
    have := a.shorter
    if depth = 0 ∧ a.value.isName "export" then
      let found := exportedValue a.cursor
      have := exportedValue_length a.cursor
      if found.1 then
        if found.2.atPunctuator '{' then .ok found.2
        else seekObject 0 (notObject <|> some found.2.offset) found.2
      else seekObject 0 notObject found.2
    else seekObject (depthAfter depth a.value.kind) notObject a.cursor
termination_by c.rest.length

/-! ### Its declarations -/

/-- Passes the given character. -/
def expectPunctuator (c : Cursor) (char : Char) : Except SyntaxError (Advance c Unit) :=
  match c.eatPunctuator char with
  | some a => .ok (a.map fun _ => ())
  | none => c.fail (.missingMetadataPunctuator char)

/-- Passes the key of a field. -/
def metadataKey (c : Cursor) : Except SyntaxError (Advance c String) :=
  match c.bump with
  | none => c.fail .metadataKey
  | some a =>
    match a.value.kind with
    | .identifier name => .ok (a.map fun _ => name)
    | .string value => .ok (a.map fun _ => value)
    | _ => c.fail .metadataKey

/-- The characters of a template between its backquotes. -/
def templateInner (text : Text) : Text := text.tail.dropLast

/-- Passes a string, or a template without substitutions, whose characters are taken as they
stand. -/
def metadataString (c : Cursor) : Except SyntaxError (Advance c String) :=
  match c.bump with
  | none => c.fail .metadataValue
  | some a =>
    match a.value.kind with
    | .string value => .ok (a.map fun _ => value)
    | .template =>
      let inner := templateInner a.value.text
      if Text.contains ['$', '{'] inner then c.fail .metadataSubstitution
      else .ok (a.map fun _ => String.ofList inner)
    | _ => c.fail .metadataValue

/-- The strings in the rest of a list behind its opening bracket or behind a comma. -/
def metadataItems (c : Cursor) : Except SyntaxError (Advance c (List String)) :=
  match c.eatPunctuator ']' with
  | some a => .ok (a.map fun _ => [])
  | none =>
    match metadataString c with
    | .error e => .error e
    | .ok item =>
      have := item.shorter
      match item.cursor.eatPunctuator ',' with
      | some comma =>
        have := comma.shorter
        (metadataItems comma.cursor).map fun others =>
          (item.trans (comma.trans others)).map (item.value :: ·)
      | none =>
        (expectPunctuator item.cursor ']').map fun a => (item.trans a).map fun _ => [item.value]
termination_by c.rest.length

/-- Passes the value of a field. -/
def metadataValue (c : Cursor) : Except SyntaxError (Advance c FieldValue) :=
  match c.eatPunctuator '[' with
  | some a => (metadataItems a.cursor).map fun items => (a.trans items).map FieldValue.list
  | none => (metadataString c).map fun value => value.map FieldValue.scalar

/-- Passes a key, a colon and a value. -/
def metadataEntry (c : Cursor) : Except SyntaxError (Advance c (String × FieldValue)) :=
  match metadataKey c with
  | .error e => .error e
  | .ok key =>
    match expectPunctuator key.cursor ':' with
    | .error e => .error e
    | .ok colon =>
      (metadataValue colon.cursor).map fun value =>
        key.trans (colon.trans (value.map fun v => (key.value, v)))

/-- A **reading** of metadata is the declarations that were read, repeated ones included, and
the error at which reading ended, if it did not reach the end of the object. -/
structure MetadataReading where
  entries : List (String × FieldValue)
  error : Option SyntaxError
  deriving DecidableEq, Repr

/-- The declarations in the rest of an object behind its opening brace or behind a comma. -/
def metadataEntries (c : Cursor) : MetadataReading :=
  match c.eatPunctuator '}' with
  | some _ => ⟨[], none⟩
  | none =>
    match metadataEntry c with
    | .error e => ⟨[], some e⟩
    | .ok entry =>
      have := entry.shorter
      match entry.cursor.eatPunctuator ',' with
      | some comma =>
        have := comma.shorter
        let others := metadataEntries comma.cursor
        { others with entries := entry.value :: others.entries }
      | none =>
        match expectPunctuator entry.cursor '}' with
        | .ok _ => ⟨[entry.value], none⟩
        | .error e => ⟨[entry.value], some e⟩
termination_by c.rest.length

/-- The reading of a module's source. -/
def MetadataReading.ofSource (source : Text) : MetadataReading :=
  match seekObject 0 none (.ofSource source) with
  | .error e => ⟨[], some e⟩
  | .ok c =>
    match expectPunctuator c '{' with
    | .error e => ⟨[], some e⟩
    | .ok brace => metadataEntries brace.cursor

/-! ### The metadata -/

/-- A warning for every entry whose key was declared before, `known` being the keys so far. -/
def repeatedKeys (known : List String) : List (String × FieldValue) → List Warning
  | [] => []
  | (key, _) :: rest =>
    if known.contains key then .repeatedField key :: repeatedKeys known rest
    else repeatedKeys (key :: known) rest

/-- The warnings of a reading: one for every repeated declaration, even if an error follows. -/
def MetadataReading.warnings (r : MetadataReading) : List Warning := repeatedKeys [] r.entries

/-- The metadata that was read, if the end of the object was reached. -/
def MetadataReading.result (r : MetadataReading) : Except SyntaxError Metadata :=
  match r.error with
  | some e => .error e
  | none => .ok (.ofEntries r.entries)

/-- The **metadata** that a source text declares. -/
def Metadata.read (source : Text) : Except SyntaxError Metadata :=
  (MetadataReading.ofSource source).result

end ScriptBundle
