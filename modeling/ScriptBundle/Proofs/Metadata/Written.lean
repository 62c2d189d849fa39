import Mathlib.Data.List.Induction
import ScriptBundle.Metadata.Reader
import ScriptBundle.Proofs.Token.Written

/-!
# Written Metadata

Fields that are written as an exported object are read back, whatever characters their keys and
texts are made of. A key that is written again keeps its place and takes the value that it was
written with last.

## Main definitions

* `IsField`: how a field of the object is read;
* `MetadataSpelling`: what may be chosen when an object is written;
* `MetadataSpelling.text`: an exported object.

## Main statements

* `keys_ofEntries`, `get?_ofEntries`: the fields of a list of declarations;
* `metadataItems_faces`, `metadataEntries_faces`: lists and objects are read up to their end;
* `metadata_read_text`: an exported object is read back.
-/

namespace ScriptBundle

/-! ### Declarations -/

namespace Metadata

theorem ofEntries_append (entries : List (String × FieldValue)) (entry : String × FieldValue) :
    ofEntries (entries ++ [entry]) = (ofEntries entries).insert entry.1 entry.2 := by
  rw [ofEntries, List.foldl_append]
  rfl

/-- Keys stand in the order in which they are first declared. -/
theorem keys_ofEntries (entries : List (String × FieldValue)) :
    (ofEntries entries).keys = (entries.map Prod.fst).eraseDups := by
  induction entries using List.reverseRecOn with
  | nil => rfl
  | append_singleton entries entry ih =>
    rw [ofEntries_append, keys_insert, ih, List.map_append, List.eraseDups_append]
    by_cases hknown : entry.1 ∈ entries.map Prod.fst <;>
      simp [List.mem_eraseDups, hknown, List.removeAll, List.eraseDups_cons]

/-- A key has the value with which it is declared last. -/
theorem get?_ofEntries (entries : List (String × FieldValue)) (key : String) :
    (ofEntries entries).get? key = entries.reverse.lookup key := by
  induction entries using List.reverseRecOn with
  | nil => rfl
  | append_singleton entries entry ih =>
    rw [ofEntries_append, List.reverse_append, List.reverse_singleton, List.singleton_append,
      List.lookup_cons]
    by_cases hkey : key = entry.1
    · rw [hkey, get?_insert_self]
      simp
    · have hne : (key == entry.1) = false := by simpa using hkey
      rw [get?_insert_of_ne _ _ hkey, ih, hne]

end Metadata

/-! ### Readers -/

section Readers

variable {c : Cursor} {kinds : List TokenKind}

theorem expectPunctuator_faces {char : Char} (h : c.Faces (.punctuator char :: kinds)) :
    Gives (expectPunctuator c char) () kinds := by
  obtain ⟨a, heat, hbehind⟩ := h.eatPunctuator
  rw [expectPunctuator, heat]
  exact ⟨_, rfl, rfl, hbehind⟩

theorem metadataKey_faces {key : String} (h : c.Faces (.string key :: kinds)) :
    Gives (metadataKey c) key kinds := by
  obtain ⟨a, hbump, hkind, hbehind⟩ := h.bump
  rw [metadataKey, hbump]
  simp only [hkind]
  exact ⟨_, rfl, rfl, hbehind⟩

theorem metadataString_faces {value : String} (h : c.Faces (.string value :: kinds)) :
    Gives (metadataString c) value kinds := by
  obtain ⟨a, hbump, hkind, hbehind⟩ := h.bump
  rw [metadataString, hbump]
  simp only [hkind]
  exact ⟨_, rfl, rfl, hbehind⟩

/-- How a string of a list is read. -/
def IsItem (kinds : List TokenKind) (value : String) : Prop := kinds = [.string value]

/-- A list of strings is read up to its end. -/
theorem metadataItems_faces {list : List TokenKind} {values : List String}
    (hlist : Separated (.punctuator ']') IsItem list values) (h : c.Faces (list ++ kinds)) :
    Gives (metadataItems c) values kinds := by
  induction hlist generalizing c with
  | closed =>
    obtain ⟨a, heat, hbehind⟩ := h.eatPunctuator
    rw [metadataItems, heat]
    exact ⟨_, rfl, rfl, hbehind⟩
  | last hpart =>
    obtain rfl := hpart
    have hnone := h.eatPunctuator_eq_none ']' (by simp)
    obtain ⟨item, hitem, hvalue, hitemBehind⟩ := metadataString_faces h
    have hcomma := hitemBehind.eatPunctuator_eq_none ',' (by simp)
    rw [metadataItems, hnone]
    simp only [hitem, hcomma]
    exact (expectPunctuator_faces hitemBehind).map (fun _ _ => by rw [← hvalue]; rfl) fun _ => rfl
  | more hpart hrest ih =>
    obtain rfl := hpart
    have hnone := h.eatPunctuator_eq_none ']' (by simp)
    obtain ⟨item, hitem, hvalue, hitemBehind⟩ := metadataString_faces h
    obtain ⟨comma, hcomma, hcommaBehind⟩ := hitemBehind.eatPunctuator
    rw [metadataItems, hnone]
    simp only [hitem, hcomma]
    exact (ih hcommaBehind).map (fun _ hothers => by rw [← hvalue, ← hothers]; rfl) fun _ => rfl

/-- How the value of a field is read. -/
inductive IsValue : List TokenKind → FieldValue → Prop
  | scalar (value : String) : IsValue [.string value] (.scalar value)
  | list {list : List TokenKind} {values : List String}
      (h : Separated (.punctuator ']') IsItem list values) :
      IsValue (.punctuator '[' :: list) (.list values)

/-- A value is read up to what is behind it. -/
theorem metadataValue_faces {tokens : List TokenKind} {value : FieldValue}
    (hvalue : IsValue tokens value) (h : c.Faces (tokens ++ kinds)) :
    Gives (metadataValue c) value kinds := by
  cases hvalue with
  | scalar value =>
    rw [metadataValue, h.eatPunctuator_eq_none '[' (by simp)]
    exact (metadataString_faces h).map (fun _ htext => congrArg _ htext) fun _ => rfl
  | list hlist =>
    obtain ⟨a, heat, hbehind⟩ := h.eatPunctuator
    rw [metadataValue, heat]
    exact (metadataItems_faces hlist hbehind).map (fun _ hitems => congrArg _ hitems) fun _ => rfl

/-- How a field of an object is read. -/
inductive IsField : List TokenKind → String × FieldValue → Prop
  | mk (key : String) {tokens : List TokenKind} {value : FieldValue} (h : IsValue tokens value) :
      IsField (.string key :: .punctuator ':' :: tokens) (key, value)

/-- A field is read up to what is behind it. -/
theorem metadataEntry_faces {tokens : List TokenKind} {entry : String × FieldValue}
    (hfield : IsField tokens entry) (h : c.Faces (tokens ++ kinds)) :
    Gives (metadataEntry c) entry kinds := by
  obtain ⟨key, hvalue⟩ := hfield
  obtain ⟨a, ha, hkey, hkeyBehind⟩ := metadataKey_faces h
  obtain ⟨colon, hcolon, -, hcolonBehind⟩ := expectPunctuator_faces hkeyBehind
  rw [metadataEntry, ha]
  simp only [hcolon]
  exact (metadataValue_faces hvalue hcolonBehind).map
    (fun _ hv => Prod.ext hkey hv) fun _ => rfl

/-- The fields of an object are read up to its end. -/
theorem metadataEntries_faces {list : List TokenKind} {entries : List (String × FieldValue)}
    (hlist : Separated (.punctuator '\x7d') IsField list entries) (h : c.Faces (list ++ kinds)) :
    metadataEntries c = ⟨entries, none⟩ := by
  have hstart : ∀ {part rest : List TokenKind} {entry : String × FieldValue}, IsField part entry →
      (part ++ rest).head? ≠ some (.punctuator '\x7d') := by
    rintro part rest entry ⟨key, -⟩
    simp
  induction hlist generalizing c with
  | closed =>
    obtain ⟨a, heat, -⟩ := h.eatPunctuator
    rw [metadataEntries, heat]
  | last hpart =>
    rw [List.append_assoc] at h
    have hnone := h.eatPunctuator_eq_none '\x7d' (hstart hpart)
    obtain ⟨entry, hentry, rfl, hentryBehind⟩ := metadataEntry_faces hpart h
    have hcomma := hentryBehind.eatPunctuator_eq_none ',' (by simp)
    obtain ⟨a, hclosed, -⟩ := expectPunctuator_faces hentryBehind
    rw [metadataEntries, hnone]
    simp only [hentry, hcomma, hclosed]
  | more hpart hrest ih =>
    rw [List.append_assoc] at h
    have hnone := h.eatPunctuator_eq_none '\x7d' (hstart hpart)
    obtain ⟨entry, hentry, rfl, hentryBehind⟩ := metadataEntry_faces hpart h
    obtain ⟨comma, hcomma, hcommaBehind⟩ := hentryBehind.eatPunctuator
    rw [metadataEntries, hnone]
    simp only [hentry, hcomma, ih hcommaBehind]

/-- An object that is exported by a name at the front of a text is found. -/
theorem seekObject_faces {name : String}
    (h : c.Faces (.identifier "export" :: .identifier "const" :: .identifier name ::
      .punctuator '=' :: .punctuator '\x7b' :: kinds)) :
    ∃ found, seekObject 0 none c = .ok found ∧ found.Faces (.punctuator '\x7b' :: kinds) := by
  obtain ⟨keyword, hkeyword, hkind, hkeywordBehind⟩ := h.bump
  have hdefault := hkeywordBehind.eatName_eq_none "default" (by simp)
  obtain ⟨word, hword, -, hwordBehind⟩ := hkeywordBehind.eat
    (fun t => t.isName "const" || t.isName "let" || t.isName "var")
    fun t ht => by simp [Token.isName, ht]
  obtain ⟨bound, hbound, hboundKind, hboundBehind⟩ := hwordBehind.bump
  obtain ⟨equals, hequals, hequalsBehind⟩ := hboundBehind.eatPunctuator
  have hvalue : exportedValue keyword.cursor = (true, equals.cursor) := by
    rw [exportedValue, hdefault]
    simp only [hword, hbound, hboundKind, TokenKind.name?, Option.isSome_some, if_true, hequals]
  refine ⟨equals.cursor, ?_, hequalsBehind⟩
  have hbrace : equals.cursor.atPunctuator '\x7b' = true := by
    rw [hequalsBehind.atPunctuator]
    simp
  rw [seekObject, hkeyword]
  simp only [Token.isName, hkind, hvalue, hbrace, beq_self_eq_true, and_self, if_true]

end Readers

/-! ### Exported objects -/

/-- What may be chosen when metadata are written. -/
structure MetadataSpelling where
  quote : Quote
  /-- The name by which the object is exported. -/
  name : String
  isWord_name : isWord name = true
  /-- Whether there is a comma behind the last field. -/
  fieldComma : Bool
  /-- Whether there is a comma behind the last string of a list. -/
  itemComma : Bool

namespace MetadataSpelling

variable (spelling : MetadataSpelling)

/-- The strings of a list. -/
def items : List String → List (List Lexeme)
  | [] => []
  | first :: others =>
    [.literal [] spelling.quote first] ::
      others.map fun item => [.literal [' '] spelling.quote item]

/-- The value of a field. -/
def value : FieldValue → List Lexeme
  | .scalar text => [.literal [' '] spelling.quote text]
  | .list texts =>
    .mark [' '] '[' ::
      (commaSeparated (.mark [] ',') spelling.itemComma (spelling.items texts) ++ [.mark [] ']'])

/-- A field with its key. -/
def field (entry : String × FieldValue) : List Lexeme :=
  .literal [' '] spelling.quote entry.1 :: .mark [] ':' :: spelling.value entry.2

/-- The statement that exports fields as an object. -/
def line (entries : List (String × FieldValue)) : List Lexeme :=
  .word [] "export" :: .word [' '] "const" :: .word [' '] spelling.name :: .mark [' '] '=' ::
    .mark [' '] '\x7b' ::
    (commaSeparated (.mark [] ',') spelling.fieldComma (entries.map spelling.field) ++
      [.mark [' '] '\x7d', .mark [] ';'])

/-- The text of that statement. -/
def text (entries : List (String × FieldValue)) : Text := writeLexemes (spelling.line entries)

/-- The tokens of a list are kept apart. -/
theorem isApart_items (texts : List String) :
    ∀ part ∈ spelling.items texts, ∀ l ∈ part, l.IsApart := by
  cases texts with
  | nil => exact List.forall_mem_nil _
  | cons first others =>
    refine List.forall_mem_cons.mpr ⟨?_, fun part hpart => ?_⟩
    · exact List.forall_mem_singleton.mpr (.literal isBlankText_nil _ _)
    · obtain ⟨item, -, rfl⟩ := List.mem_map.mp hpart
      exact List.forall_mem_singleton.mpr (.literal isBlankText_space _ _)

/-- The tokens of a value are kept apart. -/
theorem isApart_value (value : FieldValue) : ∀ l ∈ spelling.value value, l.IsApart := by
  cases value with
  | scalar text => exact List.forall_mem_singleton.mpr (.literal isBlankText_space _ _)
  | list texts =>
    have hlist := isApart_commaSeparated (spelling.isApart_items texts) spelling.itemComma
    exact List.forall_mem_cons.mpr ⟨.mark isBlankText_space (by decide),
      List.forall_mem_append.mpr ⟨hlist,
        List.forall_mem_singleton.mpr (.mark isBlankText_nil (by decide))⟩⟩

/-- The tokens of a field are kept apart. -/
theorem isApart_field (entry : String × FieldValue) : ∀ l ∈ spelling.field entry, l.IsApart :=
  List.forall_mem_cons.mpr ⟨.literal isBlankText_space _ _,
    List.forall_mem_cons.mpr ⟨.mark isBlankText_nil (by decide), spelling.isApart_value entry.2⟩⟩

/-- The statement is a written line. -/
theorem isWrittenLine_line (entries : List (String × FieldValue)) :
    IsWrittenLine (spelling.line entries) := by
  have hfields : ∀ part ∈ entries.map spelling.field, ∀ l ∈ part, l.IsApart :=
    List.forall_mem_map.mpr fun entry _ => spelling.isApart_field entry
  have hlist := isApart_commaSeparated hfields spelling.fieldComma
  refine .mk (by decide) ?_
  simp only [List.forall_mem_cons, List.forall_mem_append]
  exact ⟨.spaced (by decide),
    .spaced spelling.isWord_name, .mark isBlankText_space (by decide),
    .mark isBlankText_space (by decide), hlist, .mark isBlankText_space (by decide),
    .mark isBlankText_nil (by decide), List.forall_mem_nil _⟩

/-- The kinds of the tokens of a value are those of the value. -/
theorem isValue_value (value : FieldValue) :
    IsValue ((spelling.value value).map Lexeme.kind) value := by
  cases value with
  | scalar text => exact .scalar text
  | list texts =>
    have hitems : (spelling.items texts).map (List.map Lexeme.kind) =
        texts.map fun text => [.string text] := by
      cases texts <;> simp [items, Lexeme.literal]
    have hitem : ∀ text ∈ texts, IsItem [.string text] (id text) := fun _ _ => rfl
    have hlist : Separated (.punctuator ']') IsItem (commaSeparated (.punctuator ',')
        spelling.itemComma (texts.map fun text => [.string text]) ++ [.punctuator ']'])
        (texts.map id) := separated_commaSeparated hitem _
    rw [List.map_id] at hlist
    rw [← hitems] at hlist
    simpa [MetadataSpelling.value, map_commaSeparated, Lexeme.mark] using IsValue.list hlist

/-- The tokens of the statement, as a reader faces them. -/
theorem kinds_line (entries : List (String × FieldValue)) :
    ∃ list, Separated (.punctuator '\x7d') IsField list entries ∧
      (spelling.line entries).map Lexeme.kind =
        .identifier "export" :: .identifier "const" :: .identifier spelling.name ::
          .punctuator '=' :: .punctuator '\x7b' :: (list ++ [.punctuator ';']) := by
  have hlist : Separated (.punctuator '\x7d') IsField (commaSeparated (.punctuator ',')
      spelling.fieldComma (entries.map fun entry => (spelling.field entry).map Lexeme.kind) ++
        [.punctuator '\x7d']) (entries.map id) :=
    separated_commaSeparated (fun entry _ => .mk entry.1 (spelling.isValue_value entry.2)) _
  rw [List.map_id] at hlist
  refine ⟨_, hlist, ?_⟩
  simp [line, map_commaSeparated, Lexeme.mark, Lexeme.word, Function.comp_def]

/-- The spelling with single quotes and without trailing commas. -/
example : text ⟨.single, "m", by decide, false, false⟩
      [("key", .scalar "value"), ("key2", .list ["a", "b"])] =
    "export const m = \x7b 'key': 'value', 'key2': ['a', 'b'] \x7d;".toList := by
  decide

end MetadataSpelling

/-- Fields that are written as an exported object are read back: each key once, in the order in
which the keys are first written, with the value with which it is written last. -/
theorem metadata_read_text (spelling : MetadataSpelling) (entries : List (String × FieldValue)) :
    ∃ m, Metadata.read (spelling.text entries) = .ok m ∧
      m.keys = (entries.map Prod.fst).eraseDups ∧
      ∀ key, m.get? key = entries.reverse.lookup key := by
  refine ⟨.ofEntries entries, ?_, Metadata.keys_ofEntries entries,
    Metadata.get?_ofEntries entries⟩
  obtain ⟨list, hlist, hkinds⟩ := spelling.kinds_line entries
  have hfaces : (Cursor.ofSource (spelling.text entries)).Faces _ :=
    (kinds_writeLexemes (spelling.isWrittenLine_line entries)).trans hkinds
  obtain ⟨found, hfound, hfoundFaces⟩ := seekObject_faces hfaces
  obtain ⟨brace, hbrace, -, hbraceFaces⟩ := expectPunctuator_faces hfoundFaces
  rw [Metadata.read, MetadataReading.ofSource, hfound]
  simp only [hbrace, metadataEntries_faces hlist hbraceFaces, MetadataReading.result]

end ScriptBundle
