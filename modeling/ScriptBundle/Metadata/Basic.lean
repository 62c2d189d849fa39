/-!
# Script Metadata

The fields of a script's header, in the order in which they were declared.

## Main definitions

* `FieldValue`: one text or a list of texts;
* `Metadata`: keys with their values;
* `Metadata.insert`: gives a key a value.

## Main statements

* `Metadata.get?_insert_self`, `Metadata.get?_insert_of_ne`: what an insertion changes;
* `Metadata.keys_insert`: a new key goes to the end and a known one stays where it is.
-/

namespace ScriptBundle

/-- The **value** of a header field. -/
inductive FieldValue where
  | scalar (value : String)
  | list (values : List String)
  deriving DecidableEq, Repr

/-- The texts of a value, each of which gets a line of the header. -/
def FieldValue.items : FieldValue → List String
  | scalar value => [value]
  | list values => values

/-- Changes each text of a value. -/
def FieldValue.map (f : String → String) : FieldValue → FieldValue
  | scalar value => scalar (f value)
  | list values => list (values.map f)

/-- The **metadata** of a script: fields with distinct keys in order of declaration. -/
structure Metadata where
  fields : List (String × FieldValue)
  deriving DecidableEq, Repr

namespace Metadata

/-- No fields at all. -/
def empty : Metadata := ⟨[]⟩

/-- Sets the value of a key in a list of fields: where the key stands, or at the end. -/
def insertField (key : String) (value : FieldValue) :
    List (String × FieldValue) → List (String × FieldValue)
  | [] => [(key, value)]
  | (k, v) :: rest => if k = key then (k, value) :: rest else (k, v) :: insertField key value rest

/-- Sets the value of a key. -/
def insert (m : Metadata) (key : String) (value : FieldValue) : Metadata :=
  ⟨insertField key value m.fields⟩

/-- The fields of a list of declarations. A key that is declared again takes the later value and
keeps its place. -/
def ofEntries (entries : List (String × FieldValue)) : Metadata :=
  entries.foldl (fun m (key, value) => m.insert key value) empty

/-- The value of a key. -/
def get? (m : Metadata) (key : String) : Option FieldValue :=
  m.fields.lookup key

/-- The keys in order. -/
def keys (m : Metadata) : List String := m.fields.map Prod.fst

/-- The number of fields. -/
def size (m : Metadata) : Nat := m.fields.length

/-- Every text with its key, in header order. -/
def lines (m : Metadata) : List (String × String) :=
  m.fields.flatMap fun (key, value) => value.items.map (key, ·)

/-! ### Insertion -/

/-- A key has the value that it was given last. -/
theorem get?_insert_self (m : Metadata) (key : String) (value : FieldValue) :
    (m.insert key value).get? key = some value := by
  obtain ⟨fields⟩ := m
  simp only [get?, insert]
  induction fields with
  | nil => simp [insertField]
  | cons field fields ih =>
    obtain ⟨k, v⟩ := field
    by_cases h : k = key
    · simp [insertField, h]
    · have hne : (key == k) = false := by simpa using Ne.symm h
      simpa [insertField, h, List.lookup_cons, hne] using ih

/-- The other keys keep their values. -/
theorem get?_insert_of_ne (m : Metadata) {key other : String} (value : FieldValue)
    (h : other ≠ key) : (m.insert key value).get? other = m.get? other := by
  obtain ⟨fields⟩ := m
  have hother : (other == key) = false := by simpa using h
  simp only [get?, insert]
  induction fields with
  | nil => simp [insertField, List.lookup_cons, hother]
  | cons field fields ih =>
    obtain ⟨k, v⟩ := field
    by_cases hk : k = key
    · subst hk
      simp [insertField, List.lookup_cons, hother]
    · simp only [insertField, hk, if_false, List.lookup_cons, ih]

/-- A new key goes to the end, and a known one stays where it is. -/
theorem keys_insert (m : Metadata) (key : String) (value : FieldValue) :
    (m.insert key value).keys = if key ∈ m.keys then m.keys else m.keys ++ [key] := by
  obtain ⟨fields⟩ := m
  simp only [keys, insert]
  induction fields with
  | nil => simp [insertField]
  | cons field fields ih =>
    obtain ⟨k, v⟩ := field
    by_cases h : k = key
    · simp [insertField, h]
    · have hne : key ≠ k := Ne.symm h
      by_cases hmem : key ∈ fields.map Prod.fst <;>
        simp only [insertField, h, hne, hmem, if_true, if_false, List.map_cons, List.mem_cons,
          false_or, ih, List.cons_append]

end Metadata

end ScriptBundle
