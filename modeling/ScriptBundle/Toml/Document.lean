import ScriptBundle.Toml.Scan

/-!
# TOML Documents

The part of TOML in which settings are written: lines `key = value` at the top level, where a
value is a string, a natural number or an array of strings. Documents with anything else in them
are refused, whether it is TOML or not, because no setting could take it.

## Main definitions

* `Value`: what a key may be set to;
* `value?`: reads a value;
* `entries?`: the keys of a document with their values, in order.
-/

namespace ScriptBundle.Toml

/-- A **value** of a setting. -/
inductive Value where
  | text (content : Text)
  | number (n : Nat)
  | texts (contents : List Text)
  deriving DecidableEq, Repr

/-! ### Numbers -/

/-- The parts of a text between underscores, of which there is at least one. -/
def splitUnderscores : Text → List Text
  | [] => [[]]
  | c :: rest =>
    if c = '_' then [] :: splitUnderscores rest
    else
      match splitUnderscores rest with
      | [] => [[c]]
      | group :: others => (c :: group) :: others

/-- The number that groups of digits stand for. Underscores stand between digits only. -/
def groupedNumber? (base : Nat) (s : Text) : Option Nat :=
  let groups := splitUnderscores s
  if groups.any List.isEmpty then none else Text.number? base groups.flatten

/-- A decimal number without a sign. Zero alone starts with the digit zero. -/
def decimal? (s : Text) : Option Nat :=
  if s.head? = some '0' ∧ s ≠ ['0'] then none else groupedNumber? 10 s

/-- The number that a word stands for. Below zero there is no value. -/
def integer? : Text → Option Nat
  | '0' :: 'x' :: digits => groupedNumber? 16 digits
  | '0' :: 'o' :: digits => groupedNumber? 8 digits
  | '0' :: 'b' :: digits => groupedNumber? 2 digits
  | '+' :: digits => decimal? digits
  | '-' :: digits => (decimal? digits).filter (· == 0)
  | digits => decimal? digits

/-- The numbers that a value can hold lie below this one. -/
def numberLimit : Nat := 18446744073709551616

/-- Whether a character may stand in the word for a number. -/
def isNumberChar (c : Char) : Bool := c.isAlphanum || c == '_' || c == '+' || c == '-'

/-- Reads a number. -/
def number : (s : Text) → Option (Taken s Value)
  | [] => none
  | c :: rest =>
    if isNumberChar c then
      let others := rest.takeWhile isNumberChar
      ((integer? (c :: others)).filter (· < numberLimit)).map fun n =>
        .dropping others.length (.number n)
    else none

/-! ### Values -/

theorem length_skipTrivia_le {inComment : Bool} {s rest : Text}
    (h : skipTrivia inComment s = some rest) : rest.length ≤ s.length := by
  fun_induction skipTrivia inComment s with
  | case1 => simp_all
  | case2 _ tail ih => have := ih h; simp only [List.length_cons]; omega
  | case3 _ tail ih => have := ih h; simp only [List.length_cons]; omega
  | case4 => rename_i ih; have := ih h; simp only [List.length_cons]; omega
  | case5 => simp at h
  | case6 => rename_i ih; have := ih h; simp only [List.length_cons]; omega
  | case7 => rename_i ih; have := ih h; simp only [List.length_cons]; omega
  | case8 => simp_all

/-- Passes white space and comments, and the given character behind them. -/
def punctuation? (accepted : Char) (s : Text) : Option (Taken s Unit) :=
  match h : skipTrivia false s with
  | some (c :: rest) =>
    if c = accepted then
      some ((Taken.first () : Taken (c :: rest) Unit).within (length_skipTrivia_le h))
    else none
  | _ => none

/-- Passes white space and comments, and reads the string behind them. -/
def nextString? (s : Text) : Option (Taken s Text) :=
  match h : skipTrivia false s with
  | some start => (stringLiteral? start).map (.within (length_skipTrivia_le h))
  | none => none

/-- Reads the strings of an array behind its opening bracket. A comma may follow the last one. -/
def arrayItems? (s : Text) : Option (Taken s (List Text)) :=
  match punctuation? ']' s with
  | some closing => some (closing.map fun _ => [])
  | none =>
    match nextString? s with
    | none => none
    | some item =>
      match punctuation? ',' item.rest with
      | some comma =>
        (arrayItems? comma.rest).map fun others =>
          item.andThen (· :: ·) (comma.andThen (fun _ items => items) others)
      | none => (punctuation? ']' item.rest).map (item.andThen fun first _ => [first])
termination_by s.length
decreasing_by
  exact Nat.lt_trans comma.shorter item.shorter

/-- Reads a value. -/
def value? (s : Text) : Option (Taken s Value) :=
  match s with
  | '[' :: rest => (arrayItems? rest).map fun t => (t.map .texts).behind
  | s =>
    match stringLiteral? s with
    | some taken => some (taken.map .text)
    | none => number s

/-! ### Documents -/

/-- Passes spaces and an equals sign. -/
def equalsSign? (s : Text) : Option (Taken s Unit) :=
  match h : skipSpaces s with
  | '=' :: rest =>
    some ((Taken.first () : Taken ('=' :: rest) Unit).within (h ▸ length_skipSpaces_le s))
  | _ => none

/-- Reads a key, an equals sign and a value, all on one line. -/
def entry? (s : Text) : Option (Taken s (Text × Value)) :=
  match key? s with
  | none => none
  | some key =>
    match equalsSign? key.rest with
    | none => none
    | some sign =>
      (value? (skipSpaces sign.rest)).map fun value =>
        key.andThen Prod.mk
          (sign.andThen (fun _ v => v) (value.within (length_skipSpaces_le sign.rest)))

/-- The entries of a text, which starts where an entry may start. -/
def entriesFrom (s : Text) : Option (List (Text × Value)) :=
  match h : skipTrivia false s with
  | none => none
  | some [] => some []
  | some (c :: rest) =>
    match entry? (c :: rest) with
    | none => none
    | some entry =>
      have := Nat.lt_of_lt_of_le entry.shorter (length_skipTrivia_le h)
      if endsLine entry.rest then (entriesFrom entry.rest).map (entry.value :: ·) else none
termination_by s.length

/-- The **entries** of a document, in order. A mark of the byte order in front does not count. -/
def entries? : Text → Option (List (Text × Value))
  | '\uFEFF' :: rest => entriesFrom rest
  | s => entriesFrom s

end ScriptBundle.Toml
