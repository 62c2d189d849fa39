import ScriptBundle.Shell.Arithmetic
import ScriptBundle.Shell.Pattern
import ScriptBundle.Shell.State

/-!
# Expanding Words

What the words of a script stand for. The parts of a word are replaced by pieces, of which those
that are values are split into fields. A field that is a pattern stands for the files that have
it.

## Main definitions

* `Piece`: what a part of a word stands for;
* `FieldList.ofPieces`: the fields that pieces amount to;
* `FileTree.matching`: the files that have a pattern;
* `Action.expandFields`, `Action.expandText`: what words stand for.

## Main statements

* `FieldList.finish_foldl_appendFixed`: pieces that are not split stay together.
-/

namespace ScriptBundle.Shell

/-! ### Fields -/

/-- What a part of a word stands for. -/
inductive Piece where
  /-- Characters that stay together. -/
  | fixed (p : Pattern)
  /-- A value, which is split into fields. -/
  | value (s : Text)
  /-- What stands between two arguments. -/
  | border
  /-- The arguments of a script that has none. -/
  | absent
  deriving DecidableEq, Repr

/-- **Fields** that are being collected: the last one, unless it has ended, and those before it,
the latest first. -/
structure FieldList where
  ended : List Pattern := []
  current : Option Pattern := none
  /-- Whether white space has ended the last field. -/
  isBehindSpace : Bool := false

namespace FieldList

/-- Ends the last field. -/
def endField (f : FieldList) : FieldList :=
  match f.current with
  | some field => { ended := field :: f.ended }
  | none => f

/-- Adds to the last field. -/
def appendFixed (f : FieldList) (p : Pattern) : FieldList :=
  { f with current := some (f.current.getD [] ++ p), isBehindSpace := false }

/-- Adds a character of a value. A separator ends a field; one that is no white space also ends a
field that has not begun. -/
def appendChar (separators : Text) (f : FieldList) (c : Char) : FieldList :=
  if c ∉ separators then f.appendFixed [⟨c, false⟩]
  else if " \t\n".toList.contains c then
    { f.endField with isBehindSpace := f.isBehindSpace || f.current.isSome }
  else if f.isBehindSpace && f.current.isNone then { f with isBehindSpace := false }
  else { ended := f.current.getD [] :: f.ended }

/-- Adds a piece. -/
def append (separators : Text) (f : FieldList) : Piece → FieldList
  | .fixed p => f.appendFixed p
  | .value s => s.foldl (appendChar separators) f
  | .border => f.endField
  | .absent => f

/-- The finished fields. -/
def finish (f : FieldList) : List Pattern := f.endField.ended.reverse

theorem foldl_appendFixed (p : Pattern) (ps : List Pattern) :
    ps.foldl appendFixed { current := some p } = { current := some (p ++ ps.flatten) } := by
  induction ps generalizing p with
  | nil => simp
  | cons q ps ih =>
    rw [List.foldl_cons, appendFixed, ih]
    simp

/-- Pieces that are not split stay together. -/
theorem finish_foldl_appendFixed (p : Pattern) (ps : List Pattern) :
    ((p :: ps).foldl appendFixed {}).finish = [p ++ ps.flatten] := by
  rw [List.foldl_cons, appendFixed, foldl_appendFixed]
  rfl

end FieldList

/-- Pieces without the quotes around the arguments of a script that has none. -/
def dropAbsent : List Piece → List Piece
  | .fixed [] :: .absent :: rest => dropAbsent rest
  | piece :: rest => piece :: dropAbsent rest
  | [] => []

/-- The fields that pieces amount to. -/
def FieldList.ofPieces (separators : Text) (pieces : List Piece) : List Pattern :=
  ((dropAbsent pieces).foldl (append separators) {}).finish

/-- The pattern that a piece amounts to, where nothing is split. -/
def Piece.pattern : Piece → Pattern
  | fixed p => p
  | value s => s.map fun c => ⟨c, false⟩
  | border => [⟨' ', false⟩]
  | absent => []

/-! ### File names -/

/-- The names in a directory that have a pattern. Those that start with a period have only
patterns that start with one. -/
def namesMatching (t : FileTree) (directory : Text) (p : Pattern) : List Text :=
  let isShown (name : Text) : Bool :=
    name.head? != some '.' || (p.head?.map Glyph.char) == some '.'
  (['.'] :: ['.', '.'] :: entryNames t directory).filter fun name => isShown name && p.fits name

/-- The parts of a pattern between slashes. -/
def splitPattern : Pattern → List Pattern
  | [] => [[]]
  | g :: rest =>
    if g.char = '/' then [] :: splitPattern rest
    else
      match splitPattern rest with
      | [] => [[g]]
      | p :: others => (g :: p) :: others

/-- The paths that go on behind `front` with the parts of a pattern. -/
def pathsFrom (t : FileTree) (front : Text) : List Pattern → List Text
  | [] => []
  | [last] =>
    if last.isActive then (namesMatching t front last).map (front ++ ·)
    else if hasEntry t (front ++ last.text) then [front ++ last.text] else []
  | p :: rest =>
    if p.isActive then
      (namesMatching t front p).flatMap fun name => pathsFrom t (front ++ name ++ ['/']) rest
    else pathsFrom t (front ++ p.text ++ ['/']) rest

/-- The paths that have a pattern. A pattern without any stands for itself. -/
def pathsMatching (t : FileTree) (p : Pattern) : List Text :=
  if p.isActive then
    match pathsFrom t [] (splitPattern p) with
    | [] => [p.text]
    | paths => paths
  else [p.text]

/-! ### Parameters -/

namespace Action

/-- The value of a parameter that a script needs. -/
def needValue (name : Text) : Action Text := do
  let s ← get
  match s.parameter? name with
  | some value => return value
  | none =>
    if s.isOn "nounset" ∧ name ≠ ['@'] ∧ name ≠ ['*'] then
      abort (name ++ ": parameter not set".toList)
    return []

/-- The pieces of a value. -/
def valuePieces (isQuoted : Bool) (value : Text) : List Piece :=
  [if isQuoted then .fixed (.ofText value) else .value value]

/-- The pieces of the arguments of a script, which stay apart. -/
def argumentPieces (isQuoted : Bool) (arguments : List Text) : List Piece :=
  if arguments.isEmpty then [.absent]
  else List.intercalate [.border] (arguments.map (valuePieces isQuoted))

/-- The pieces of a parameter of which nothing further is made. -/
def plainPieces (name : Text) (isQuoted : Bool) : Action (List Piece) := do
  let arguments := (← get).arguments
  if name = ['@'] ∨ (name = ['*'] ∧ !isQuoted) then return argumentPieces isQuoted arguments
  else return valuePieces isQuoted (← needValue name)

/-- The value of a parameter, unless it is missing. -/
def present? (name : Text) (emptyCounts : Bool) : Action (Option Text) := do
  return ((← get).parameter? name).filter fun value => !(emptyCounts && value.isEmpty)

/-- The pattern that pieces amount to. -/
def patternOf (pieces : List Piece) : Pattern := pieces.flatMap Piece.pattern

/-- The text that pieces amount to. -/
def textOf (pieces : List Piece) : Text := (patternOf pieces).text

/-- The text of an expression's value. The expression may set variables. -/
def evaluateText (expression : Text) : Action Text := do
  let s ← get
  match Arithmetic.evaluate (fun name => (s.parameter? name).getD []) expression with
  | .error words => abort words.toList
  | .ok (value, assigned) =>
    assigned.forM fun (name, text) => assign name text
    return (toString value).toList

mutual

/-- The pieces of a part of a word. Inside of a value, characters may be split. The output of a
script is left to `capture`. -/
def expandPart (capture : Nat → Text → Action Text) (isValue : Bool) :
    WordPart → Action (List Piece)
  | .plain c => return [if isValue then .value [c] else .fixed [⟨c, false⟩]]
  | .quoted s => return [.fixed (.ofText s)]
  | .malformed => abort "Bad substitution".toList
  | .substitution line script _ isQuoted => return valuePieces isQuoted (← capture line script)
  | .arithmetic expression isQuoted => do
    let text := textOf (← expandParts capture false expression)
    return valuePieces isQuoted (← evaluateText text)
  | .parameter name use argument isQuoted => do
    match use with
    | .value => plainPieces name isQuoted
    | .length =>
      return valuePieces isQuoted (Nat.toDigits 10 (← needValue name).length)
    | .orElse emptyCounts =>
      match ← present? name emptyCounts with
      | some _ => plainPieces name isQuoted
      | none => expandParts capture (!isQuoted) argument
    | .instead emptyCounts =>
      match ← present? name emptyCounts with
      | some _ => expandParts capture (!isQuoted) argument
      | none => return []
    | .orAssign emptyCounts =>
      match ← present? name emptyCounts with
      | some value => return valuePieces isQuoted value
      | none =>
        let value := textOf (← expandParts capture false argument)
        assign name value
        return valuePieces isQuoted value
    | .orFail emptyCounts =>
      match ← present? name emptyCounts with
      | some _ => plainPieces name isQuoted
      | none =>
        let words := textOf (← expandParts capture false argument)
        let usual := "parameter not set" ++ if emptyCounts then " or null" else ""
        abort (name ++ ": ".toList ++ if argument.isEmpty then usual.toList else words)
    | .withoutFront longest =>
      let value ← needValue name
      let pattern := patternOf (← expandParts capture false argument)
      return valuePieces isQuoted (pattern.trimFront longest value)
    | .withoutBack longest =>
      let value ← needValue name
      let pattern := patternOf (← expandParts capture false argument)
      return valuePieces isQuoted (pattern.trimBack longest value)

/-- The pieces of several parts. -/
def expandParts (capture : Nat → Text → Action Text) (isValue : Bool) :
    List WordPart → Action (List Piece)
  | [] => return []
  | part :: rest => do
    let pieces ← expandPart capture isValue part
    return pieces ++ (← expandParts capture isValue rest)

end

/-! ### Words -/

/-- A word with the home directory in place of a tilde at its front. -/
def expandTilde (word : Word) : Action Word := do
  match (← get).variableValue? "HOME".toList, word with
  | some home, [.plain '~'] => return [.quoted home]
  | some home, .plain '~' :: .plain '/' :: rest => return .quoted home :: .plain '/' :: rest
  | _, _ => return word

/-- The pieces of a word. -/
def expandWord (capture : Nat → Text → Action Text) (word : Word) : Action (List Piece) := do
  expandParts capture false (← expandTilde word)

/-- The **text** that a word stands for, where nothing is split. -/
def expandText (capture : Nat → Text → Action Text) (word : Word) : Action Text := do
  return textOf (← expandWord capture word)

/-- The pattern that a word stands for. -/
def expandPattern (capture : Nat → Text → Action Text) (word : Word) : Action Pattern := do
  return patternOf (← expandWord capture word)

/-- The **fields** that words stand for. -/
def expandFields (capture : Nat → Text → Action Text) : List Word → Action (List Text)
  | [] => return []
  | word :: rest => do
    let pieces ← expandWord capture word
    let s ← get
    let fields := FieldList.ofPieces s.separators pieces
    let texts := if s.isOn "noglob" then fields.map Pattern.text
      else fields.flatMap (pathsMatching s.tree)
    return texts ++ (← expandFields capture rest)

end Action

end ScriptBundle.Shell
