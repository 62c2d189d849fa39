import ScriptBundle.Shell.Filter
import ScriptBundle.Shell.Regex.Reader
import ScriptBundle.Text.Order

/-!
# Calculating

The program `expr`, which evaluates an expression of its arguments, and the program `seq`, which
counts.

## Main definitions

* `Expression.evaluate`: the value of an expression;
* `Decimal`: numbers with decimal places;
* `Calculation.ofName?`: the program of a name.

## Main statements

* `Expression.truth_value`: the value of a truth is a truth.
-/

namespace ScriptBundle.Shell

/-! ### Expressions -/

namespace Expression

/-- The whole number that a value is. -/
def integer? (s : Text) : Option Int :=
  match s with
  | '-' :: digits => (Text.number? 10 digits).map fun n => -(n : Int)
  | digits => (Text.number? 10 digits).map fun n => (n : Int)

/-- Whether a value counts as true: it is neither empty nor zero. -/
def isTrue (s : Text) : Bool := !s.isEmpty && integer? s != some 0

/-- The value of a truth. -/
def truth (holds : Bool) : Text := if holds then ['1'] else ['0']

/-- The value of a truth is a truth. -/
theorem truth_value (holds : Bool) : isTrue (truth holds) = holds := by
  cases holds <;> rfl

/-- The text of a whole number. -/
def textOf (i : Int) : Text := (toString i).toList

/-- The value of a comparison. -/
def compared (operator : Text) (left right : Text) : Option Text :=
  let order : Ordering := match integer? left, integer? right with
    | some i, some j => compare i j
    | _, _ => if left = right then .eq else if dictionaryOrder charOrder left right then .lt
      else .gt
  match String.ofList operator with
  | "<" => some (truth (order == .lt))
  | "<=" => some (truth (order != .gt))
  | "=" => some (truth (order == .eq))
  | "==" => some (truth (order == .eq))
  | "!=" => some (truth (order != .eq))
  | ">=" => some (truth (order != .lt))
  | ">" => some (truth (order == .gt))
  | _ => none

/-- The value of a calculation. -/
def calculated (operator : Char) (left right : Text) : Except Text Text :=
  match integer? left, integer? right with
  | some i, some j =>
    match operator with
    | '+' => .ok (textOf (i + j))
    | '-' => .ok (textOf (i - j))
    | '*' => .ok (textOf (i * j))
    | _ =>
      if j = 0 then .error "division by zero".toList
      else .ok (textOf (if operator = '/' then Int.tdiv i j else Int.tmod i j))
  | _, _ => .error "non-integer argument".toList

/-- The part of a text at its front that has a written form: what the first group stands for, or
else the length. -/
def matched (s written : Text) : Except Text Text :=
  match Regex.read .basic false written with
  | .error words => .error words.toList
  | .ok r =>
    let hasGroup := Text.contains "\\(".toList written
    match r.longest? none s with
    | some n =>
      if hasGroup then
        .ok (((r.groups none (s.drop n).head? (s.take n)).lookup 1).getD [])
      else .ok (Nat.toDigits 10 n)
    | none => .ok (if hasGroup then [] else ['0'])

/-- The operators of each level, the weakest ones first. -/
def levels : List (List String) :=
  [["|"], ["&"], ["<", "<=", "=", "==", "!=", ">=", ">"], ["+", "-"], ["*", "/", "%"], [":"]]

/-- The value of two values and an operator between them. -/
def combined (operator left right : Text) : Except Text Text :=
  match operator with
  | ['|'] => .ok (if isTrue left then left else if isTrue right then right else ['0'])
  | ['&'] => .ok (if isTrue left && isTrue right then left else ['0'])
  | [':'] => matched left right
  | _ =>
    match compared operator left right with
    | some value => .ok value
    | none => calculated (operator.headD ' ') left right

/-- What is said of an argument that is missing behind another one. -/
def missingAfter (argument : Text) : Text :=
  "syntax error: missing argument after ".toList ++ inQuotes argument

mutual

/-- The value of the operands at the front that the operators of a level hold together. -/
def evaluateLevel (last : Text) :
    (budget : Nat) → List (List String) → List Text → Except Text (Text × List Text)
  | 0, _, _ => .error "syntax error".toList
  | n + 1, [], arguments => evaluateOperand last n arguments
  | n + 1, operators :: higher, arguments => do
    let (value, rest) ← evaluateLevel last n higher arguments
    evaluateFrom last n operators higher value rest

/-- Goes on with the operators of a level behind a value. -/
def evaluateFrom (last : Text) :
    (budget : Nat) → List String → List (List String) → Text → List Text →
      Except Text (Text × List Text)
  | 0, _, _, _, _ => .error "syntax error".toList
  | n + 1, operators, higher, left, arguments =>
    match arguments with
    | operator :: rest =>
      if operators.contains (String.ofList operator) then do
        if rest.isEmpty then throw (missingAfter operator)
        let (right, rest) ← evaluateLevel last n higher rest
        evaluateFrom last n operators higher (← combined operator left right) rest
      else .ok (left, arguments)
    | [] => .ok (left, [])

/-- The value of the operand at the front. -/
def evaluateOperand (last : Text) :
    (budget : Nat) → List Text → Except Text (Text × List Text)
  | 0, _ => .error "syntax error".toList
  | _, [] => .error (missingAfter last)
  | n + 1, argument :: rest => do
    match String.ofList argument, rest with
    | "(", rest =>
      let (value, rest) ← evaluateLevel last n levels rest
      match rest with
      | [')'] :: rest => return (value, rest)
      | found :: _ =>
        throw ("syntax error: expecting ')' instead of ".toList ++ inQuotes found)
      | [] => throw ("syntax error: expecting ')' after ".toList ++ inQuotes last)
    | "+", token :: rest => return (token, rest)
    | "length", rest =>
      if rest.isEmpty then return (argument, [])
      let (value, rest) ← evaluateOperand last n rest
      return (Nat.toDigits 10 value.length, rest)
    | "match", first :: second :: rest =>
      return (← matched first second, rest)
    | "index", s :: set :: rest =>
      let front := s.takeWhile (· ∉ set)
      return (if front.length < s.length then Nat.toDigits 10 (front.length + 1) else ['0'], rest)
    | "substr", s :: start :: size :: rest =>
      let number (s : Text) : Nat := ((integer? s).getD 0).toNat
      let part := if number start = 0 then [] else (s.drop (number start - 1)).take (number size)
      return (part, rest)
    | _, rest => return (argument, rest)

end

/-- The **value** of an expression, or what is wrong with it. -/
def evaluate (arguments : List Text) : Except Text Text := do
  let last := arguments.getLast?.getD []
  let budget := 16 * (arguments.length + 1)
  match ← evaluateLevel last budget levels arguments with
  | (value, []) => return value
  | (_, extra :: _) => throw ("syntax error: unexpected argument ".toList ++ inQuotes extra)

end Expression

/-! ### Decimals -/

/-- A **number** with decimal places: an integer of units that are so small. -/
structure Decimal where
  units : Int
  places : Nat
  deriving DecidableEq, Repr

namespace Decimal

/-- The number of units in one. -/
def scale (places : Nat) : Nat := (List.replicate places 10).foldl (· * ·) 1

/-- A number in units so small that it has `places` decimal places, which are no fewer. -/
def unitsAt (d : Decimal) (places : Nat) : Int := d.units * scale (places - d.places)

/-- Reads a number. -/
def read? (s : Text) : Option Decimal :=
  let (sign, body) : Int × Text := match s with
    | '-' :: rest => (-1, rest)
    | '+' :: rest => (1, rest)
    | _ => (1, s)
  let whole := body.takeWhile Char.isDigit
  let (fraction, rest) := match body.drop whole.length with
    | '.' :: rest => (rest.takeWhile Char.isDigit, rest.dropWhile Char.isDigit)
    | rest => ([], rest)
  let value? := (Text.number? 10 (whole ++ fraction)).map fun n => (n : Int)
  match rest with
  | [] => value?.map fun n => ⟨sign * n, fraction.length⟩
  | e :: digits =>
    if e = 'e' ∨ e = 'E' then
      value?.bind fun n => (Text.number? 10 digits).map fun exponent =>
        if exponent ≤ fraction.length then ⟨sign * n, fraction.length - exponent⟩
        else ⟨sign * n * scale (exponent - fraction.length), 0⟩
    else none

/-- The text of a number with all of its places. -/
def text (d : Decimal) : Text :=
  let digits := Nat.toDigits 10 d.units.natAbs
  let full := List.replicate (d.places + 1 - digits.length) '0' ++ digits
  let whole := full.take (full.length - d.places)
  let fraction := full.drop (full.length - d.places)
  (if d.units < 0 then ['-'] else []) ++ whole ++
    if fraction.isEmpty then [] else '.' :: fraction

/-- The text of a number without the zeros at its end. -/
def shortText (d : Decimal) : Text :=
  if d.places = 0 then d.text
  else
    let trimmed := (d.text.reverse.dropWhile (· == '0')).reverse
    if trimmed.getLast? = some '.' then trimmed.dropLast else trimmed

end Decimal

namespace Calculation

/-- The program `expr`. -/
def expr : Program := fun arguments => do
  let arguments := if arguments.head? = some ['-', '-'] then arguments.tail else arguments
  match arguments with
  | [] => Program.misuse { name := "expr", misuseStatus := 2 } "missing operand".toList
  | _ =>
    match Expression.evaluate arguments with
    | .ok value =>
      Action.writeLine value
      Action.setTruth (Expression.isTrue value)
    | .error words => Program.fail "expr" words 2

/-- The numbers from one to another, in units. -/
def numbersFrom (step last : Int) : (budget : Nat) → Int → List Int
  | 0, _ => []
  | n + 1, i =>
    if (0 < step ∧ last < i) ∨ (step < 0 ∧ i < last) then []
    else i :: numbersFrom step last n (i + step)

/-- A number in the place of a directive of a format. -/
def formatted (d : Decimal) : Text → Text
  | '%' :: '%' :: rest => '%' :: formatted d rest
  | '%' :: rest =>
    let flags := rest.takeWhile "#-+ 0".toList.contains
    let (width, behind) := readMeasure (rest.drop flags.length)
    let (places?, behind) := match behind with
      | '.' :: rest =>
        let (found, rest) := readMeasure rest
        (some found, rest)
      | _ => (none, behind)
    let size (m : Option Measure) : Nat := match m with
      | some (.fixed n) => n
      | _ => 0
    let body := match behind.head?, places? with
      | some 'f', some m =>
        let places := size m
        if d.places ≤ places then
          Decimal.text ⟨d.unitsAt places, places⟩
        else Decimal.text ⟨(d.units + Decimal.scale (d.places - places) / 2) /
          Decimal.scale (d.places - places), places⟩
      | some 'f', none => Decimal.text ⟨d.unitsAt (max 6 d.places), max 6 d.places⟩
      | _, _ => d.shortText
    let padding := List.replicate (size width - body.length)
      (if '0' ∈ flags ∧ '-' ∉ flags then '0' else ' ')
    (if '-' ∈ flags then body ++ padding else padding ++ body) ++ behind.drop 1
  | c :: rest => c :: formatted d rest
  | [] => []
termination_by structural s => s

/-- The options of `seq`. -/
def seqUsage : Usage where
  name := "seq"
  flags := "w"
  valued := "sf"
  names := [("equal-width", "w"), ("separator=", "s"), ("format=", "f")]
  mixes := false

/-- Arguments in which negative numbers are no options. -/
def withNumbers (arguments : List Text) : List Text :=
  let isOption (argument : Text) : Bool := match argument with
    | '-' :: c :: _ => !(c.isDigit || c == '.')
    | _ => false
  let options := arguments.takeWhile fun argument => isOption argument
  match arguments.drop options.length with
  | first :: rest => if first.head? = some '-' then options ++ ['-', '-'] :: first :: rest
    else arguments
  | [] => arguments

/-- The program `seq`. -/
def seq : Program := fun arguments =>
  Program.withOptions seqUsage (fun a => do
    match a.operands.find? fun operand => (Decimal.read? operand).isNone with
    | some operand =>
      Program.misuse seqUsage ("invalid floating point argument: ".toList ++ inQuotes operand)
    | none =>
      let one : Decimal := ⟨1, 0⟩
      let range? : Option (Decimal × Decimal × Decimal) :=
        match a.operands.filterMap Decimal.read? with
        | [last] => some (one, one, last)
        | [first, last] => some (first, one, last)
        | [first, step, last] => some (first, step, last)
        | _ => none
      match range? with
      | none =>
        Program.misuse seqUsage (match a.operands with
          | _ :: _ :: _ :: extra :: _ => "extra operand ".toList ++ inQuotes extra
          | _ => "missing operand".toList)
      | some (first, step, last) =>
        if step.units = 0 then
          Program.misuse seqUsage ("invalid Zero increment value: ".toList ++
            inQuotes ((a.operands[1]?).getD []))
        else
          let places := max (max first.places step.places) last.places
          let shownPlaces := max first.places step.places
          let start := first.unitsAt places
          let goal := last.unitsAt places
          let numbers := numbersFrom (step.unitsAt places) goal ((goal - start).natAbs + 1) start
          let shown (i : Int) : Decimal :=
            ⟨i / Decimal.scale (places - shownPlaces), shownPlaces⟩
          let texts := numbers.map fun i => (shown i).text
          let width := (texts.map List.length).foldl max 0
          let padded (s : Text) : Text := match s with
            | '-' :: digits => '-' :: List.replicate (width - s.length) '0' ++ digits
            | digits => List.replicate (width - s.length) '0' ++ digits
          let texts := match a.value? "f" with
            | some format => numbers.map fun i => formatted (shown i) format
            | none => if a.has "w" then texts.map padded else texts
          if !texts.isEmpty then
            Action.writeLine (List.intercalate ((a.value? "s").getD ['\n']) texts))
    (withNumbers arguments)

/-- The program `yes`, as far as anyone reads it. -/
def yes : Program := fun arguments => do
  let line := if arguments.isEmpty then ['y'] else spaced arguments
  Action.write (textBytes ((List.replicate 5000 (line ++ ['\n'])).flatten))
  Action.setStatus 0

/-- The **program** of a name. -/
def ofName? (name : String) : Option Program :=
  match name with
  | "expr" => some expr
  | "seq" => some seq
  | "yes" => some yes
  | _ => none

end Calculation

end ScriptBundle.Shell
