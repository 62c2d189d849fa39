import ScriptBundle.Shell.Word
import ScriptBundle.Text.Numeral

/-!
# Shell Arithmetic

Integer expressions of a shell script, in words of 64 bits with a sign.

## Main definitions

* `word64`: an integer as it is kept in a word;
* `Arithmetic.evaluate`: the value of an expression, with the variables it sets.

## Main statements

* `word64_of_small`: small integers are kept as they are.
-/

namespace ScriptBundle.Shell

/-- The number of words of 64 bits. -/
def wordCount : Nat := 18446744073709551616

/-- An integer as it is kept in a **word** of 64 bits. -/
def word64 (i : Int) : Int := Int.bmod i wordCount

/-- Small integers are kept as they are. -/
theorem word64_of_small {i : Int} (h : 0 ≤ i) (hi : i < 9223372036854775808) : word64 i = i := by
  unfold word64 wordCount
  rw [Int.bmod_def]
  omega

/-- The number that a text in the notation of the language C is. -/
def number64? (s : Text) : Option Int :=
  let (isNegative, s) := match s with
    | '-' :: rest => (true, rest)
    | '+' :: rest => (false, rest)
    | _ => (false, s)
  let value? := match s with
    | '0' :: 'x' :: digits => Text.number? 16 digits
    | '0' :: 'X' :: digits => Text.number? 16 digits
    | '0' :: digits => if digits.isEmpty then some 0 else Text.number? 8 digits
    | digits => Text.number? 10 digits
  value?.map fun value => if isNegative then -(value : Int) else value

namespace Arithmetic

/-- A token of an expression. -/
inductive Token where
  | number (value : Int)
  | name (s : Text)
  | operator (s : String)
  | unknown
  deriving DecidableEq, Repr

/-- The operators, longer ones first. -/
def operators : List String :=
  ["<<", ">>", "<=", ">=", "==", "!=", "&&", "||", "+=", "-=", "*=", "/=", "%=", "+", "-", "*", "/",
   "%", "<", ">", "!", "~", "&", "^", "|", "?", ":", "(", ")", "="]

/-- The numeral at the front of a text that starts with a digit. -/
def numeral : Text → Text
  | '0' :: x :: rest =>
    let digits := rest.takeWhile fun c => ((digit? c).filter (· < 16)).isSome
    if (x = 'x' ∨ x = 'X') ∧ !digits.isEmpty then '0' :: x :: digits
    else '0' :: (x :: rest).takeWhile fun c => '0' ≤ c && c ≤ '7'
  | s => s.takeWhile Char.isDigit

/-- The tokens of an expression. -/
def scan : (budget : Nat) → Text → List Token
  | 0, _ => []
  | _, [] => []
  | n + 1, c :: rest =>
    if " \t\n".toList.contains c then scan n rest
    else if c.isDigit then
      let digits := numeral (c :: rest)
      ((number64? digits).elim .unknown .number) :: scan n ((c :: rest).drop digits.length)
    else if startsName c then
      let s := c :: rest.takeWhile continuesName
      .name s :: scan n ((c :: rest).drop s.length)
    else
      match operators.find? fun s => s.toList.isPrefixOf (c :: rest) with
      | some s => .operator s :: scan n ((c :: rest).drop s.length)
      | none => [.unknown]

/-- What is wrong with an expression. -/
inductive Fault where
  | divisionByZero
  | expecting (what : String)
  /-- The value of a variable is no number. -/
  | notANumber (value : Text)
  deriving DecidableEq, Repr

/-- What is said of an expression with a fault. -/
def Fault.message (expression : Text) : Fault → String
  | divisionByZero =>
    "arithmetic expression: division by zero: \"" ++ String.ofList expression ++ "\""
  | expecting what =>
    "arithmetic expression: expecting " ++ what ++ ": \"" ++ String.ofList expression ++ "\""
  | notANumber value => "Illegal number: " ++ String.ofList value

/-- What an expression is read and evaluated with. -/
structure State where
  tokens : List Token
  /-- The variables that were set, the latest one first. -/
  assigned : List (Text × Text) := []

/-- Evaluates a part of an expression. It may meet a fault. -/
abbrev Evaluator := StateT State (Except Fault)

/-- How closely an operator with two operands binds. -/
def binding? : String → Option Nat
  | "||" => some 1
  | "&&" => some 2
  | "|" => some 3
  | "^" => some 4
  | "&" => some 5
  | "==" => some 6
  | "!=" => some 6
  | "<" => some 7
  | "<=" => some 7
  | ">" => some 7
  | ">=" => some 7
  | "<<" => some 8
  | ">>" => some 8
  | "+" => some 9
  | "-" => some 9
  | "*" => some 10
  | "/" => some 10
  | "%" => some 10
  | _ => none

/-- The number that a truth value counts as. -/
def ofBool (b : Bool) : Int := if b then 1 else 0

/-- The bits of an integer as a natural number. -/
def bits (i : Int) : Nat := (i % wordCount).toNat

/-- The value of an operator with two operands. -/
def apply (operator : String) (a b : Int) : Except Fault Int :=
  match operator with
  | "||" => .ok (ofBool (a != 0 || b != 0))
  | "&&" => .ok (ofBool (a != 0 && b != 0))
  | "|" => .ok (word64 (Nat.lor (bits a) (bits b)))
  | "^" => .ok (word64 (Nat.xor (bits a) (bits b)))
  | "&" => .ok (word64 (Nat.land (bits a) (bits b)))
  | "==" => .ok (ofBool (a == b))
  | "!=" => .ok (ofBool (a != b))
  | "<" => .ok (ofBool (a < b))
  | "<=" => .ok (ofBool (a ≤ b))
  | ">" => .ok (ofBool (b < a))
  | ">=" => .ok (ofBool (b ≤ a))
  | "<<" => .ok (word64 (a * ((1 <<< (bits b % 64) : Nat) : Int)))
  | ">>" => .ok (Int.fdiv a ((1 <<< (bits b % 64) : Nat) : Int))
  | "+" => .ok (word64 (a + b))
  | "-" => .ok (word64 (a - b))
  | "*" => .ok (word64 (a * b))
  | "/" => if b = 0 then .error .divisionByZero else .ok (word64 (Int.tdiv a b))
  | "%" => if b = 0 then .error .divisionByZero else .ok (Int.tmod a b)
  | _ => .error (.expecting "EOF")

/-- Takes the next token if it is one of some operators. -/
def operator? (isWanted : String → Bool) : Evaluator (Option String) := do
  match (← get).tokens with
  | .operator s :: rest =>
    if isWanted s then
      modify fun state => { state with tokens := rest }
      return some s
    else return none
  | _ => return none

/-- Takes an operator, which must be there. -/
def expect (s : String) : Evaluator Unit := do
  if (← operator? (· == s)).isNone then throw (.expecting ("'" ++ s ++ "'"))

/-- The value of a variable, where one without a value counts as zero. -/
def valueOf (value : Text → Text) (name : Text) : Evaluator Int := do
  let text := ((← get).assigned.lookup name).getD (value name)
  if text.isEmpty then return 0
  match number64? text with
  | some i => return word64 i
  | none => throw (.notANumber text)

mutual

/-- Evaluates an expression. What is not `live` is read only. -/
def whole (value : Text → Text) : (budget : Nat) → (live : Bool) → Evaluator Int
  | 0, _ => throw (.expecting "primary")
  | n + 1, live => do
    match (← get).tokens with
    | .name name :: .operator s :: rest =>
      if ["=", "+=", "-=", "*=", "/=", "%="].contains s then
        modify fun state => { state with tokens := rest }
        let right ← whole value n live
        let result ← (do
          if s = "=" then return right
          match apply (String.singleton (s.toList.headD ' ')) (← valueOf value name) right with
          | .ok i => return i
          | .error cause => if live then throw cause else return 0 : Evaluator Int)
        if live then
          modify fun state =>
            { state with assigned := (name, (toString result).toList) :: state.assigned }
        return result
      else conditional value n live
    | _ => conditional value n live

/-- Evaluates a choice between two expressions. -/
def conditional (value : Text → Text) : (budget : Nat) → (live : Bool) → Evaluator Int
  | 0, _ => throw (.expecting "primary")
  | n + 1, live => do
    let test ← binaryFrom value n live 1 (← unary value n live)
    if (← operator? (· == "?")).isSome then
      let first ← whole value n (live && test != 0)
      expect ":"
      let second ← conditional value n (live && test == 0)
      return if test != 0 then first else second
    else return test

/-- Goes on behind an operand with operators that bind at least as closely as `least`. -/
def binaryFrom (value : Text → Text) :
    (budget : Nat) → (live : Bool) → (least : Nat) → Int → Evaluator Int
  | 0, _, _, left => return left
  | n + 1, live, least, left => do
    match ← operator? fun s => (binding? s).any (least ≤ ·) with
    | none => return left
    | some s =>
      let rightLive := live && (s != "&&" || left != 0) && (s != "||" || left == 0)
      let right ← binaryFrom value n rightLive ((binding? s).getD 0 + 1) (← unary value n rightLive)
      match apply s left right with
      | .ok i => binaryFrom value n live least i
      | .error cause => if live then throw cause else binaryFrom value n live least 0

/-- Evaluates an operand. -/
def unary (value : Text → Text) : (budget : Nat) → (live : Bool) → Evaluator Int
  | 0, _ => throw (.expecting "primary")
  | n + 1, live => do
    match (← get).tokens with
    | .number i :: rest =>
      modify fun state => { state with tokens := rest }
      return word64 i
    | .name name :: rest =>
      modify fun state => { state with tokens := rest }
      if live then valueOf value name else return 0
    | .operator s :: rest =>
      modify fun state => { state with tokens := rest }
      match s with
      | "-" => return word64 (-(← unary value n live))
      | "+" => unary value n live
      | "!" => return ofBool ((← unary value n live) == 0)
      | "~" => return word64 (-(← unary value n live) - 1)
      | "(" =>
        let inner ← whole value n live
        expect ")"
        return inner
      | _ => throw (.expecting "primary")
    | _ => throw (.expecting "primary")

end

/-- The value of an **expression**, and the variables that it sets. -/
def evaluate (value : Text → Text) (expression : Text) :
    Except String (Int × List (Text × Text)) :=
  let tokens := scan (expression.length + 1) expression
  if tokens.isEmpty then .ok (0, [])
  else
    match (whole value (8 * (tokens.length + 1)) true).run { tokens } with
    | .error cause => .error (cause.message expression)
    | .ok (i, state) =>
      if state.tokens.isEmpty then .ok (i, state.assigned.reverse)
      else .error (Fault.message expression (.expecting "EOF"))

end Arithmetic

end ScriptBundle.Shell
