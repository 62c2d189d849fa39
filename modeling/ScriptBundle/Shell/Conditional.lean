import ScriptBundle.FileTree.Walk
import ScriptBundle.Shell.State

/-!
# Conditions

The expressions of the command `test`.

## Main definitions

* `TestToken`: what an operand is read as;
* `testOperands`: the truth of the operands of `test`.
-/

namespace ScriptBundle.Shell

/-- What an operand is read as. -/
inductive TestToken where
  | operand
  | unary
  | binary
  | andThen
  | orElse
  | negation
  | opening
  | closing
  | stop
  deriving DecidableEq, Repr

/-- What an operand can be read as, by itself. -/
def operatorOf (s : Text) : TestToken :=
  let s := String.ofList s
  if ["-r", "-w", "-x", "-e", "-f", "-d", "-c", "-b", "-p", "-u", "-g", "-k", "-s", "-t", "-z",
    "-n", "-h", "-O", "-G", "-L", "-S"].contains s then .unary
  else if ["=", "!=", "<", ">", "-eq", "-ne", "-ge", "-gt", "-le", "-lt", "-nt", "-ot",
    "-ef"].contains s then .binary
  else
    match s with
    | "-a" => .andThen
    | "-o" => .orElse
    | "!" => .negation
    | "(" => .opening
    | ")" => .closing
    | _ => .operand

/-- What the first of some operands is read as. An operator that has nothing to work on is an
operand. -/
def testToken : List Text → TestToken
  | [] => .stop
  | first :: rest =>
    match operatorOf first, rest with
    | .unary, [] => .operand
    | .unary, [_] => .unary
    | .unary, second :: _ => if operatorOf second = .binary then .operand else .unary
    | .opening, [] => .operand
    | token, _ => token

/-- The value of an operand that has to be a number. -/
def testNumber (s : Text) : Except Text Int :=
  let trimmed := ((s.dropWhile isSpace).reverse.dropWhile isSpace).reverse
  let found? : Option Int := match trimmed with
    | '-' :: digits => (Text.number? 10 digits).map fun n => -(n : Int)
    | '+' :: digits => (Text.number? 10 digits).map Int.ofNat
    | digits => (Text.number? 10 digits).map Int.ofNat
  match found? with
  | some i => .ok i
  | none => .error ("Illegal number: ".toList ++ s)

/-- The truth of an operator with one operand. -/
def testUnary (s : ShellState) (operator operand : Text) : Except Text Bool :=
  let node? := s.tree.node? (scriptPath operand)
  let isDevice := operand = "/dev/null".toList
  match String.ofList operator with
  | "-e" => .ok (node?.isSome || isDevice)
  | "-r" => .ok (node?.isSome || isDevice)
  | "-w" => .ok (node?.isSome || isDevice)
  | "-O" => .ok node?.isSome
  | "-G" => .ok node?.isSome
  | "-x" => .ok (s.mayRun operand)
  | "-f" => .ok (node?.any FileNode.isFile)
  | "-d" => .ok (node?.any FileNode.isDirectory)
  | "-c" => .ok isDevice
  | "-h" => .ok (s.tree.isLink (scriptPath operand))
  | "-L" => .ok (s.tree.isLink (scriptPath operand))
  | "-s" => .ok <| node?.any fun
    | .file content => 0 < content.size
    | _ => true
  | "-n" => .ok (!operand.isEmpty)
  | "-z" => .ok operand.isEmpty
  | "-t" => (testNumber operand).map fun _ => false
  | _ => .ok false

/-- The truth of an operator with two operands. No file is newer or older than another one. -/
def testBinary (s : ShellState) (left operator right : Text) : Except Text Bool :=
  let numbers (holds : Int → Int → Bool) : Except Text Bool := do
    return holds (← testNumber left) (← testNumber right)
  match String.ofList operator with
  | "=" => .ok (left == right)
  | "!=" => .ok (left != right)
  | "<" => .ok (left != right && dictionaryOrder charOrder left right)
  | ">" => .ok (left != right && dictionaryOrder charOrder right left)
  | "-eq" => numbers (· == ·)
  | "-ne" => numbers (· != ·)
  | "-lt" => numbers (· < ·)
  | "-le" => numbers (· ≤ ·)
  | "-gt" => numbers (· > ·)
  | "-ge" => numbers (· ≥ ·)
  | "-ef" => .ok <| match s.tree.locate (scriptPath left), s.tree.locate (scriptPath right) with
    | .ok first, .ok second => first == second
    | _, _ => false
  | _ => .ok false

/-- The truth of an expression, and the operands from its last one on. -/
abbrev TestResult := Except Text (Bool × List Text)

mutual

/-- The truth of the alternatives at the front of some operands, the first of which is read as
`token`. -/
def testAny (s : ShellState) : (budget : Nat) → (token : TestToken) → List Text → TestResult
  | 0, _, operands => .ok (false, operands)
  | n + 1, token, operands =>
    match testAll s n token operands with
    | .error words => .error words
    | .ok (holds, rest) =>
      if testToken rest.tail = .orElse then
        (testAny s n (testToken (rest.drop 2)) (rest.drop 2)).map fun (other, rest) =>
          (holds || other, rest)
      else .ok (holds, rest)

/-- The truth of the conjunction at the front of some operands. -/
def testAll (s : ShellState) : (budget : Nat) → (token : TestToken) → List Text → TestResult
  | 0, _, operands => .ok (false, operands)
  | n + 1, token, operands =>
    match testOne s n token operands with
    | .error words => .error words
    | .ok (holds, rest) =>
      if testToken rest.tail = .andThen then
        (testAll s n (testToken (rest.drop 2)) (rest.drop 2)).map fun (other, rest) =>
          (holds && other, rest)
      else .ok (holds, rest)

/-- The truth of the primary at the front of some operands. -/
def testOne (s : ShellState) : (budget : Nat) → (token : TestToken) → List Text → TestResult
  | 0, _, operands => .ok (false, operands)
  | n + 1, token, operands =>
    match token, operands with
    | .negation, first :: rest =>
      let operands := if rest.isEmpty then [first] else rest
      (testOne s n (testToken rest) operands).map fun (holds, rest) => (!holds, rest)
    | .stop, _ => .ok (false, operands)
    | .opening, _ :: rest =>
      if testToken rest = .closing then .ok (false, rest)
      else
        match testAny s n (testToken rest) rest with
        | .error words => .error words
        | .ok (holds, rest) =>
          if testToken rest.tail = .closing then .ok (holds, rest.tail)
          else .error "closing paren expected".toList
    | .unary, operator :: operand :: rest =>
      (testUnary s operator operand).map fun holds => (holds, operand :: rest)
    | .unary, [operator] => .error (operator ++ ": argument expected".toList)
    | _, left :: operator :: rest =>
      if testToken (operator :: rest) = .binary then
        match rest with
        | [] => .error (operator ++ ": argument expected".toList)
        | right :: _ => (testBinary s left operator right).map fun holds => (holds, rest)
      else .ok (!left.isEmpty, operands)
    | _, [operand] => .ok (!operand.isEmpty, operands)
    | _, [] => .ok (false, [])

end

/-- The truth of an expression, of which nothing may be left. -/
def testWhole (s : ShellState) (token : TestToken) (operands : List Text) : Except Text Bool :=
  match testAny s (4 * operands.length + 4) token operands with
  | .error words => .error words
  | .ok (_, last :: _ :: _) =>
    .error ((if last.isEmpty then [] else last ++ ": ".toList) ++ "unexpected operator".toList)
  | .ok (holds, _) => .ok holds

/-- The truth of the **operands** of `test`, or what is wrong with them. Up to four operands are
read by their number first. -/
def testOperands (s : ShellState) : List Text → Except Text Bool
  | [] => .ok false
  | [first, second, third] =>
    if operatorOf second = .binary then testWhole s .operand [first, second, third]
    else if first = ['('] ∧ third = [')'] then testWhole s (testToken [second]) [second]
    else if first = ['!'] then (testOperands s [second, third]).map (!·)
    else testWhole s (testToken [first, second, third]) [first, second, third]
  | [first, second, third, fourth] =>
    if first = ['('] ∧ fourth = [')'] then
      testWhole s (testToken [second, third]) [second, third]
    else if first = ['!'] then (testOperands s [second, third, fourth]).map (!·)
    else testWhole s (testToken [first, second, third, fourth]) [first, second, third, fourth]
  | operands => testWhole s (testToken operands) operands

end ScriptBundle.Shell
