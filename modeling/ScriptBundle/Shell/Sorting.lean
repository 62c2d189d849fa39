import ScriptBundle.Shell.Filter
import ScriptBundle.Text.Order

/-!
# Sorting Lines

The programs that sort lines and compare lines that are sorted.

## Main definitions

* `SortKey`: a part of a line by which lines are sorted;
* `SortRules.compare`: the order of two lines;
* `Sorting.ofName?`: the program of a name.

## Main statements

* `SortRules.compare_self`: a line is neither before nor behind itself.
-/

namespace ScriptBundle.Shell

/-- A text behind its first field. Without a mark between them, fields start with blanks. -/
def behindField (mark : Option Char) (s : Text) : Text :=
  match mark with
  | some c => (s.dropWhile (· ≠ c)).drop 1
  | none => (s.dropWhile isBlankChar).dropWhile (!isBlankChar ·)

/-- A text behind so many fields. -/
def behindFields (mark : Option Char) : (count : Nat) → Text → Text
  | 0, s => s
  | n + 1, s => behindFields mark n (behindField mark s)

/-! ### Orders -/

/-- The order of texts by their characters. -/
def compareTexts (s t : Text) : Ordering :=
  if s = t then .eq else if dictionaryOrder charOrder s t then .lt else .gt

/-- A text is equal to itself. -/
theorem compareTexts_self (s : Text) : compareTexts s s = .eq := by
  simp [compareTexts]

/-- A number at the front of a text, in units so small that it has `places` decimal places. -/
def scaledNumber (places : Nat) (s : Text) : Int :=
  let s := s.dropWhile isBlankChar
  let (isNegative, s) := match s with
    | '-' :: rest => (true, rest)
    | _ => (false, s)
  let whole := s.takeWhile Char.isDigit
  let fraction := match s.drop whole.length with
    | '.' :: rest => rest.takeWhile Char.isDigit
    | _ => []
  let digits := whole ++ fraction.take places ++ List.replicate (places - fraction.length) '0'
  let value : Int := ((Text.numberFrom? 10 0 digits).getD 0 : Nat)
  if isNegative then -value else value

/-- The rank of the unit behind a number. -/
def unitRank (s : Text) : Nat :=
  let behind := (s.dropWhile isBlankChar).dropWhile fun c => c.isDigit || c == '.' || c == '-'
  match behind with
  | c :: _ => ("KMGTPEZY".toList.idxOf c.toUpper + 1) % 9
  | [] => 0

/-- The parts of a text that consist of digits, and those that do not. -/
def digitRuns (s : Text) : List Text := s.splitBy fun a b => a.isDigit == b.isDigit

/-- The order of versions by their runs of digits and of other characters. -/
def compareRuns : List Text → List Text → Ordering
  | [], [] => .eq
  | [], _ => .lt
  | _, [] => .gt
  | x :: xs, y :: ys =>
    let first := match Text.number? 10 x, Text.number? 10 y with
      | some m, some n => compare m n
      | _, _ => compareTexts x y
    first.then (compareRuns xs ys)

/-- The order of texts that options name by their letters. -/
def compareBy (options s t : Text) : Ordering :=
  let places := max s.length t.length
  let numbers := compare (scaledNumber places s) (scaledNumber places t)
  let prepared (s : Text) : Text :=
    let s := if 'd' ∈ options then s.filter fun c => isBlankChar c || c.isAlphanum else s
    if 'f' ∈ options then s.map Char.toUpper else s
  if 'n' ∈ options ∨ 'g' ∈ options then numbers
  else if 'h' ∈ options then
    (compare (unitRank s) (unitRank t)).then numbers
  else if 'V' ∈ options then compareRuns (digitRuns s) (digitRuns t)
  else compareTexts (prepared s) (prepared t)

/-! ### Keys -/

/-- A **part of a line** by which lines are sorted: from a character of a field on, up to the end of
a field or a character in it. -/
structure SortKey where
  field : Nat
  char : Nat
  /-- The last field, and the last character in it unless it is taken as a whole. -/
  last : Option (Nat × Nat)
  options : Text
  deriving DecidableEq, Repr

namespace SortKey

/-- Reads a place in a line: a field, a character in it, and letters of options. -/
def readPlace (s : Text) : Nat × Nat × Text × Text :=
  let digits := s.takeWhile Char.isDigit
  let rest := s.drop digits.length
  let (chars, rest) := match rest with
    | '.' :: rest => (rest.takeWhile Char.isDigit, rest.dropWhile Char.isDigit)
    | _ => ([], rest)
  let letters := rest.takeWhile Char.isAlpha
  ((Text.number? 10 digits).getD 0, (Text.number? 10 chars).getD 0, letters,
    rest.drop letters.length)

/-- Reads a key. -/
def read (s : Text) : SortKey :=
  let (field, char, letters, rest) := readPlace s
  match rest with
  | ',' :: rest =>
    let (lastField, lastChar, lastLetters, _) := readPlace rest
    ⟨field - 1, char - 1, some (lastField, lastChar), letters ++ lastLetters⟩
  | _ => ⟨field - 1, char - 1, none, letters⟩

/-- The part of a line that a key names. -/
def part (mark : Option Char) (k : SortKey) (line : Text) : Text :=
  let trimmed (s : Text) : Text := if 'b' ∈ k.options then s.dropWhile isBlankChar else s
  let start := (trimmed (behindFields mark k.field line)).drop k.char
  let behind := match k.last with
    | none => []
    | some (field, 0) =>
      match mark with
      | none => behindFields mark field line
      | some c => (behindFields mark (field - 1) line).dropWhile (· ≠ c)
    | some (field, char) => (trimmed (behindFields mark (field - 1) line)).drop char
  start.take (start.length - behind.length)

end SortKey

/-- The **rules** by which lines are sorted. -/
structure SortRules where
  mark : Option Char
  keys : List SortKey
  options : Text
  /-- Whether lines that are equal by their keys are left in their order. -/
  isStable : Bool

namespace SortRules

/-- The order of two lines by a key. The options of all keys are for those without any. -/
def compareKey (rules : SortRules) (k : SortKey) (s t : Text) : Ordering :=
  let own := k.options.filter (· ≠ 'b')
  let options := if own.isEmpty then rules.options else k.options
  let k := { k with options := k.options ++ rules.options.filter (· == 'b') }
  let order := compareBy options (k.part rules.mark s) (k.part rules.mark t)
  if 'r' ∈ options then order.swap else order

/-- The order of two lines by all keys. -/
def compareKeys (rules : SortRules) (s t : Text) : Ordering :=
  match rules.keys with
  | [] =>
    let order := compareBy rules.options s t
    if 'r' ∈ rules.options then order.swap else order
  | keys => keys.foldl (fun order k => order.then (rules.compareKey k s t)) .eq

/-- The **order** of two lines. -/
def compare (rules : SortRules) (s t : Text) : Ordering :=
  let last := if rules.isStable then .eq
    else if 'r' ∈ rules.options then compareTexts t s else compareTexts s t
  (rules.compareKeys s t).then last

theorem compareBy_self (options s : Text) : compareBy options s s = .eq := by
  have hruns (runs : List Text) : compareRuns runs runs = .eq := by
    induction runs with
    | nil => rfl
    | cons x xs ih =>
      unfold compareRuns
      cases Text.number? 10 x <;> simp [ih, compareTexts_self]
  unfold compareBy
  simp [hruns, compareTexts_self]

theorem compareKey_self (rules : SortRules) (k : SortKey) (s : Text) :
    rules.compareKey k s s = .eq := by
  unfold compareKey
  simp [compareBy_self]

/-- A line is neither before nor behind itself. -/
theorem compare_self (rules : SortRules) (s : Text) : rules.compare s s = .eq := by
  have hkeys (keys : List SortKey) :
      keys.foldl (fun (order : Ordering) k => order.then (rules.compareKey k s s)) .eq =
        .eq := by
    induction keys with
    | nil => rfl
    | cons k keys ih => simpa only [List.foldl_cons, compareKey_self, Ordering.eq_then] using ih
  have hboth : rules.compareKeys s s = .eq := by
    unfold compareKeys
    split
    · simp [compareBy_self]
    · exact hkeys _
  simp [compare, hboth, compareTexts_self]

end SortRules

namespace Sorting

/-- The lines without those that are equal to the one before them. -/
def withoutRepeats (same : α → α → Bool) (lines : List α) : List α :=
  (lines.splitBy same).filterMap List.head?

/-- The options of `sort`. -/
def usage : Usage where
  name := "sort"
  flags := "bdfghinRrVcCmsuzM"
  valued := "kotTS"
  names := [("reverse", "r"), ("unique", "u"), ("numeric-sort", "n"), ("ignore-case", "f"),
    ("key=", "k"), ("field-separator=", "t"), ("output=", "o"), ("stable", "s"), ("check", "c"),
    ("ignore-leading-blanks", "b"), ("dictionary-order", "d"), ("human-numeric-sort", "h"),
    ("version-sort", "V"), ("general-numeric-sort", "g"), ("zero-terminated", "z"),
    ("merge", "m"), ("parallel=", "")]
  misuseStatus := 2

/-- The mark between fields that an option names. -/
def fieldMark? (a : ProgramArguments) : Option Char :=
  (a.value? "t").bind fun s => if s = "\\0".toList then some '\x00' else s.head?

/-- The rules that options amount to. -/
def rulesOf (a : ProgramArguments) : SortRules where
  mark := fieldMark? a
  keys := (a.values "k").map SortKey.read
  options := "bdfghnrV".toList.filter fun c => a.has (String.singleton c)
  isStable := a.has "s" || a.has "u"

/-- The program `sort`. -/
def sort : Program :=
  Program.withOptions usage fun a => do
    let rules := rulesOf a
    let mark : UInt8 := if a.has "z" then 0 else 0x0A
    let contents ← (Program.orInput a.operands).mapM fun operand => do
      match ← Program.contentOf operand with
      | .ok bytes => return bytes
      | .error .isADirectory =>
        Program.failOn "sort" ("read failed: ".toList ++ shellName operand) .isADirectory 2
        return []
      | .error cause =>
        Program.failOn "sort" ("cannot read: ".toList ++ shellName operand) cause 2
        return []
    let lines := contents.flatMap fun bytes => (byteLinesBy mark bytes).map fun line =>
      byteText (if line.getLast? = some mark then line.dropLast else line)
    if (← get).status = 0 then
      if a.has "c" || a.has "C" then
        let isWrong (pair : (Text × Text) × Nat) : Bool :=
          match rules.compare pair.1.1 pair.1.2 with
          | .gt => true
          | .eq => a.has "u"
          | .lt => false
        match ((lines.zip lines.tail).zipIdx 2).find? isWrong with
        | none => pure ()
        | some ((_, line), number) =>
          if a.has "C" then Action.setStatus 1
          else
            Program.fail "sort" (a.operands.headD ['-'] ++ ':' :: Nat.toDigits 10 number ++
              ": disorder: ".toList ++ line) 1
      else
        let sorted := lines.mergeSort fun s t => rules.compare s t != .gt
        let sorted := if a.has "u" then withoutRepeats (fun s t => rules.compare s t == .eq) sorted
          else sorted
        let bytes := sorted.flatMap fun line => textBytes line ++ [mark]
        match a.value? "o" with
        | none => Action.write bytes
        | some file =>
          match (← get).tree.writeFile (scriptPath file) ⟨bytes.toArray⟩ with
          | .ok tree => modify fun s => { s with tree }
          | .error cause =>
            Program.failOn "sort" ("open failed: ".toList ++ shellName file) cause 2

/-! ### Repeated lines -/

/-- The part of a line by which lines are told apart. -/
def comparedPart (a : ProgramArguments) (line : Text) : Text :=
  let number? (option : String) : Option Nat := (a.value? option).bind (Text.number? 10)
  let behind := (behindFields none ((number? "f").getD 0) line).drop ((number? "s").getD 0)
  let part := match number? "w" with
    | some width => behind.take width
    | none => behind
  if a.has "i" then part.map Char.toLower else part

/-- The program `uniq`. -/
def uniq : Program :=
  let u : Usage := { name := "uniq", flags := "cduiDz", valued := "fsw"
                     names := [("count", "c"), ("repeated", "d"), ("unique", "u"),
                       ("ignore-case", "i"), ("skip-fields=", "f"), ("skip-chars=", "s"),
                       ("check-chars=", "w"), ("all-repeated", "D")] }
  Program.withOptions u fun a => do
    let file := a.operands.headD ['-']
    match ← Program.contentOf file with
    | .error .isADirectory =>
      Program.failOn "uniq" ("error reading ".toList ++ inShellQuotes file) .isADirectory 1
    | .error cause => Program.failOn "uniq" (shellName file) cause 1
    | .ok bytes =>
      let lines := Program.linesOf bytes
      let runs := lines.splitBy fun s t => comparedPart a s == comparedPart a t
      let runs := runs.filter fun run =>
        if a.has "d" || a.has "D" then 1 < run.length
        else if a.has "u" then run.length == 1 else true
      let shown (run : List Text) : Text :=
        let digits := Nat.toDigits 10 run.length
        let count := if a.has "c" then
            List.replicate (7 - digits.length) ' ' ++ digits ++ [' '] else []
        let kept := if a.has "D" then run else run.take 1
        kept.flatMap fun line => count ++ line ++ ['\n']
      let output := textBytes (runs.flatMap shown)
      match a.operands[1]? with
      | none => Action.write output
      | some goal =>
        match (← get).tree.writeFile (scriptPath goal) ⟨output.toArray⟩ with
        | .ok tree => modify fun s => { s with tree }
        | .error cause => Program.failOn "uniq" (shellName goal) cause 1

/-! ### Common lines -/

/-- Lines of two files that are sorted, each with the files that it is in: the first one, the second
one or both. -/
def merged : (budget : Nat) → List Text → List Text → List (Nat × Text)
  | 0, _, _ => []
  | _, [], ys => ys.map fun y => (1, y)
  | _, xs, [] => xs.map fun x => (0, x)
  | n + 1, x :: xs, y :: ys =>
    match compareTexts x y with
    | .eq => (2, x) :: merged n xs ys
    | .lt => (0, x) :: merged n xs (y :: ys)
    | .gt => (1, y) :: merged n (x :: xs) ys

/-- The program `comm`. -/
def comm : Program :=
  let u : Usage := { name := "comm", flags := "123z"
                     names := [("check-order", ""), ("nocheck-order", "")] }
  Program.withOptions u fun a => do
    match a.operands with
    | [] => Program.misuse u "missing operand".toList
    | [operand] => Program.misuse u ("missing operand after ".toList ++ inQuotes operand)
    | first :: second :: _ =>
      match ← Program.contentOf first, ← Program.contentOf second with
      | .error cause, _ => Program.failOn "comm" (shellName first) cause 1
      | _, .error cause => Program.failOn "comm" (shellName second) cause 1
      | .ok left, .ok right =>
        let xs := Program.linesOf left
        let ys := Program.linesOf right
        let hidden (column : Nat) : Bool := a.has (toString (column + 1))
        (merged (xs.length + ys.length + 1) xs ys).forM fun (column, line) => do
          if !hidden column then
            let tabs := ((List.range column).filter (!hidden ·)).map fun _ => '\t'
            Action.writeLine (tabs ++ line)

/-! ### All of them -/

/-- The **program** of a name. -/
def ofName? (name : String) : Option Program :=
  match name with
  | "sort" => some sort
  | "uniq" => some uniq
  | "comm" => some comm
  | _ => none

end Sorting

end ScriptBundle.Shell
