import ScriptBundle.Shell.Filter
import ScriptBundle.Shell.Pattern

/-!
# Columns and Characters

The programs that take lines apart by columns and put them together, and that replace characters.

## Main definitions

* `Selection`: a choice of columns;
* `CharSet.read`: the characters that a set stands for;
* `Column.ofName?`: the program of a name.

## Main statements

* `Column.foldLine_flatten`: a line that is folded loses nothing.
-/

namespace ScriptBundle.Shell

/-! ### Selections -/

/-- A **choice** of columns, by ranges of which the last one need not have an end. -/
abbrev Selection := List (Nat × Option Nat)

namespace Selection

/-- Whether a column is chosen. -/
def holds (s : Selection) (column : Nat) : Bool :=
  s.any fun (first, last?) => first ≤ column && last?.all (column ≤ ·)

/-- Reads a range. -/
def readRange (kind : String) (s : Text) : Except Text (Nat × Option Nat) :=
  let front := s.takeWhile (· ≠ '-')
  let invalid : Text :=
    (if kind = "field" then "invalid field value " else "invalid byte/character position ").toList
  let number (digits : Text) : Except Text Nat :=
    match Text.number? 10 digits with
    | some 0 =>
      .error (if kind = "field" then "fields are numbered from 1".toList
        else "byte/character positions are numbered from 1".toList)
    | some n => .ok n
    | none => .error (invalid ++ inQuotes digits)
  match s.drop front.length with
  | [] => (number front).map fun n => (n, some n)
  | ['-'] =>
    if front.isEmpty then .error "invalid range with no endpoint: -".toList
    else (number front).map fun n => (n, none)
  | _ :: back => do
    let first ← if front.isEmpty then pure 1 else number front
    let last ← number back
    if last < first then throw "invalid decreasing range".toList
    return (first, some last)

/-- Reads a choice. -/
def read (kind : String) (s : Text) : Except Text Selection :=
  (s.splitOnP fun c => c == ',' || c == ' ').mapM (readRange kind)

end Selection

/-! ### Sets of characters -/

namespace CharSet


/-- Reads a character, which may be written with a backslash. -/
def readChar : Text → Option (Char × Text)
  | [] => none
  | ['\\'] => some ('\\', [])
  | '\\' :: c :: rest =>
    if isOctal c then
      let digits := c :: octalDigits 2 rest
      some (Char.ofNat (octalValue digits % 256), rest.drop (digits.length - 1))
    else
      match letterByte? c with
      | some b => some (Char.ofNat b.toNat, rest)
      | none => some (c, rest)
  | c :: rest => some (c, rest)

/-- The characters from one to another. -/
def between (first last : Char) : Text :=
  (List.range (last.toNat + 1 - first.toNat)).map fun n => Char.ofNat (first.toNat + n)

/-- The characters of a class. -/
def ofClass (name : Text) : Text :=
  (List.range 256).map Char.ofNat |>.filter (Pattern.inClass (String.ofList name))

/-- Reads a set of characters of which some fill up `room`. -/
def readItems (room : Nat) : (budget : Nat) → Text → Text
  | 0, _ => []
  | n + 1, s =>
    match s with
    | '[' :: ':' :: inner =>
      let name := inner.takeWhile (· ≠ ':')
      match inner.drop name.length with
      | ':' :: ']' :: rest => ofClass name ++ readItems room n rest
      | _ => '[' :: readItems room n (':' :: inner)
    | '[' :: '=' :: c :: '=' :: ']' :: rest => c :: readItems room n rest
    | '[' :: c :: '*' :: rest =>
      let digits := rest.takeWhile Char.isDigit
      match rest.drop digits.length with
      | ']' :: rest =>
        let behind := readItems 0 n rest
        let base := if digits.head? = some '0' then 8 else 10
        let count := ((Text.number? base digits).filter (0 < ·)).getD (room - behind.length)
        List.replicate count c ++ behind
      | _ => '[' :: readItems room n (c :: '*' :: rest)
    | s =>
      match readChar s with
      | none => []
      | some (first, '-' :: rest) =>
        match readChar rest with
        | some (last, rest) => between first last ++ readItems room n rest
        | none => [first, '-']
      | some (c, rest) => c :: readItems (room - 1) n rest

/-- The **characters** that a written set stands for, of which some fill up `room`. -/
def read (room : Nat) (s : Text) : Text := readItems room (s.length + 1) s

/-- The characters that are not in a set. -/
def complement (set : Text) : Text := ((List.range 256).map Char.ofNat).filter (· ∉ set)

end CharSet

namespace Column

/-! ### Characters -/

/-- The character that another one is replaced by. -/
def replaced (old new : Text) (c : Char) : Char :=
  match (old.zip new).reverse.lookup c with
  | some d => d
  | none => c

/-- A text in which equal characters of a set in a row are one. -/
def squeezed (set : Text) : Text → Text
  | c :: d :: rest =>
    if c = d ∧ c ∈ set then squeezed set (d :: rest) else c :: squeezed set (d :: rest)
  | s => s

/-- The program `tr`. -/
def tr : Program :=
  let u : Usage := { name := "tr", flags := "cCdst", mixes := false
                     names := [("complement", "c"), ("delete", "d"), ("squeeze-repeats", "s"),
                       ("truncate-set1", "t")] }
  Program.withOptions u fun a => do
    let isComplement := a.has "c" || a.has "C"
    let needed := if a.has "d" == a.has "s" then 2 else 1
    match a.operands with
    | [] => Program.misuse u "missing operand".toList
    | [only] =>
      if needed = 2 then
        Program.fail "tr" ("missing operand after ".toList ++ inQuotes only) 1
        Action.writeError (if a.has "d" then
          "Two strings must be given when both deleting and squeezing repeats.".toList
          else "Two strings must be given when translating.".toList)
        Program.hint u
      else
        let set := CharSet.read 0 only
        let set := if isComplement then CharSet.complement set else set
        let s := byteText (← Program.takeInput)
        Action.write (textBytes (if a.has "d" then s.filter (· ∉ set) else squeezed set s))
    | first :: second :: others =>
      let set := CharSet.read 0 first
      let set := if isComplement then CharSet.complement set else set
      let goal := CharSet.read set.length second
      if a.has "d" && !a.has "s" then
        Program.fail "tr" ("extra operand ".toList ++ inQuotes second) 1
        Action.writeError
          "Only one string may be given when deleting without squeezing repeats.".toList
        Program.hint u
      else if !others.isEmpty then
        Program.misuse u ("extra operand ".toList ++ inQuotes (others.headD []))
      else
        let s := byteText (← Program.takeInput)
        let padding := List.replicate (set.length - goal.length) (goal.getLast?.getD ' ')
        let full := if a.has "t" then goal else goal ++ padding
        let moved := if a.has "d" then s.filter (· ∉ set) else s.map (replaced set full)
        Action.write (textBytes (if a.has "s" then squeezed goal moved else moved))

/-- The program `rev`. -/
def rev : Program :=
  Program.withOptions { name := "rev" } fun a =>
    (Program.orInput a.operands).forM fun operand => do
      match ← Program.contentOf operand with
      | .ok bytes =>
        Action.write ((byteLines bytes).flatMap fun line =>
          (withoutLineFeed line).reverse ++ line.drop (withoutLineFeed line).length)
      | .error cause => Program.failOn "rev" ("cannot open ".toList ++ operand) cause 1

/-- A line in parts of a width. -/
def foldLine (width : Nat) : (budget : Nat) → Text → List Text
  | 0, s => [s]
  | n + 1, s => if s.length ≤ width then [s] else s.take width :: foldLine width n (s.drop width)

/-- A line that is folded loses nothing. -/
theorem foldLine_flatten (width budget : Nat) (s : Text) :
    (foldLine width budget s).flatten = s := by
  induction budget generalizing s with
  | zero => simp [foldLine]
  | succ n ih =>
    unfold foldLine
    split
    · simp
    · simp [ih]

/-- A line in parts of a width that end with a space where there is one. -/
def foldAtSpaces (width : Nat) : (budget : Nat) → Text → List Text
  | 0, s => [s]
  | n + 1, s =>
    if s.length ≤ width then [s]
    else
      let front := s.take width
      let kept := (front.reverse.dropWhile (!isBlankChar ·)).reverse
      let part := if kept.isEmpty then front else kept
      part :: foldAtSpaces width n (s.drop part.length)

/-- The program `fold`. -/
def fold : Program := fun arguments =>
  let u : Usage := { name := "fold", flags := "bs", valued := "w"
                     names := [("width=", "w"), ("spaces", "s"), ("bytes", "b")] }
  let arguments := arguments.map fun argument => match argument with
    | '-' :: c :: digits => if c.isDigit then '-' :: 'w' :: c :: digits else argument
    | _ => argument
  Program.withOptions u (fun a => do
    let width := max 1 (((a.value? "w").bind (Text.number? 10)).getD 80)
    Program.forContents "fold" a.operands 1 fun _ bytes =>
      Action.write ((byteLines bytes).flatMap fun line =>
        let s := byteText (withoutLineFeed line)
        let parts := if a.has "s" then foldAtSpaces width (s.length + 1) s
          else foldLine width (s.length + 1) s
        textBytes (List.intercalate ['\n'] parts) ++
          line.drop (withoutLineFeed line).length)) arguments

/-- A text with spaces for its tabs, from a column on. With `initialOnly`, the tabs that are
`behind` other characters stay. -/
def expanded (width : Nat) (initialOnly : Bool) : (isBehind : Bool) → (column : Nat) → Text → Text
  | _, _, [] => []
  | isBehind, column, c :: rest =>
    if c = '\n' then c :: expanded width initialOnly false 0 rest
    else if c = '\t' ∧ !(initialOnly && isBehind) then
      let count := width - column % width
      List.replicate count ' ' ++ expanded width initialOnly isBehind (column + count) rest
    else c :: expanded width initialOnly (isBehind || c != ' ') (column + 1) rest

/-- The program `expand`. -/
def expand : Program :=
  let u : Usage := { name := "expand", flags := "i", valued := "t"
                     names := [("tabs=", "t"), ("initial", "i")] }
  Program.withOptions u fun a => do
    let width := max 1 (((a.value? "t").bind (Text.number? 10)).getD 8)
    Program.forContents "expand" a.operands 1 fun _ bytes =>
      Action.write (textBytes (expanded width (a.has "i") false 0 (byteText bytes)))

/-! ### Columns -/

/-- The chosen fields of a line. -/
def chosenFields (a : ProgramArguments) (mark : Char) (chosen : Nat → Bool) (line : Text) :
    Option Text :=
  let fields := line.splitOnP (· == mark)
  if fields.length ≤ 1 then if a.has "s" then none else some line
  else
    let kept := ((fields.zipIdx 1).filter fun (_, index) => chosen index).map Prod.fst
    some (List.intercalate ((a.value? "output-delimiter").getD [mark]) kept)

/-- The options of `cut`. -/
def cutUsage : Usage where
  name := "cut"
  flags := "snz"
  valued := "bcdf"
  names := [("bytes=", "b"), ("characters=", "c"), ("fields=", "f"), ("delimiter=", "d"),
    ("only-delimited", "s"), ("complement", "complement"),
    ("output-delimiter=", "output-delimiter")]

/-- The program `cut`. -/
def cut : Program :=
  Program.withOptions cutUsage fun a => do
    let lists := ["b", "c", "f"].flatMap a.values
    let byFields := a.has "f"
    match lists with
    | [] => Program.misuse cutUsage "you must specify a list of bytes, characters, or fields".toList
    | _ :: _ :: _ => Program.misuse cutUsage "only one list may be specified".toList
    | [list] =>
      let delimiter := (a.value? "d").getD ['\t']
      if a.has "d" && !byFields then
        Program.misuse cutUsage
          "an input delimiter may be specified only when operating on fields".toList
      else if 1 < delimiter.length then
        Program.misuse cutUsage "the delimiter must be a single character".toList
      else
        match Selection.read (if byFields then "field" else "byte") list with
        | .error words => Program.misuse cutUsage words
        | .ok selection =>
          let chosen (column : Nat) : Bool := selection.holds column != a.has "complement"
          let mark := delimiter.headD '\x00'
          Program.forContents "cut" a.operands 1 fun _ bytes =>
            (Program.linesOf bytes).forM fun line => do
              if byFields then
                match chosenFields a mark chosen line with
                | some shown => Action.writeLine shown
                | none => pure ()
              else
                let kept := (line.zipIdx 1).filter fun (_, index) => chosen index
                Action.writeLine (kept.map Prod.fst)

/-- The marks that a list of them names. -/
def marksOf : Text → List Text
  | '\\' :: '0' :: rest => [] :: marksOf rest
  | '\\' :: 'n' :: rest => ['\n'] :: marksOf rest
  | '\\' :: 't' :: rest => ['\t'] :: marksOf rest
  | '\\' :: c :: rest => [c] :: marksOf rest
  | c :: rest => [c] :: marksOf rest
  | [] => []

/-- Parts with marks between them, which are taken in turn. -/
def marked (marks : List Text) (parts : List Text) : Text :=
  (parts.zipIdx).flatMap fun (part, index) =>
    (if index = 0 then [] else (marks[(index - 1) % max 1 marks.length]?).getD []) ++ part

/-- The program `paste`. -/
def paste : Program :=
  let u : Usage := { name := "paste", flags := "sz", valued := "d"
                     names := [("delimiters=", "d"), ("serial", "s")] }
  Program.withOptions u fun a => do
    let marks := marksOf ((a.value? "d").getD ['\t'])
    let operands := Program.orInput a.operands
    let found ← operands.mapM fun operand => do
      return (operand, ← Program.contentOf operand)
    match found.find? fun (_, content) => content.toOption.isNone with
    | some (operand, .error cause) => Program.failOn "paste" (shellName operand) cause 1
    | _ =>
      let columns := found.map fun (_, content) => Program.linesOf (content.toOption.getD [])
      if a.has "s" then columns.forM fun column => Action.writeLine (marked marks column)
      else
        let height := (columns.map List.length).foldl max 0
        (List.range height).forM fun n =>
          Action.writeLine (marked marks (columns.map fun column => column.getD n []))

/-! ### Lines -/

/-- The program `nl`. -/
def nl : Program :=
  let u : Usage := { name := "nl", flags := "p", valued := "bdfhilnsvw"
                     names := [("body-numbering=", "b"), ("number-width=", "w"),
                       ("number-separator=", "s"), ("starting-line-number=", "v"),
                       ("line-increment=", "i"), ("number-format=", "n")] }
  Program.withOptions u fun a => do
    let number (option : String) (usual : Nat) : Nat :=
      ((a.value? option).bind (Text.number? 10)).getD usual
    let width := number "w" 6
    let separator := (a.value? "s").getD ['\t']
    let style := (a.value? "b").getD ['t']
    let shown (n : Nat) : Text :=
      let digits := Nat.toDigits 10 n
      let padding (c : Char) : Text := List.replicate (width - digits.length) c
      match String.ofList ((a.value? "n").getD "rn".toList) with
      | "ln" => digits ++ padding ' '
      | "rz" => padding '0' ++ digits
      | _ => padding ' ' ++ digits
    let contents ← (Program.orInput a.operands).mapM fun operand => do
      match ← Program.contentOf operand with
      | .ok bytes => return bytes
      | .error cause =>
        Program.failOn "nl" (shellName operand) cause 1
        return []
    let lines := contents.flatMap Program.linesOf
    let _ ← lines.foldlM (fun (next : Nat) line => do
      if style = ['a'] || (style = ['t'] && !line.isEmpty) then
        Action.writeLine (shown next ++ separator ++ line)
        return next + number "i" 1
      else
        Action.writeLine (List.replicate (width + separator.length) ' ' ++ line)
        return next) (number "v" 1)

/-- The program `tac`. -/
def tac : Program :=
  Program.withOptions { name := "tac", flags := "br", valued := "s" } fun a =>
    (Program.orInput a.operands).forM fun operand => do
      match ← Program.contentOf operand with
      | .ok bytes => Action.write (byteLines bytes).reverse.flatten
      | .error .isADirectory =>
        Program.failOn "tac" (shellName operand ++ ": read error".toList) .isADirectory 1
      | .error cause =>
        Program.failOn "tac" ("failed to open ".toList ++ inShellQuotes operand ++
          " for reading".toList) cause 1

/-! ### All of them -/

/-- The **program** of a name. -/
def ofName? (name : String) : Option Program :=
  match name with
  | "tr" => some tr
  | "rev" => some rev
  | "fold" => some fold
  | "expand" => some expand
  | "cut" => some cut
  | "paste" => some paste
  | "nl" => some nl
  | "tac" => some tac
  | _ => none

end Column

end ScriptBundle.Shell
