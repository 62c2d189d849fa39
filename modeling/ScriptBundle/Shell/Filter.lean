import ScriptBundle.Shell.Arguments
import ScriptBundle.Shell.Arithmetic

/-!
# Filters

The programs that show files, or their input, as a whole or in part, and the one that counts what
is in them.

## Main definitions

* `byteLines`: the lines of bytes;
* `Cat.shown`: bytes with their lines numbered and their characters made visible;
* `Filter.ofName?`: the filter of a name.

## Main statements

* `byteLinesBy_flatten`: nothing of the bytes is lost in their lines.
-/

namespace ScriptBundle.Shell

/-- The parts of bytes that end with a mark, each with the mark. -/
def byteLinesBy (mark : UInt8) : List UInt8 → List (List UInt8)
  | [] => []
  | b :: rest =>
    if b = mark then [b] :: byteLinesBy mark rest
    else
      match byteLinesBy mark rest with
      | [] => [[b]]
      | line :: others => (b :: line) :: others

/-- The lines of bytes, each with its line feed. -/
def byteLines (bytes : List UInt8) : List (List UInt8) := byteLinesBy 0x0A bytes

/-- Nothing of the bytes is lost in their lines. -/
theorem byteLinesBy_flatten (mark : UInt8) (bytes : List UInt8) :
    (byteLinesBy mark bytes).flatten = bytes := by
  induction bytes with
  | nil => rfl
  | cons b rest ih =>
    unfold byteLinesBy
    split
    · simp [ih]
    · split
      · next h => simp_all
      · next h =>
        rw [h] at ih
        simpa using ih

/-- A line without its line feed. -/
def withoutLineFeed (line : List UInt8) : List UInt8 :=
  if line.getLast? = some 0x0A then line.dropLast else line

namespace Program

/-- The texts of the lines of a file, of which the last one need not have an end. -/
def linesOf (bytes : List UInt8) : List Text :=
  (byteLines bytes).map fun line => byteText (withoutLineFeed line)

/-- Does something with the content of each operand, and says which of them cannot be read. -/
def forContents (name : String) (operands : List Text) (status : Nat)
    (body : Text → List UInt8 → Action Unit) : Action Unit :=
  (orInput operands).forM fun operand => do
    match ← contentOf operand with
    | .ok bytes => body operand bytes
    | .error cause => failOn name (shellName operand) cause status

end Program

/-! ### Whole files -/

namespace Cat

/-- Where a program stands in its output. -/
structure Place where
  /-- The number of lines that have got a number. -/
  count : Nat := 0
  atLineStart : Bool := true
  /-- Whether the line before is empty. -/
  isBehindEmpty : Bool := false
  deriving DecidableEq, Repr

/-- A byte in a visible form. -/
def visible (b : UInt8) : Text :=
  let caret (n : Nat) : Text := if n = 127 then ['^', '?'] else ['^', Char.ofNat (n + 64)]
  let low (n : Nat) : Text := if n < 32 ∨ n = 127 then caret n else [Char.ofNat n]
  if b.toNat < 128 then low b.toNat else 'M' :: '-' :: low (b.toNat - 128)

/-- A byte as options have it shown. The end of its line follows where `atEnd` holds. -/
def shownByte (a : ProgramArguments) (atEnd : Bool) (b : UInt8) : Text :=
  let isVisible := ["v", "A", "e", "t"].any a.has
  if b = 0x09 then if ["T", "A", "t"].any a.has then ['^', 'I'] else ['\t']
  else if b = 0x0D ∧ atEnd ∧ ["E", "A", "e"].any a.has then ['^', 'M']
  else if isVisible then visible b
  else [Char.ofNat b.toNat]

/-- A line as options have it shown. -/
def shownLine (a : ProgramArguments) (line : List UInt8) : Text :=
  let content := withoutLineFeed line
  let hasEnd := content.length < line.length
  let body := content.zipIdx.flatMap fun (b, index) =>
    shownByte a (hasEnd && index + 1 == content.length) b
  body ++ if hasEnd then (if ["E", "A", "e"].any a.has then ['$', '\n'] else ['\n']) else []

/-- Lines as options have them **shown**, and the place behind them. -/
def shown (a : ProgramArguments) (p : Place) : List (List UInt8) → Place × Text
  | [] => (p, [])
  | line :: rest =>
    let isEmpty := line == [0x0A] && p.atLineStart
    let next : Place :=
      { p with atLineStart := line.getLast? == some 0x0A, isBehindEmpty := isEmpty }
    if a.has "s" && isEmpty && p.isBehindEmpty then shown a next rest
    else
      let isNumbered := p.atLineStart && ((a.has "n" && !a.has "b") || (a.has "b" && !isEmpty))
      let next := if isNumbered then { next with count := p.count + 1 } else next
      let digits := Nat.toDigits 10 next.count
      let number := if isNumbered then
          List.replicate (6 - digits.length) ' ' ++ digits ++ ['\t'] else []
      let (place, others) := shown a next rest
      (place, number ++ shownLine a line ++ others)

/-- Shows files one after the other. -/
def showAll (a : ProgramArguments) : Place → List Text → Action Unit
  | _, [] => pure ()
  | place, operand :: rest => do
    match ← Program.contentOf operand with
    | .ok bytes =>
      let (place, text) := shown a place (byteLines bytes)
      Action.write (textBytes text)
      showAll a place rest
    | .error cause =>
      Program.failOn "cat" (shellName operand) cause 1
      showAll a place rest

/-- The options of `cat`. -/
def usage : Usage where
  name := "cat"
  flags := "uvnbsAeEtT"
  names := [("number", "n"), ("number-nonblank", "b"), ("squeeze-blank", "s"), ("show-all", "A"),
    ("show-ends", "E"), ("show-tabs", "T"), ("show-nonprinting", "v")]

end Cat

namespace Filter

/-- The program `cat`. -/
def cat : Program :=
  Program.withOptions Cat.usage fun a => do
    if a.options.isEmpty then
      Program.forContents "cat" a.operands 1 fun _ bytes => Action.write bytes
    else Cat.showAll a {} (Program.orInput a.operands)

/-! ### The ends of files -/

/-- The arguments of a program that takes a number of lines as an option by itself. -/
def withLineCount : List Text → List Text
  | ('-' :: c :: digits) :: rest =>
    if c.isDigit then ['-', 'n'] :: (c :: digits) :: rest else ('-' :: c :: digits) :: rest
  | arguments => arguments

/-- The number that a count with a sign and a unit stands for. -/
def countNumber? (count : Text) : Option Nat :=
  let s := match count with
    | '+' :: rest => rest
    | '-' :: rest => rest
    | s => s
  let digits := s.takeWhile Char.isDigit
  let unit? : Option Nat := match String.ofList (s.drop digits.length) with
    | "" => some 1
    | "b" => some 512
    | "kB" => some 1000
    | "K" => some 1024
    | "k" => some 1024
    | "KiB" => some 1024
    | "M" => some 1048576
    | _ => none
  (Text.number? 10 digits).bind fun n => unit?.map (n * ·)

/-- The options of a program that shows an end of files. -/
def endUsage (name : String) : Usage where
  name := name
  flags := "qvzfF"
  valued := "ncs"
  names := [("lines=", "n"), ("bytes=", "c"), ("quiet", "q"), ("silent", "q"), ("verbose", "v"),
    ("zero-terminated", "z"), ("follow", "f")]

/-- A program that shows a part of each file, by lines or by bytes. Where the part starts and how
long it is, `part` tells for a count and the number of items there are. -/
def showPart (name : String)
    (part : (count : Text) → (size : Nat) → Nat × Nat) : Program :=
  fun arguments =>
    Program.withOptions (endUsage name) (fun a => do
      let byBytes := a.has "c"
      let count := (if byBytes then a.value? "c" else a.value? "n").getD "10".toList
      if (countNumber? count).isNone then
        let unit := if byBytes then "bytes" else "lines"
        Program.fail name (("invalid number of " ++ unit ++ ": ").toList ++
          inQuotes (if count.head? = some '-' then count.drop 1 else count)) 1
      else
        let operands := Program.orInput a.operands
        let isTitled := (1 < operands.length || a.has "v") && !a.has "q"
        let mark : UInt8 := if a.has "z" then 0 else 0x0A
        let cut (items : List (List UInt8)) : List UInt8 :=
          let (start, most) := part count items.length
          ((items.drop start).take most).flatten
        let _ ← operands.foldlM (fun (isFirst : Bool) operand => do
          match ← Program.contentOf operand with
          | .ok bytes =>
            if isTitled then
              let shown := if operand = ['-'] then "standard input".toList else operand
              let title := "==> ".toList ++ shown ++ " <==".toList
              Action.writeLine (if isFirst then title else '\n' :: title)
            Action.write (cut (if byBytes then bytes.map ([·]) else byteLinesBy mark bytes))
            return false
          | .error .isADirectory =>
            if isTitled then
              let title := "==> ".toList ++ operand ++ " <==".toList
              Action.writeLine (if isFirst then title else '\n' :: title)
            Program.failOn name ("error reading ".toList ++ inShellQuotes operand)
              .isADirectory 1
            return false
          | .error cause =>
            Program.failOn name
              ("cannot open ".toList ++ inShellQuotes operand ++ " for reading".toList) cause 1
            return isFirst) true)
      (withLineCount arguments)

/-- The program `head`. -/
def head : Program :=
  showPart "head" fun count size =>
    let n := (countNumber? count).getD 0
    if count.head? = some '-' then ⟨0, size - n⟩ else ⟨0, n⟩

/-- The program `tail`. -/
def tail : Program :=
  showPart "tail" fun count size =>
    let n := (countNumber? count).getD 0
    if count.head? = some '+' then ⟨n - 1, size⟩ else ⟨size - n, size⟩

/-! ### Counting -/

/-- Whether a byte stands between words. -/
def isSpaceByte (b : UInt8) : Bool := isSpace (Char.ofNat b.toNat)

/-- The number of words in bytes. What is not plain ASCII neither starts nor ends a word. -/
def wordCountOf (bytes : List UInt8) : Nat :=
  let relevant := bytes.filter fun b => isSpaceByte b || isPrintable (Char.ofNat b.toNat)
  ((relevant.splitBy fun a b => isSpaceByte a == isSpaceByte b).filter fun run =>
    run.any (!isSpaceByte ·)).length

/-- The width of a line, in which tabs go to the next multiple of eight. -/
def lineWidth (line : List UInt8) : Nat :=
  line.foldl (fun width b =>
    if b = 0x09 then width + 8 - width % 8
    else if isPrintable (Char.ofNat b.toNat) then width + 1 else width) 0

/-- The greatest width of a line. -/
def greatestWidth (bytes : List UInt8) : Nat :=
  ((byteLines bytes).map lineWidth).foldl max 0

/-- A row of counts. -/
def countRow (width : Nat) (counts : List Nat) (label : Text) : Text :=
  let cell (n : Nat) : Text :=
    let digits := Nat.toDigits 10 n
    List.replicate (width - digits.length) ' ' ++ digits
  List.intercalate [' '] (counts.map cell ++ if label.isEmpty then [] else [label])

/-- The options of `wc`. -/
def wcUsage : Usage where
  name := "wc"
  flags := "lwcmL"
  names := [("lines", "l"), ("words", "w"), ("bytes", "c"), ("chars", "m"),
    ("max-line-length", "L")]

/-- The counts of bytes that are asked for. -/
def chosenCounts (a : ProgramArguments) (bytes : List UInt8) : List Nat :=
  let chosen (n : Nat) (option : String) (isUsual : Bool) : List Nat :=
    if a.has option || (a.options.isEmpty && isUsual) then [n] else []
  chosen (bytes.count 0x0A) "l" true ++ chosen (wordCountOf bytes) "w" true ++
    chosen bytes.length "m" false ++ chosen bytes.length "c" true ++
    chosen (greatestWidth bytes) "L" false

/-- The program `wc`. -/
def wc : Program :=
  Program.withOptions wcUsage fun a => do
    let s ← get
    let readsInput := a.operands.isEmpty
    let found ← (Program.orInput a.operands).mapM fun operand => do
      return (operand, ← Program.contentOf operand)
    let contents := found.map fun (_, content) => content.toOption.getD []
    let isNoFile (operand : Text) (content : Except FileError (List UInt8)) : Bool :=
      match content with
      | .error cause => cause == .isADirectory
      | .ok _ => operand == ['-'] && !s.input.isFile
    let isSingle := found.length == 1 && (chosenCounts a []).length == 1
    let isWide := found.any fun (operand, content) => isNoFile operand content
    let digits := (Nat.toDigits 10 contents.flatten.length).length
    let width := if isSingle then 1 else if isWide then max 7 digits else digits
    found.forM fun (operand, content) => do
      let name := if readsInput then [] else operand
      match content with
      | .ok bytes => Action.writeLine (countRow width (chosenCounts a bytes) name)
      | .error .isADirectory =>
        Program.failOn "wc" (shellName operand) .isADirectory 1
        Action.writeLine (countRow width (chosenCounts a []) operand)
      | .error cause => Program.failOn "wc" (shellName operand) cause 1
    if 1 < found.length then
      let sums := contents.foldl (fun sums bytes =>
        sums.zipWith (· + ·) (chosenCounts a bytes)) (chosenCounts a [])
      Action.writeLine (countRow width sums "total".toList)

/-! ### Paths -/

/-- A path without the slashes at its end. -/
def withoutEndSlashes (path : Text) : Text :=
  match (path.reverse.dropWhile (· == '/')).reverse with
  | [] => path.take 1
  | trimmed => trimmed

/-- The path of an entry of a directory. -/
def joined (directory name : Text) : Text :=
  if directory.getLast? = some '/' then directory ++ name else directory ++ '/' :: name

/-- The last name of a path. -/
def lastName (path : Text) : Text :=
  let path := withoutEndSlashes path
  if path = ['/'] then path else (path.reverse.takeWhile (· ≠ '/')).reverse

/-- The path of the directory around a path. -/
def directoryPart (path : Text) : Text :=
  let path := withoutEndSlashes path
  let front := (path.reverse.dropWhile (· ≠ '/')).reverse
  if front.isEmpty then ['.'] else withoutEndSlashes front

/-! ### All of them -/

/-- The **filter** of a name. -/
def ofName? (name : String) : Option Program :=
  match name with
  | "cat" => some cat
  | "head" => some head
  | "tail" => some tail
  | "wc" => some wc
  | _ => none

end Filter

end ScriptBundle.Shell
