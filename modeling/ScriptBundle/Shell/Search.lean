import ScriptBundle.Shell.Filter
import ScriptBundle.Shell.Regex.Reader

/-!
# Searching Lines

The program `grep`, which shows the lines that hold what it is asked for.

## Main definitions

* `SearchTerms`: what is looked for in a line;
* `SearchedLine`: a line and whether it is wanted;
* `grep`: the program.

## Main statements

* `SearchTerms.matchesFrom_length`: there are no more matches than the budget allows.
-/

namespace ScriptBundle.Shell

/-- What is looked for in a line. -/
structure SearchTerms where
  regex : Regex
  /-- Whether the lines without a match are wanted. -/
  inverts : Bool
  deriving Repr

namespace SearchTerms

/-- The first match in a part of a line that stands behind a character, with its start and its
length. -/
def find? (t : SearchTerms) (before : Option Char) (s : Text) : Option (Nat × Nat) :=
  t.regex.find? before s

/-- Whether a line is wanted. -/
def wants (t : SearchTerms) (line : Text) : Bool := (t.find? none line).isSome != t.inverts

/-- The matches in a part of a line that starts at an offset, less than `budget` of them. An empty
match is none. -/
def matchesFrom (t : SearchTerms) :
    (budget : Nat) → (before : Option Char) → (offset : Nat) → Text → List (Nat × Text)
  | 0, _, _, _ => []
  | n + 1, before, offset, s =>
    match t.find? before s with
    | none => []
    | some (start, 0) =>
      let skipped := start + 1
      if s.length < skipped then []
      else matchesFrom t n (s.take skipped).getLast? (offset + skipped) (s.drop skipped)
    | some (start, size + 1) =>
      let behind := start + size + 1
      (offset + start, (s.drop start).take (size + 1)) ::
        matchesFrom t n (s.take behind).getLast? (offset + behind) (s.drop behind)

/-- There are no more matches than the budget allows. -/
theorem matchesFrom_length (t : SearchTerms) (budget : Nat) (before : Option Char) (offset : Nat)
    (s : Text) : (t.matchesFrom budget before offset s).length ≤ budget := by
  induction budget generalizing before offset s with
  | zero => simp [matchesFrom]
  | succ n ih =>
    unfold matchesFrom
    split
    · simp
    · dsimp only
      split
      · simp
      · exact Nat.le_succ_of_le (ih _ _ _)
    · simpa using ih _ _ _

/-- The terms that options and written expressions amount to, or what is wrong with them. -/
def ofArguments (a : ProgramArguments) (texts : List Text) : Except String SearchTerms := do
  let foldsCase := a.has "i" || a.has "y"
  let dialect : RegexDialect :=
    if a.has "P" then .perl else if a.has "E" then .extended else .basic
  let around (front back : Assertion) (r : Regex) : Regex :=
    .cat (.assertion front) (.cat r (.assertion back))
  let parts ← (texts.flatMap ShellToken.splitLines).mapM fun s => do
    let r ← if a.has "F" then pure (Regex.ofText foldsCase s) else Regex.read dialect foldsCase s
    if a.has "x" then return around .start .stop r
    else if a.has "w" then return around .behindNoWord .beforeNoWord r
    else return r
  return ⟨parts.foldr Regex.either .never, a.has "v"⟩

end SearchTerms

/-! ### Files -/

/-- The files at or below a path, which is part of a search by its name. -/
def filesBelow (t : FileTree) (isEntered : Text → Bool) : (depth : Nat) → Text → List Text
  | 0, _ => []
  | depth + 1, path =>
    if t.isDirectory (scriptPath path) then
      (entryNames t path).flatMap fun name =>
        let below := Filter.joined path name
        if t.isLink (scriptPath below) then []
        else if t.isDirectory (scriptPath below) && !isEntered name then []
        else filesBelow t isEntered depth below
    else [path]

/-! ### Reports -/

/-- A **line** of a file that is searched. -/
structure SearchedLine where
  number : Nat
  /-- The number of the bytes in front of it. -/
  offset : Nat
  content : List UInt8
  isWanted : Bool
  deriving Repr

namespace Grep

/-- The lines of bytes, as they are divided by a byte. -/
def divided (mark : UInt8) (bytes : List UInt8) : List (List UInt8) :=
  (byteLinesBy mark bytes).map fun line =>
    if line.getLast? = some mark then line.dropLast else line

/-- The lines of a file behind some bytes and lines. After `most` wanted lines no further one is
wanted. -/
def searched (terms : SearchTerms) : (most : Nat) → (number offset : Nat) →
    List (List UInt8) → List SearchedLine
  | _, _, _, [] => []
  | most, number, offset, line :: rest =>
    let isWanted := 0 < most && terms.wants (byteText line)
    ⟨number, offset, line, isWanted⟩ ::
      searched terms (if isWanted then most - 1 else most) (number + 1)
        (offset + line.length + 1) rest

/-- The number that an option gives, or else another one. -/
def numberOr (a : ProgramArguments) (option : String) (other : Nat) : Nat :=
  ((a.value? option).bind (Text.number? 10)).getD other

/-- The lines that are shown: the wanted ones and so many lines around each. -/
def shownLines (before behind : Nat) (lines : List SearchedLine) : List SearchedLine :=
  let wanted := (lines.filter SearchedLine.isWanted).map SearchedLine.number
  lines.filter fun line =>
    line.isWanted || wanted.any fun n =>
      (n < line.number && line.number ≤ n + behind) ||
        (line.number < n && n ≤ line.number + before)

/-- What stands in front of a line or of a match in it. -/
def front (a : ProgramArguments) (label : Text) (line : SearchedLine) (offset : Nat) : Text :=
  let mark := if line.isWanted then ':' else '-'
  (if label.isEmpty then [] else label ++ [mark]) ++
    (if a.has "n" then Nat.toDigits 10 line.number ++ [mark] else []) ++
    (if a.has "b" then Nat.toDigits 10 (line.offset + offset) ++ [mark] else [])

/-- What is shown of the lines of a file. -/
def report (a : ProgramArguments) (terms : SearchTerms) (mark : UInt8) (label : Text)
    (lines : List SearchedLine) : List UInt8 :=
  let around := numberOr a "C" 0
  let before := numberOr a "B" around
  let behind := numberOr a "A" around
  if a.has "o" then
    (lines.filter SearchedLine.isWanted).flatMap fun line =>
      let s := byteText line.content
      let found := if terms.inverts then [] else terms.matchesFrom (s.length + 1) none 0 s
      found.flatMap fun (offset, part) =>
        textBytes (front a label line offset ++ part) ++ [mark]
  else
    let shown := shownLines before behind lines
    let isApart := 0 < before || 0 < behind
    let earlier := none :: shown.map fun line => some line.number
    (shown.zip earlier).flatMap fun (line, earlier?) =>
      let gap := isApart && earlier?.any fun number => number + 1 < line.number
      (if gap then textBytes "--\n".toList else []) ++ textBytes (front a label line 0) ++
        line.content ++ [mark]

/-- Whether some lines of a file are wanted, and what is shown of it. Of a file that is no text
nothing is shown. -/
def searchFile (a : ProgramArguments) (terms : SearchTerms) (isLabelled : Bool) (file : Text)
    (bytes : List UInt8) : Action Bool := do
  let mark : UInt8 := if a.has "z" then 0 else 0x0A
  let lines := searched terms (numberOr a "m" (bytes.length + 1)) 1 0 (divided mark bytes)
  let count := (lines.filter SearchedLine.isWanted).length
  let holds := 0 < count
  let name := if file = ['-'] then "(standard input)".toList else file
  let label := if isLabelled then name else []
  let ending : Char := if a.has "Z" then '\x00' else '\n'
  if a.has "q" then pure ()
  else if a.has "l" || a.has "L" then
    if a.has "l" == holds then Action.write (textBytes (name ++ [ending]))
  else if a.has "c" then
    Action.writeLine ((if label.isEmpty then [] else label ++ [':']) ++ Nat.toDigits 10 count)
  else if bytes.contains 0 && !a.has "a" && !a.has "z" then
    if holds then Program.report "grep" (name ++ ": binary file matches".toList)
  else Action.write (report a terms mark label lines)
  return holds

/-- Whether the name of a file lets it be searched. -/
def isChosen (a : ProgramArguments) (file : Text) : Bool :=
  let fits (pattern : Text) : Bool := (Pattern.ofWritten pattern).fits (Filter.lastName file)
  ((a.values "include").isEmpty || (a.values "include").any fits) &&
    !(a.values "exclude").any fits

/-- The files that are searched. -/
def files (a : ProgramArguments) (t : FileTree) (operands : List Text) : List Text :=
  if a.has "r" || a.has "R" then
    let isEntered (name : Text) : Bool :=
      !(a.values "exclude-dir").any fun pattern => (Pattern.ofWritten pattern).fits name
    let roots := if operands.isEmpty then [['.']] else operands
    let found := (roots.filter isEntered).flatMap (filesBelow t isEntered 64)
    let found := found.filter (isChosen a)
    if operands.isEmpty then found.map (·.drop 2) else found
  else (Program.orInput operands).filter fun file => file = ['-'] || isChosen a file

/-- The options of `grep`. -/
def usage : Usage where
  name := "grep"
  flags := "qcnvliyFEGPxwrRshHLoabzZUTu"
  valued := "efABCmdD"
  names := [("quiet", "q"), ("silent", "q"), ("count", "c"), ("line-number", "n"),
    ("invert-match", "v"), ("files-with-matches", "l"), ("files-without-match", "L"),
    ("ignore-case", "i"), ("no-ignore-case", ""), ("fixed-strings", "F"),
    ("extended-regexp", "E"), ("basic-regexp", "G"), ("perl-regexp", "P"), ("line-regexp", "x"),
    ("word-regexp", "w"), ("recursive", "r"), ("dereference-recursive", "R"),
    ("no-messages", "s"), ("no-filename", "h"), ("with-filename", "H"), ("only-matching", "o"),
    ("byte-offset", "b"), ("null-data", "z"), ("null", "Z"), ("text", "a"), ("regexp=", "e"),
    ("file=", "f"), ("after-context=", "A"), ("before-context=", "B"), ("context=", "C"),
    ("max-count=", "m"), ("include=", "include"), ("exclude=", "exclude"),
    ("exclude-dir=", "exclude-dir"), ("color=", ""), ("colour=", ""), ("binary", "U"),
    ("line-buffered", ""), ("directories=", "d"), ("binary-files=", "")]
  misuseStatus := 2
  summary := some "Usage: grep [OPTION]... PATTERNS [FILE]..."

/-- What is wrong with the values of the options, if anything. -/
def badValue? (a : ProgramArguments) : Option Text :=
  let isNumber (s : Text) : Bool := (Text.number? 10 s).isSome
  match (["A", "B", "C"].flatMap a.values).find? (!isNumber ·) with
  | some s => some (s ++ ": invalid context length argument".toList)
  | none =>
    if (a.values "m").all isNumber then none else some "invalid max count".toList

/-- The texts of the expressions that are given as options, or the file that cannot be read. -/
def givenTexts (a : ProgramArguments) (t : FileTree) : Except (Text × FileError) (List Text) := do
  let fromFiles ← (a.values "f").mapM fun file =>
    match Action.readBytes t (scriptPath file) with
    | .ok bytes => .ok ((byteLines bytes).map fun line => byteText (withoutLineFeed line))
    | .error cause => .error (file, cause)
  return a.values "e" ++ fromFiles.flatten

/-- The arguments with a number of lines by itself as the option that it stands for. -/
def withContext : List Text → List Text
  | ('-' :: c :: digits) :: rest =>
    if (c :: digits).all Char.isDigit then ('-' :: 'C' :: c :: digits) :: withContext rest
    else ('-' :: c :: digits) :: withContext rest
  | argument :: rest => argument :: withContext rest
  | [] => []

/-- Searches files for terms. -/
def search (a : ProgramArguments) (terms : SearchTerms) (operands : List Text) :
    Action Unit := do
  let t := (← get).tree
  let isRecursive := a.has "r" || a.has "R"
  let isLabelled := (a.has "H" || 1 < operands.length ||
    (isRecursive && (operands.isEmpty || operands.any fun o => t.isDirectory (scriptPath o)))) &&
    !a.has "h"
  let results ← (files a t operands).mapM fun file => do
    match ← Program.contentOf file with
    | .ok bytes => return (← searchFile a terms isLabelled file bytes, false)
    | .error cause =>
      let isSkipped := cause == .isADirectory && a.value? "d" == some "skip".toList
      if !a.has "s" && !isSkipped then Program.failOn "grep" file cause 2
      return (false, !isSkipped)
  let holds := results.any Prod.fst
  let failed := results.any Prod.snd
  Action.setStatus (if holds && (a.has "q" || !failed) then 0 else if failed then 2 else 1)

end Grep

/-- The program `grep`. -/
def grep : Program := fun arguments =>
  Program.withOptions Grep.usage (fun a => do
    match Grep.givenTexts a (← get).tree with
    | .error (file, cause) => Program.failOn "grep" file cause 2
    | .ok given =>
      let isGiven := a.has "e" || a.has "f"
      let (texts, operands) : List Text × List Text :=
        if isGiven then (given, a.operands) else (a.operands.take 1, a.operands.drop 1)
      if !isGiven && texts.isEmpty then
        Action.writeError "Usage: grep [OPTION]... PATTERNS [FILE]...".toList
        Program.hint Grep.usage
        Action.setStatus 2
      else
        match Grep.badValue? a, SearchTerms.ofArguments a texts with
        | some words, _ => Program.fail "grep" words 2
        | none, .error words => Program.fail "grep" words.toList 2
        | none, .ok terms => Grep.search a terms operands) (Grep.withContext arguments)

end ScriptBundle.Shell
