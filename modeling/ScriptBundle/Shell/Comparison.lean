import ScriptBundle.Shell.Filter

/-!
# Comparing Files

The programs `cmp`, which compares bytes, and `diff`, which compares lines.

## Main definitions

* `Comparison.common`: a longest sequence of lines that two files have in common;
* `Comparison.Edit`: a place where two files differ;
* `Comparison.ofName?`: the program of a name.

## Main statements

* `Comparison.edits_self`: a file does not differ from itself.
-/

namespace ScriptBundle.Shell.Comparison

/-! ### Bytes -/

/-- The number of bytes that two files have in common at their fronts. -/
def commonLength : List UInt8 → List UInt8 → Nat
  | b :: left, c :: right => if b = c then commonLength left right + 1 else 0
  | _, _ => 0

/-- The program `cmp`. -/
def cmp : Program :=
  let u : Usage := { name := "cmp", namesHint := true, flags := "slb", valued := "in"
                     misuseStatus := 2
                     names := [("silent", "s"), ("quiet", "s"), ("verbose", "l")] }
  Program.withOptions u fun a => do
    match a.operands with
    | [] => Program.misuse u "missing operand after 'cmp'".toList
    | first :: others =>
      let second := others.headD ['-']
      match ← Program.contentOf first, ← Program.contentOf second with
      | .error cause, _ => Program.failOn "cmp" first cause 2
      | _, .error cause => Program.failOn "cmp" second cause 2
      | .ok left, .ok right =>
        let size := commonLength left right
        if left = right then Action.setStatus 0
        else
          Action.setStatus 1
          let lines := (left.take size).count 0x0A
          if a.has "s" then pure ()
          else if size < left.length ∧ size < right.length then
            Action.writeLine (first ++ [' '] ++ second ++ " differ: char ".toList ++
              Nat.toDigits 10 (size + 1) ++ ", line ".toList ++ Nat.toDigits 10 (lines + 1))
          else
            let shorter := if left.length < right.length then first else second
            let place := if size = 0 then "which is empty".toList
              else
                let isWhole := (left.take size).getLast? == some 0x0A
                "after byte ".toList ++ Nat.toDigits 10 size ++
                  (if isWhole then ", line ".toList else ", in line ".toList) ++
                  Nat.toDigits 10 (if isWhole then lines else lines + 1)
            Program.report "cmp" ("EOF on ".toList ++ shorter ++ [' '] ++ place)

/-! ### Lines -/

/-- The lengths of the longest common sequences of lines: of `x :: xs` with each end of `ys`, given
those of `xs`. -/
def nextLengths (x : Text) : (ys : List Text) → (lengths : List Nat) → List Nat
  | y :: ys, here :: below :: lengths =>
    let rest := nextLengths x ys (below :: lengths)
    (if x = y then below + 1 else max here (rest.headD 0)) :: rest
  | _, _ => [0]

/-- For each end of `xs`, the lengths of the longest common sequences with each end of `ys`. -/
def lengthTable (ys : List Text) : List Text → List (List Nat)
  | [] => [List.replicate (ys.length + 1) 0]
  | x :: xs =>
    let table := lengthTable ys xs
    nextLengths x ys (table.headD []) :: table

/-- Which lines of two files are not in a longest **common** sequence of lines. -/
def common : (xs ys : List Text) → (table : List (List Nat)) → List Bool × List Bool
  | [], ys, _ => ([], ys.map fun _ => true)
  | xs, [], _ => (xs.map fun _ => true, [])
  | x :: xs, y :: ys, table =>
    if x = y then
      let (left, right) := common xs ys (table.tail.map List.tail)
      (false :: left, false :: right)
    else
      let here := table.headD []
      let below := (table.tail.headD []).headD 0
      if (here.tail.headD 0) ≤ below then
        let (left, right) := common xs (y :: ys) table.tail
        (true :: left, right)
      else
        let (left, right) := common (x :: xs) ys (table.map List.tail)
        (left, true :: right)
termination_by xs ys => xs.length + ys.length

/-- A place where two files **differ**: the lines before it in both files, and the lines at it. -/
structure Edit where
  leftStart : Nat
  rightStart : Nat
  removed : List Text
  added : List Text
  deriving DecidableEq, Repr

/-- The edits between two files behind so many lines of each, given which lines are in one file
only. -/
def editsFrom : (budget : Nat) → (leftStart rightStart : Nat) → (xs ys : List (Text × Bool)) →
    List Edit
  | 0, _, _, _, _ => []
  | n + 1, i, j, xs, ys =>
    let removed := xs.takeWhile Prod.snd
    let added := ys.takeWhile Prod.snd
    match removed, added with
    | [], [] =>
      match xs, ys with
      | _ :: xs, _ :: ys => editsFrom n (i + 1) (j + 1) xs ys
      | _, _ => []
    | _, _ =>
      ⟨i, j, removed.map Prod.fst, added.map Prod.fst⟩ ::
        editsFrom n (i + removed.length) (j + added.length) (xs.drop removed.length)
          (ys.drop added.length)

/-- The lines of one file, with lines that only it has moved as far down as possible. -/
def settled : (budget : Nat) → List (Text × Bool) → List (Text × Bool)
  | 0, lines => lines
  | _, [] => []
  | n + 1, (x, false) :: rest => (x, false) :: settled n rest
  | n + 1, (x, true) :: rest =>
    let run := rest.takeWhile Prod.snd
    match rest.drop run.length with
    | (y, false) :: behind =>
      if x = y then (x, false) :: settled n (run ++ (y, true) :: behind)
      else (x, true) :: run ++ settled n ((y, false) :: behind)
    | behind => (x, true) :: run ++ behind

/-- The edits between two files of lines. -/
def edits (xs ys : List Text) : List Edit :=
  if xs = ys then []
  else
    let (left, right) := common xs ys (lengthTable ys xs)
    let budget := 2 * (xs.length + ys.length + 1)
    editsFrom budget 0 0 (settled (budget * budget) (xs.zip left))
      (settled (budget * budget) (ys.zip right))

/-- A file does not differ from itself. -/
theorem edits_self (xs : List Text) : edits xs xs = [] := by
  simp [edits]

/-! ### Output -/

/-- A line of a file as it is shown, with a note where the file ends without a line feed. -/
def shownLine (mark : Text) (line : Text) : Text :=
  if line.getLast? = some '\n' then mark ++ line
  else mark ++ line ++ "\n\\ No newline at end of file\n".toList

/-- The numbers of lines. -/
def numbers (start count : Nat) : Text :=
  if count = 0 then Nat.toDigits 10 start
  else if count = 1 then Nat.toDigits 10 (start + 1)
  else Nat.toDigits 10 (start + 1) ++ [','] ++ Nat.toDigits 10 (start + count)

/-- An edit in the usual form. -/
def normalForm (e : Edit) : Text :=
  let letter : Char := if e.removed.isEmpty then 'a' else if e.added.isEmpty then 'd' else 'c'
  numbers e.leftStart e.removed.length ++ [letter] ++ numbers e.rightStart e.added.length ++
    ['\n'] ++ e.removed.flatMap (shownLine "< ".toList) ++
    (if letter = 'c' then "---\n".toList else []) ++ e.added.flatMap (shownLine "> ".toList)

/-- Groups of edits that are close together. -/
def hunks (around : Nat) : List Edit → List (List Edit)
  | [] => []
  | e :: rest =>
    match hunks around rest with
    | (next :: others) :: further =>
      if next.leftStart ≤ e.leftStart + e.removed.length + 2 * around then
        (e :: next :: others) :: further
      else [e] :: (next :: others) :: further
    | further => [e] :: further

/-- The lines of a group of edits, with the lines between them. -/
def hunkLines (xs : List Text) : (start : Nat) → (stop : Nat) → List Edit → Text
  | start, stop, [] => ((xs.drop start).take (stop - start)).flatMap (shownLine [' '])
  | start, stop, e :: rest =>
    ((xs.drop start).take (e.leftStart - start)).flatMap (shownLine [' ']) ++
      e.removed.flatMap (shownLine ['-']) ++ e.added.flatMap (shownLine ['+']) ++
      hunkLines xs (e.leftStart + e.removed.length) stop rest

/-- The place of lines in a unified form. -/
def span (start count : Nat) : Text :=
  let first := if count = 0 then start else start + 1
  Nat.toDigits 10 first ++ if count = 1 then [] else ',' :: Nat.toDigits 10 count

/-- A group of edits in the unified form. -/
def unifiedForm (xs : List Text) (around : Nat) (es : List Edit) : Text :=
  match es, es.getLast? with
  | first :: _, some last =>
    let start := first.leftStart - around
    let rightStart := first.rightStart - (first.leftStart - start)
    let stop := min xs.length (last.leftStart + last.removed.length + around)
    let added := (es.map fun e => e.added.length).foldl (· + ·) 0
    let removed := (es.map fun e => e.removed.length).foldl (· + ·) 0
    "@@ -".toList ++ span start (stop - start) ++ " +".toList ++
      span rightStart (stop - start + added - removed) ++ " @@\n".toList ++
      hunkLines xs start stop es
  | _, _ => []

/-- A line as it is compared. -/
def compared (a : ProgramArguments) (line : Text) : Text :=
  let line := if a.has "w" then line.filter fun c => !isSpace c || c == '\n'
    else if a.has "b" then
      let words := line.splitBy fun c d => isBlankChar c == isBlankChar d
      let words := words.map fun word => if word.any isBlankChar then [' '] else word
      let squeezed := words.flatten
      if " \n".toList.isSuffixOf squeezed then squeezed.take (squeezed.length - 2) ++ ['\n']
      else squeezed
    else line
  if a.has "i" then line.map Char.toLower else line

/-- The options of `diff`. -/
def usage : Usage where
  name := "diff"
  namesHint := true
  flags := "qsuwbiBrNaZEtdpy"
  valued := "UxIW"
  names := [("brief", "q"), ("report-identical-files", "s"), ("unified", "u"),
    ("ignore-all-space", "w"), ("ignore-space-change", "b"), ("ignore-case", "i"),
    ("ignore-blank-lines", "B"), ("recursive", "r"), ("new-file", "N"), ("text", "a"),
    ("strip-trailing-cr", "strip"), ("color=", ""), ("label=", "label"), ("exclude=", "x")]
  misuseStatus := 2

/-- Shows how two files differ, and tells whether they do. -/
def compareFiles (a : ProgramArguments) (title : Text) (first second : Text)
    (left right : List UInt8) : Action Bool := do
  let clean (bytes : List UInt8) : List Text := (byteLines bytes).map fun line =>
    let s := byteText line
    if a.has "strip" && "\r\n".toList.isSuffixOf s then s.take (s.length - 2) ++ ['\n'] else s
  let xs := clean left
  let ys := clean right
  let isSame := xs.map (compared a) == ys.map (compared a)
  if isSame then
    if a.has "s" then
      Action.writeLine ("Files ".toList ++ first ++ " and ".toList ++ second ++
        " are identical".toList)
    return false
  else if a.has "q" then
    Action.writeLine ("Files ".toList ++ first ++ " and ".toList ++ second ++ " differ".toList)
    return true
  else if left.contains 0 || right.contains 0 then
    Action.writeLine ("Binary files ".toList ++ first ++ " and ".toList ++ second ++
      " differ".toList)
    return true
  else
    let found := edits (xs.map (compared a)) (ys.map (compared a))
    let actual := found.map fun e => { e with
      removed := (xs.drop e.leftStart).take e.removed.length
      added := (ys.drop e.rightStart).take e.added.length }
    let shown := actual.filter fun e =>
      !(a.has "B" && (e.removed ++ e.added).all (· == ['\n']))
    if shown.isEmpty then return false
    if !title.isEmpty then Action.writeLine title
    if a.has "u" || a.has "U" then
      let around := ((a.value? "U").bind (Text.number? 10)).getD 3
      let labels := a.values "label"
      let stamp := "\t1970-01-01 00:00:00.000000000 +0000".toList
      Action.writeLine ("--- ".toList ++ (labels[0]?).getD (first ++ stamp))
      Action.writeLine ("+++ ".toList ++ (labels[1]?).getD (second ++ stamp))
      Action.write (textBytes ((hunks around shown).flatMap (unifiedForm xs around)))
    else Action.write (textBytes (shown.flatMap normalForm))
    return true

/-- Shows how two directories differ, and tells whether they do. -/
def compareDirectories (a : ProgramArguments) (options : Text) :
    (depth : Nat) → (first second : Text) → Action Bool
  | 0, _, _ => return false
  | depth + 1, first, second => do
    let t := (← get).tree
    let left := entryNames t first
    let right := entryNames t second
    let names := ((left ++ right.filter (· ∉ left))).mergeSort (dictionaryOrder charOrder)
    let results ← names.mapM fun name => do
      let leftPath := Filter.joined first name
      let rightPath := Filter.joined second name
      if name ∉ right then
        Action.writeLine ("Only in ".toList ++ first ++ ": ".toList ++ name)
        return true
      else if name ∉ left then
        Action.writeLine ("Only in ".toList ++ second ++ ": ".toList ++ name)
        return true
      else
        match t.isDirectory (scriptPath leftPath), t.isDirectory (scriptPath rightPath) with
        | true, true =>
          if a.has "r" then compareDirectories a options depth leftPath rightPath
          else
            Action.writeLine ("Common subdirectories: ".toList ++ leftPath ++ " and ".toList ++
              rightPath)
            return false
        | _, _ =>
          let bytes (path : Text) : List UInt8 :=
            (Action.readBytes t (scriptPath path)).toOption.getD []
          let title := "diff".toList ++ options ++ [' '] ++ leftPath ++ [' '] ++ rightPath
          compareFiles a title leftPath rightPath (bytes leftPath) (bytes rightPath)
    return results.any id

/-- The program `diff`. -/
def diff : Program := fun arguments =>
  Program.withOptions usage (fun a => do
    match a.operands with
    | [] => Program.misuse usage "missing operand after 'diff'".toList
    | [only] => Program.misuse usage ("missing operand after ".toList ++ inQuotes only)
    | first :: second :: extra :: _ =>
      let _ := (first, second)
      Program.misuse usage ("extra operand ".toList ++ inQuotes extra)
    | [first, second] =>
      let t := (← get).tree
      let isDirectory (path : Text) : Bool := t.isDirectory (scriptPath path)
      if isDirectory first && isDirectory second then
        let options := (arguments.filter fun argument => argument.head? == some '-').flatMap
          fun option => ' ' :: option
        Action.setTruth !(← compareDirectories a options 100 first second)
      else
        let first' := if isDirectory first then Filter.joined first (Filter.lastName second)
          else first
        let second' := if isDirectory second then Filter.joined second (Filter.lastName first)
          else second
        let left ← Program.contentOf first'
        let right ← Program.contentOf second'
        let read (path : Text) (content : Except FileError (List UInt8)) :
            Action (Option (List UInt8)) := do
          match content with
          | .ok bytes => return some bytes
          | .error cause =>
            if a.has "N" then return some []
            Program.failOn "diff" path cause 2
            return none
        match ← read first' left, ← read second' right with
        | some left, some right =>
          Action.setTruth !(← compareFiles a [] first' second' left right)
        | _, _ => Action.setStatus 2) arguments

/-- The **program** of a name. -/
def ofName? (name : String) : Option Program :=
  match name with
  | "cmp" => some cmp
  | "diff" => some diff
  | _ => none

end ScriptBundle.Shell.Comparison
