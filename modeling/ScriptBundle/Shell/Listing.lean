import ScriptBundle.Shell.Filter

/-!
# Listings

The program `ls`, and what programs show of the kind and the permissions of a file.

## Main definitions

* `permissionText`: permissions in letters;
* `Listing.entries`: what is shown of a directory;
* `ls`: the program.

## Main statements

* `permissionText_length`: permissions take ten letters.
-/

namespace ScriptBundle.Shell

/-- **Permissions** in letters, behind the letter of what they are the permissions of. -/
def permissionText (node : FileNode) (permissions : Nat) : Text :=
  let kind : Char := match node with
    | .file _ => '-'
    | .directory _ => 'd'
    | .link _ => 'l'
  let three (n : Nat) : Text :=
    [if n / 4 % 2 == 1 then 'r' else '-', if n / 2 % 2 == 1 then 'w' else '-',
      if n % 2 == 1 then 'x' else '-']
  kind :: three (permissions / 64) ++ three (permissions / 8) ++ three permissions

/-- Permissions take ten letters. -/
theorem permissionText_length (node : FileNode) (permissions : Nat) :
    (permissionText node permissions).length = 10 := rfl

/-- The size of a node, as it is shown. -/
def shownSize : FileNode → Nat
  | .file content => content.size
  | .link target => Text.size target
  | .directory _ => 4096

/-- The space that a node takes, in kilobytes. -/
def shownSpace : FileNode → Nat
  | .file content => (content.size + 4095) / 4096 * 4
  | .link _ => 0
  | .directory _ => 4

namespace Listing

/-- An entry with the path by which it is found. -/
structure Entry where
  name : Text
  path : Text

/-- The node of an entry, a link not followed. -/
def Entry.node? (t : FileTree) (e : Entry) : Option FileNode :=
  (ownNode t (scriptPath e.path)).toOption

/-- What stands behind the name of an entry. -/
def mark (a : ProgramArguments) (s : ShellState) (e : Entry) : Text :=
  match e.node? s.tree with
  | some (.directory _) => if a.has "p" || a.has "F" then ['/'] else []
  | some (.link _) => if a.has "F" then ['@'] else []
  | some (.file _) => if a.has "F" && s.mayRun e.path then ['*'] else []
  | none => []

/-- The name of an entry as it is shown. -/
def shownName (a : ProgramArguments) (s : ShellState) (e : Entry) : Text :=
  (if a.has "Q" then '"' :: e.name ++ ['"'] else e.name) ++ mark a s e

/-- A number in a field. -/
def cell (width n : Nat) : Text :=
  let digits := Nat.toDigits 10 n
  List.replicate (width - digits.length) ' ' ++ digits

/-- The row of an entry in a long listing. -/
def row (a : ProgramArguments) (s : ShellState) (width : Nat) (e : Entry) : Text :=
  match e.node? s.tree with
  | none => []
  | some node =>
    let permissions := match s.tree.locateBy .kept (scriptPath e.path) with
      | .ok location => s.permissionsOf location node
      | .error _ => 0
    let links := match node with
      | .directory entries => 2 + (entries.filter fun (_, below) => below.isDirectory).length
      | _ => 1
    let behind : Text := match node with
      | .link target => " -> ".toList ++ encoded target
      | _ => []
    permissionText node permissions ++ [' '] ++ Nat.toDigits 10 links ++
      (if a.has "g" then [] else " root".toList) ++ (if a.has "o" || a.has "G" then [] else
        " root".toList) ++
      [' '] ++ cell width (shownSize node) ++ " Jan  1 00:00 ".toList ++ shownName a s e ++ behind

/-- Whether a long listing is asked for. -/
def isLong (a : ProgramArguments) : Bool := ["l", "g", "o", "n"].any a.has

/-- The rows of entries. -/
def rows (a : ProgramArguments) (s : ShellState) (es : List Entry) : List Text :=
  if isLong a then
    let sizes := es.filterMap fun e => (e.node? s.tree).map shownSize
    let width := (Nat.toDigits 10 (sizes.foldl max 0)).length
    es.map (row a s width)
  else if a.has "m" then
    if es.isEmpty then [] else [List.intercalate ", ".toList (es.map (shownName a s))]
  else es.map (shownName a s)

/-- Entries in the order that is asked for. -/
def ordered (a : ProgramArguments) (t : FileTree) (es : List Entry) : List Entry :=
  let size (e : Entry) : Nat := ((e.node? t).map shownSize).getD 0
  let sorted := if a.has "S" then es.mergeSort fun x y => size y ≤ size x else es
  if a.has "r" then sorted.reverse else sorted

/-- The **entries** that are shown of a directory. -/
def entries (a : ProgramArguments) (t : FileTree) (directory : Text) : List Entry :=
  let names := entryNames t directory
  let shown := if a.has "a" then ['.'] :: ['.', '.'] :: names
    else if a.has "A" then names else names.filter (·.head? != some '.')
  ordered a t (shown.map fun name => ⟨name, Filter.joined directory name⟩)

/-- The listings of some directories and, where that is asked for, of the directories in them. -/
def directories (a : ProgramArguments) (s : ShellState) :
    (depth : Nat) → (isFirst isTitled : Bool) → List Text → Action Unit
  | 0, _, _, _ => pure ()
  | _, _, _, [] => pure ()
  | depth + 1, isFirst, isTitled, directory :: rest => do
    let es := entries a s.tree directory
    if isTitled then
      let title := directory ++ [':']
      Action.writeLine (if isFirst then title else '\n' :: title)
    if isLong a || a.has "s" then
      let space := (es.filterMap fun e => (e.node? s.tree).map shownSpace).foldl (· + ·) 0
      Action.writeLine ("total ".toList ++ Nat.toDigits 10 space)
    (rows a s es).forM Action.writeLine
    let below := if a.has "R" then
        (es.filter fun e => e.name != ['.'] && e.name != ['.', '.'] &&
          (e.node? s.tree).any FileNode.isDirectory).map Entry.path
      else []
    directories a s depth false isTitled (below ++ rest)

/-- The options of `ls`. -/
def usage : Usage where
  name := "ls"
  flags := "aA1dlpFrRStumgoGnhkQNbBcCfHiLqsUvxXZ"
  valued := "wIT"
  names := [("all", "a"), ("almost-all", "A"), ("directory", "d"), ("recursive", "R"),
    ("reverse", "r"), ("classify", "F"), ("color=", ""), ("quote-name", "Q"),
    ("human-readable", "h"), ("size", "s"), ("inode", "i")]
  misuseStatus := 2

end Listing

/-- The program `ls`. -/
def ls : Program := fun arguments =>
  let arguments := arguments.filter (· ≠ "--color".toList)
  Program.withOptions Listing.usage (fun a => do
    let s ← get
    let t := s.tree
    let operands := if a.operands.isEmpty then [['.']] else a.operands
    let (present, missing) := operands.partition (hasEntry t)
    let present := present.mergeSort (dictionaryOrder charOrder)
    missing.forM fun operand =>
      match t.locate (scriptPath operand) with
      | .error cause =>
        Program.failOn "ls" ("cannot access ".toList ++ inShellQuotes operand) cause 2
      | .ok _ => pure ()
    let (directories, others) := present.partition fun operand =>
      t.isDirectory (scriptPath operand) && !a.has "d" &&
        !(Listing.isLong a && t.isLink (scriptPath operand))
    let files := Listing.ordered a t (others.map fun operand => ⟨operand, operand⟩)
    (Listing.rows a s files).forM Action.writeLine
    let directories := if a.has "r" then directories.reverse else directories
    let isTitled := 1 < operands.length || a.has "R"
    Listing.directories a s 10000 others.isEmpty isTitled directories) arguments

end ScriptBundle.Shell
