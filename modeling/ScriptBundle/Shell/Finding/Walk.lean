import ScriptBundle.Shell.Finding.Condition

/-!
# Finding Files

The program `find`, which goes through directories and looks at every file in them.

## Main definitions

* `Find.holds`: whether a condition holds for a file, after everything in it was done;
* `Find.visit`: goes through a directory;
* `find`: the program.

## Main statements

* `Find.holds_both`: the second of two conditions is looked at only if the first one holds.
-/

namespace ScriptBundle.Shell

/-- A file that is found. -/
structure FindEntry where
  path : Text
  /-- The path from which the search started. -/
  start : Text
  depth : Nat

/-- What is known of a search that goes on. -/
structure FindNotes where
  /-- Whether the search does not go into the present directory. -/
  isPruned : Bool := false
  isStopped : Bool := false
  hasFailed : Bool := false
  /-- The commands that are run for many files at once, each with the files. -/
  waiting : List (List Text × List Text) := []

/-- A step of a **search**. -/
abbrev Find := StateT FindNotes Action

namespace Find

/-- Complains of something. -/
def complain (words : Text) : Find Unit := do
  Program.report "find" words
  modify fun notes => { notes with hasFailed := true }

/-! ### What is known of a file -/

/-- The node of a file, a link followed where that is asked for and possible. -/
def node? (t : FileTree) (isFollowed : Bool) (path : Text) : Option FileNode :=
  let own := (ownNode t (scriptPath path)).toOption
  if isFollowed then (t.node? (scriptPath path)).or own else own

/-- The letter of the kind of a node. -/
def kindLetter : FileNode → Char
  | .file _ => 'f'
  | .directory _ => 'd'
  | .link _ => 'l'

/-- Whether a node has nothing in it. -/
def isEmptyNode : FileNode → Bool
  | .file content => content.size == 0
  | .directory entries => entries.isEmpty
  | .link _ => false

/-- A path with the slashes at its end left out, and the rest of them. -/
def nameOf (path : Text) : Text :=
  let behind := (path.reverse.takeWhile (· == '/')).length
  if behind = path.length then path else Filter.lastName path ++ path.drop (path.length - behind)

/-- What a letter stands for in a form. -/
def directive (s : ShellState) (isFollowed : Bool) (e : FindEntry) (letter : Char) : Text :=
  let node := (node? s.tree isFollowed e.path).getD (.file .empty)
  let permissions := match ownNode s.tree (scriptPath e.path),
      s.tree.locateBy .kept (scriptPath e.path) with
    | .ok node, .ok location => s.permissionsOf location node
    | _, _ => 0
  match letter with
  | 'p' => e.path
  | 'f' => nameOf e.path
  | 'h' => Filter.directoryPart e.path
  | 'H' => e.start
  | 'P' => (e.path.drop e.start.length).dropWhile (· == '/')
  | 's' => Nat.toDigits 10 (shownSize node)
  | 'd' => Nat.toDigits 10 e.depth
  | 'y' => [kindLetter node]
  | 'Y' => [((s.tree.node? (scriptPath e.path)).map kindLetter).getD 'N']
  | 'm' => Nat.toDigits 8 permissions
  | 'M' => permissionText node permissions
  | 'u' => "root".toList
  | 'g' => "root".toList
  | 'U' => ['0']
  | 'G' => ['0']
  | 'n' => match node with
    | .directory entries => Nat.toDigits 10 (2 + (entries.filter (·.2.isDirectory)).length)
    | _ => ['1']
  | 'l' => match node with
    | .link target => encoded target
    | _ => []
  | 'k' => Nat.toDigits 10 (shownSpace node)
  | 'b' => Nat.toDigits 10 (2 * shownSpace node)
  | '%' => ['%']
  | c => ['%', c]

/-- What a form amounts to for a file. -/
def formed (s : ShellState) (isFollowed : Bool) (e : FindEntry) : (budget : Nat) → Text → Text
  | 0, _ => []
  | _, [] => []
  | n + 1, '\\' :: c :: rest =>
    let octal := ((c :: rest).take 3).takeWhile fun d => '0' ≤ d && d ≤ '7'
    if c = 'c' then []
    else if octal.isEmpty then
      let shown := ([('n', '\n'), ('t', '\t'), ('\\', '\\'), ('a', '\x07'), ('b', '\x08'),
        ('f', '\x0c'), ('r', '\r'), ('v', '\x0b')] : List (Char × Char)).lookup c
      (shown.map ([·])).getD ['\\', c] ++ formed s isFollowed e n rest
    else
      Char.ofNat ((Text.number? 8 octal).getD 0 % 256) ::
        formed s isFollowed e n ((c :: rest).drop octal.length)
  | n + 1, '%' :: rest =>
    let isLeft := rest.head? = some '-'
    let behind := if isLeft then rest.tail else rest
    let digits := behind.takeWhile Char.isDigit
    match behind.drop digits.length with
    | [] => ['%']
    | letter :: rest =>
      let shown := directive s isFollowed e letter
      let space := List.replicate ((Text.number? 10 digits).getD 0 - shown.length) ' '
      (if isLeft then shown ++ space else space ++ shown) ++ formed s isFollowed e n rest
  | n + 1, c :: rest => c :: formed s isFollowed e n rest

/-- Whether permissions are as asked for. -/
def fitsPermissions (test : PermissionTest) (mode permissions : Nat) : Bool :=
  match test with
  | .exactly => permissions == mode
  | .all => permissions &&& mode == mode
  | .any => mode == 0 || permissions &&& mode != 0

/-- Whether a name has a pattern, perhaps in another case of letters. -/
def fitsName (p : Pattern) (foldsCase : Bool) (name : Text) : Bool :=
  if foldsCase then
    Pattern.fits (p.map fun g => { g with char := g.char.toLower }) (name.map Char.toLower)
  else p.fits name

/-- The answer to a question about a file, where nothing is done with it. -/
def answer (settings : FindSettings) (s : ShellState) (e : FindEntry) : FindTest → Bool
  | .constant holds => holds
  | .name p foldsCase => fitsName p foldsCase (Filter.lastName e.path)
  | .path p foldsCase => fitsName p foldsCase e.path
  | .form r => r.accepts none none e.path
  | .kind letters isFollowed =>
    (node? s.tree (settings.followsLinks != isFollowed) e.path).any fun node =>
      decide (kindLetter node ∈ letters)
  | .target p => match ownNode s.tree (scriptPath e.path) with
    | .ok (.link target) => p.fits (encoded target)
    | _ => false
  | .empty => (node? s.tree settings.followsLinks e.path).any isEmptyNode
  | .size t unit => (node? s.tree settings.followsLinks e.path).any fun node =>
    t.holds ((shownSize node + unit - 1) / unit)
  | .age t => t.holds 0
  | .permissions test mode =>
    match ownNode s.tree (scriptPath e.path), s.tree.locateBy .kept (scriptPath e.path) with
    | .ok node, .ok location => fitsPermissions test mode (s.permissionsOf location node)
    | _, _ => false
  | .executable => s.mayRun e.path
  | .same file => match s.tree.locate (scriptPath e.path), s.tree.locate (scriptPath file) with
    | .ok first, .ok second => first == second
    | _, _ => false
  | _ => true

/-! ### Deeds -/

/-- Runs a step in a directory. -/
def inDirectory (directory : Text) (body : Action α) : Action α := do
  let before ← get
  match before.tree.locate (scriptPath directory) with
  | .ok workingDirectory =>
    set { before with
      tree := { before.tree with workingDirectory }
      directory := encoded (Path.ofNames workingDirectory).text }
    let result ← body
    modify fun s => { s with
      tree := { s.tree with workingDirectory := before.tree.workingDirectory }
      directory := before.directory }
    return result
  | .error _ => body

/-- Runs a command, and tells whether it succeeds. -/
def launchOne (launch : Launcher) (fields : List Text) : Find Bool := do
  match ← launch fields with
  | some cause =>
    Program.report "find"
      (inShellQuotes (fields.headD []) ++ ": ".toList ++ cause.words.toList)
    return false
  | none => return (← (get : Action ShellState)).status == 0

/-- Puts a text in the place of braces. -/
def fillBraces (value : Text) : Text → Text
  | '{' :: '}' :: rest => value ++ fillBraces value rest
  | c :: rest => c :: fillBraces value rest
  | [] => []

/-- Removes a file. -/
def removeEntry (path : Text) : Find Bool := do
  let s ← (get : Action ShellState)
  let next : Except FileError FileTree := match ownNode s.tree (scriptPath path) with
    | .error cause => .error cause
    | .ok (.directory (_ :: _)) => .error .notEmpty
    | .ok _ => s.tree.remove (scriptPath path)
  if path = ['.'] then return true
  match next with
  | .ok tree =>
    (set { s with tree } : Action Unit)
    return true
  | .error cause =>
    complain ("cannot delete ".toList ++ inShellQuotes path ++ ": ".toList ++ cause.words.toList)
    return false

/-- Carries out a test. -/
def carryOut (launch : Launcher) (settings : FindSettings) (e : FindEntry) (t : FindTest) :
    Find Bool := do
  match t with
  | .print ending =>
    Action.write (textBytes (e.path ++ [ending]))
    return true
  | .printForm form =>
    let s ← (get : Action ShellState)
    Action.write (textBytes (formed s settings.followsLinks e (form.length + 1) form))
    return true
  | .run words true _ =>
    modify fun notes =>
      let files := (notes.waiting.lookup words).getD []
      { notes with
        waiting := notes.waiting.filter (·.1 ≠ words) ++ [(words, files ++ [e.path])] }
    return true
  | .run words false false => launchOne launch (words.map (fillBraces e.path))
  | .run words false true =>
    let name := "./".toList ++ Filter.lastName e.path
    let run := launchOne launch (words.map (fillBraces name))
    (fun notes => inDirectory (Filter.directoryPart e.path) (run notes) : Find Bool)
  | .delete => removeEntry e.path
  | .prune =>
    modify fun notes => { notes with isPruned := true }
    return true
  | .quit =>
    modify fun notes => { notes with isStopped := true }
    return true
  | _ => return answer settings (← (get : Action ShellState)) e t

/-- Whether a condition **holds** for a file, once everything in it was done. Nothing more is done
when the search has stopped. -/
def holds (launch : Launcher) (settings : FindSettings) (e : FindEntry) :
    FindCondition → Find Bool
  | .test t => do
    if (← get).isStopped then return false else carryOut launch settings e t
  | .negation c => do
    return !(← holds launch settings e c)
  | .both first second => do
    if ← holds launch settings e first then holds launch settings e second else return false
  | .either first second => do
    if ← holds launch settings e first then return true else holds launch settings e second
  | .second first second => do
    let _ ← holds launch settings e first
    holds launch settings e second

/-- The second of two conditions is looked at only if the first one holds. -/
theorem holds_both (launch : Launcher) (settings : FindSettings) (e : FindEntry)
    (first second : FindCondition) :
    holds launch settings e (.both first second) = (do
      if ← holds launch settings e first then holds launch settings e second
      else return false) := rfl

/-! ### The way through directories -/

/-- Looks at a file, unless it is not deep enough. -/
def look (launch : Launcher) (settings : FindSettings) (c : FindCondition) (e : FindEntry) :
    Find Unit := do
  if settings.least ≤ e.depth ∧ !(← get).isStopped then
    let _ ← holds launch settings e c

/-- Goes through a file and what is in it, down to a depth. -/
def visit (launch : Launcher) (settings : FindSettings) (c : FindCondition) :
    (budget : Nat) → FindEntry → Find Unit
  | 0, _ => pure ()
  | n + 1, e => do
    if !(← get).isStopped then
      modify fun notes => { notes with isPruned := false }
      if !settings.isInnerFirst then look launch settings c e
      let isPruned := (← get).isPruned && !settings.isInnerFirst
      let t := (← (get : Action ShellState)).tree
      let isEntered := (node? t settings.followsLinks e.path).any FileNode.isDirectory &&
        !isPruned && settings.greatest.all (e.depth < ·)
      if isEntered then
        (entryNames t e.path).forM fun name =>
          visit launch settings c n
            { e with path := Filter.joined e.path name, depth := e.depth + 1 }
      if settings.isInnerFirst then look launch settings c e

/-- Goes through the files from a path on. -/
def visitFrom (launch : Launcher) (settings : FindSettings) (c : FindCondition) (start : Text) :
    Find Unit := do
  let t := (← (get : Action ShellState)).tree
  match ownNode t (scriptPath start) with
  | .error cause => complain (inShellQuotes start ++ ": ".toList ++ cause.words.toList)
  | .ok _ => visit launch settings c 64 ⟨start, start, 0⟩

/-- Runs the commands that were put off until all files are known. -/
def runWaiting (launch : Launcher) : Find Unit := do
  (← get).waiting.forM fun (words, files) => do
    if !(← launchOne launch (words ++ files)) then
      modify fun notes => { notes with hasFailed := true }

/-- Searches the files from some paths on. -/
def search (launch : Launcher) (settings : FindSettings) (c : FindCondition)
    (starts : List Text) : Find Unit := do
  starts.forM (visitFrom launch settings c)
  runWaiting launch

end Find

/-- The program `find`. -/
def find (launch : Launcher) : Program := fun arguments => do
  let isSetting (word : Text) : Bool :=
    ["-H", "-L", "-P", "--"].contains (String.ofList word) || "-O".toList.isPrefixOf word
  let front := arguments.takeWhile isSetting
  let behind := arguments.drop front.length
  let starts := behind.takeWhile (!startsCondition ·)
  let words := behind.drop starts.length
  let s ← get
  let settings : FindSettings := { followsLinks := front.contains "-L".toList }
  match (FindToken.readAll s.tree (words.length + 1) words).run settings with
  | .error fault => Program.fail "find" fault 1
  | .ok (tokens, settings) =>
    match FindCondition.read tokens with
    | .error fault => Program.fail "find" fault 1
    | .ok c =>
      let ((), notes) ←
        (Find.search launch settings c (if starts.isEmpty then [['.']] else starts)).run {}
      Action.setStatus (if notes.hasFailed then 1 else 0)

end ScriptBundle.Shell
