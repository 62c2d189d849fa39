import ScriptBundle.Shell.Listing

/-!
# File Commands

The programs that make, copy, move and remove files and change their permissions.

## Main definitions

* `FileCommand.nodesBelow`: the nodes of which a node consists;
* `FileCommand.changedPermissions?`: permissions after a change that is written in letters;
* `FileCommand.ofName?`: the file command of a name.

## Main statements

* `FileCommand.target_of_not_directory`: a path that is no directory is taken as it is.
-/

namespace ScriptBundle.Shell.FileCommand

/-- Changes the file tree, or says why that is not possible. Tells whether it was. -/
def change (name : String) (words : Text) (next : Except FileError FileTree) : Action Bool := do
  match next with
  | .ok tree =>
    modify fun s => { s with tree }
    return true
  | .error cause =>
    Program.failOn name words cause 1
    return false

/-- Makes a file or a directory, or says why that is not possible. Tells whether it was. -/
def make (name : String) (words : Text) (path : Text) (next : Except FileError FileTree) :
    Action Bool := do
  let isMade ← change name words next
  let s ← get
  match s.tree.locate (scriptPath path) with
  | .ok location => if isMade then set (s.withNew location)
  | .error _ => pure ()
  return isMade

/-- The words of what cannot be done to a file. -/
def cannot (what : String) (operand : Text) : Text :=
  "cannot ".toList ++ what.toList ++ [' '] ++ inShellQuotes operand

/-- Tells of something that was done, where that is asked for. -/
def tell (a : ProgramArguments) (words : Text) : Action Unit :=
  if a.has "v" then Action.writeLine words else pure ()

/-- Two names with an arrow between them. -/
def arrow (source goal : Text) : Text :=
  inShellQuotes source ++ " -> ".toList ++ inShellQuotes goal

/-! ### Making -/

/-- The program `touch`. -/
def touch : Program :=
  let u : Usage := { name := "touch", flags := "acmfh", valued := "dtr"
                     names := [("no-create", "c"), ("date=", "d"), ("reference=", "r")] }
  Program.withOperands u "file operand" fun a =>
    a.operands.forM fun operand => do
      let t := (← get).tree
      if (t.node? (scriptPath operand)).isNone && !a.has "c" then
        let _ ← make "touch" (cannot "touch" operand) operand
          (t.writeFile (scriptPath operand) .empty)

/-- The paths of the directories around a path and the path itself, from the front. -/
def frontPaths (path : Text) : List Text :=
  let sizes := (List.range path.length).filter fun n => 0 < n && path[n]? = some '/'
  let fronts := (sizes.filter fun n => path[n - 1]? ≠ some '/').map path.take
  fronts ++ if path.getLast? = some '/' then [] else [path]

/-- Makes directories of which some may be there. -/
def makeDirectories (a : ProgramArguments) (isWhole : Text → Bool) : List Text → Action Unit
  | [] => pure ()
  | path :: rest => do
    let t := (← get).tree
    if t.isDirectory (scriptPath path) then makeDirectories a isWhole rest
    else
      let next := match t.createDirectory (scriptPath path) with
        | .error .alreadyExists =>
          .error (if isWhole path then .alreadyExists else .notADirectory)
        | result => result
      if ← make "mkdir" ("cannot create directory ".toList ++ inQuotes path) path next then
        tell a ("mkdir: created directory ".toList ++ inQuotes path)
        makeDirectories a isWhole rest

/-- The program `mkdir`. -/
def mkdir : Program :=
  let u : Usage := { name := "mkdir", flags := "pv", valued := "m"
                     names := [("parents", "p"), ("verbose", "v"), ("mode=", "m")] }
  Program.withOperands u "operand" fun a =>
    a.operands.forM fun operand => do
      if a.has "p" && !operand.isEmpty then
        makeDirectories a (· == operand) (frontPaths operand)
      else
        let words := "cannot create directory ".toList ++ inQuotes operand
        let next := (← get).tree.createDirectory (scriptPath operand)
        if ← make "mkdir" words operand next then
          tell a ("mkdir: created directory ".toList ++ inQuotes operand)

/-- The program `tee`. -/
def tee : Program :=
  let u : Usage := { name := "tee", flags := "aip", names := [("append", "a")] }
  Program.withOptions u fun a => do
    let bytes ← Program.takeInput
    Action.write bytes
    a.operands.forM fun operand => do
      let t := (← get).tree
      let file := scriptPath operand
      let front := if a.has "a" then (Action.readBytes t file).toOption.getD [] else []
      let _ ← change "tee" (shellName operand) (t.writeFile file ⟨(front ++ bytes).toArray⟩)

/-- The program `truncate`, for a size. -/
def truncate : Program :=
  let u : Usage := { name := "truncate", flags := "co", valued := "sr", names := [("size=", "s")] }
  Program.withOperands u "file operand" fun a =>
    a.operands.forM fun operand => do
      let t := (← get).tree
      let size := ((a.value? "s").bind Filter.countNumber?).getD 0
      let bytes := (Action.readBytes t (scriptPath operand)).toOption.getD []
      let padding := List.replicate (size - bytes.length) (0 : UInt8)
      let content : ByteArray := ⟨(bytes.take size ++ padding).toArray⟩
      let words := cannot "open" operand ++ " for writing".toList
      let _ ← change "truncate" words (t.writeFile (scriptPath operand) content)

/-- The names that a template for names has room for. -/
def fillings (template : Text) : List Text :=
  let body := (template.reverse.dropWhile (· == 'X')).reverse
  let width := template.length - body.length
  (List.range 1000).map fun n =>
    let digits := Nat.toDigits 10 n
    body ++ List.replicate (width - digits.length) 'a' ++ digits

/-- The program `mktemp`. -/
def mktemp : Program :=
  let u : Usage := { name := "mktemp", flags := "duqt", valued := "p"
                     names := [("directory", "d"), ("dry-run", "u"), ("tmpdir=", "p")] }
  Program.withOptions u fun a => do
    let t := (← get).tree
    let directory := (a.value? "p").getD "/tmp".toList
    let template := match a.operands with
      | [] => Filter.joined directory "tmp.XXXXXXXXXX".toList
      | operand :: _ => if a.has "t" || a.has "p" then Filter.joined directory operand else operand
    let t := if a.operands.isEmpty then (t.createDirectories (scriptPath directory)).1 else t
    match (fillings template).find? fun path => !hasEntry t path with
    | none => Action.setStatus 1
    | some path =>
      let made := if a.has "u" then .ok t
        else if a.has "d" then t.createDirectory (scriptPath path)
        else t.writeFile (scriptPath path) .empty
      let words := "failed to create file via template ".toList ++ inShellQuotes template
      if ← change "mktemp" words made then Action.writeLine path

/-! ### Removing -/

mutual

/-- The paths of the nodes below a path, those in a directory before it. -/
def pathsBelow (path : Text) : FileNode → List (Text × Bool)
  | .directory entries => entryPathsBelow path entries ++ [(path, true)]
  | _ => [(path, false)]

/-- The paths of the nodes below the entries of a directory. -/
def entryPathsBelow (path : Text) : List (Text × FileNode) → List (Text × Bool)
  | [] => []
  | (name, node) :: rest =>
    pathsBelow (Filter.joined path (encoded name)) node ++ entryPathsBelow path rest

end

/-- Removes what a path leads to. -/
def removeOne (a : ProgramArguments) (operand : Text) : Action Unit := do
  let t := (← get).tree
  let words := cannot "remove" operand
  let isRecursive := a.has "r" || a.has "R"
  match ownNode t (scriptPath operand) with
  | .error cause =>
    if !(a.has "f" && (cause == .notFound || cause == .notADirectory)) then
      Program.failOn "rm" words cause 1
  | .ok node =>
    let isEmpty := match node with
      | .directory entries => entries.isEmpty
      | _ => false
    let last := Filter.lastName operand
    if node.isDirectory && !isRecursive then
      if !a.has "d" then Program.failOn "rm" words .isADirectory 1
      else if !isEmpty then Program.failOn "rm" words .notEmpty 1
      else if ← change "rm" words (t.remove (scriptPath operand)) then
        tell a ("removed directory ".toList ++ inShellQuotes operand)
    else if last = ['.'] ∨ last = ['.', '.'] then
      Program.fail "rm" ("refusing to remove '.' or '..' directory: skipping ".toList ++
        inShellQuotes operand) 1
    else if ← change "rm" words (t.remove (scriptPath operand)) then
      (pathsBelow operand node).forM fun (path, isDirectory) =>
        tell a ((if isDirectory then "removed directory " else "removed ").toList ++
          inShellQuotes path)

/-- The program `rm`. -/
def rm : Program :=
  let u : Usage := { name := "rm", flags := "rRfidvI"
                     names := [("recursive", "r"), ("force", "f"), ("dir", "d"), ("verbose", "v")] }
  Program.withOptions u fun a => do
    if a.operands.isEmpty && !a.has "f" then Program.misuse u "missing operand".toList
    a.operands.forM (removeOne a)

/-- Removes empty directories, the inner ones first. -/
def removeDirectories (a : ProgramArguments) : List Text → Action Unit
  | [] => pure ()
  | path :: rest => do
    let t := (← get).tree
    tell a ("rmdir: removing directory, ".toList ++ inShellQuotes path)
    let next : Except FileError FileTree := match ownNode t (scriptPath path) with
      | .error cause => .error cause
      | .ok (.directory []) => t.remove (scriptPath path)
      | .ok (.directory _) => .error .notEmpty
      | .ok _ => .error .notADirectory
    let words := "failed to remove ".toList ++ inShellQuotes path
    match next with
    | .error .notEmpty => if !a.has "i" then let _ ← change "rmdir" words next
    | _ => if ← change "rmdir" words next then removeDirectories a rest

/-- The program `rmdir`. -/
def rmdir : Program :=
  let u : Usage := { name := "rmdir", flags := "pv"
                     names := [("parents", "p"), ("verbose", "v"),
                       ("ignore-fail-on-non-empty", "i")] }
  Program.withOperands u "operand" fun a =>
    a.operands.forM fun operand =>
      removeDirectories a (if a.has "p" then (frontPaths operand).reverse else [operand])

/-- The program `unlink`. -/
def unlink : Program :=
  Program.withOperands { name := "unlink" } "operand" fun a => do
    let operand := a.operands.headD []
    let t := (← get).tree
    let _ ← change "unlink" (cannot "unlink" operand)
      (match ownNode t (scriptPath operand) with
        | .ok (.directory _) => .error .isADirectory
        | _ => t.remove (scriptPath operand))

/-! ### Moving -/

/-- Where something of a given name goes: into a directory, or else to the path itself. -/
def target (t : FileTree) (source path : Text) : Text :=
  if t.isDirectory (scriptPath path) then Filter.joined path (Filter.lastName source) else path

/-- A path that is no directory is taken as it is. -/
theorem target_of_not_directory {t : FileTree} {source path : Text}
    (h : t.isDirectory (scriptPath path) = false) : target t source path = path := by
  simp [target, h]

/-- Puts a node at a path, in place of a file or link that may be there. -/
def putNode (t : FileTree) (p : Path) (node : FileNode) : Except FileError FileTree :=
  match t.place .kept p with
  | .error cause => .error cause
  | .ok (.vacant directory name) => .ok (t.put (directory ++ [name]) node)
  | .ok (.present location) => .ok (t.put location node)

/-- A program that brings its operands to the last one, or to the directory that an option names. -/
def bring (u : Usage) (one : ProgramArguments → (source goal : Text) → Action Unit) : Program :=
  Program.withOptions u fun a => do
    let t := (← get).tree
    match a.value? "t", a.operands with
    | _, [] => Program.misuse u "missing file operand".toList
    | none, [operand] =>
      Program.misuse u
        ("missing destination file operand after ".toList ++ inShellQuotes operand)
    | none, operands =>
      let goal := operands.getLast?.getD []
      let sources := operands.dropLast
      if 1 < sources.length && !t.isDirectory (scriptPath goal) then
        let cause := if hasEntry t goal then .notADirectory else .notFound
        Program.failOn u.name ("target ".toList ++ inShellQuotes goal) cause 1
      else sources.forM fun source => do
        let here := (← get).tree
        one a source (if a.has "T" then goal else target here source goal)
    | some goal, sources =>
      sources.forM fun source => do
        let here := (← get).tree
        one a source (target here source goal)

mutual

/-- The **nodes** of which a node consists, a directory before those in it, with their paths from
the node on. -/
def nodesBelow (front : List Text) : FileNode → List (List Text × FileNode)
  | .directory entries => (front, .directory []) :: entryNodesBelow front entries
  | node => [(front, node)]

/-- The nodes of which the entries of a directory consist. -/
def entryNodesBelow (front : List Text) :
    List (Text × FileNode) → List (List Text × FileNode)
  | [] => []
  | (name, node) :: rest => nodesBelow (front ++ [name]) node ++ entryNodesBelow front rest

end

/-- Copies nodes one by one. -/
def copyNodes (a : ProgramArguments) (source goal : Text) :
    List (List Text × FileNode) → Action Unit
  | [] => pure ()
  | (below, node) :: rest => do
    let t := (← get).tree
    let full (path : Text) : Text := below.foldl (fun p name => Filter.joined p (encoded name)) path
    let p := scriptPath (full goal)
    let next : Except FileError FileTree := match node with
      | .file content =>
        if goal.getLast? = some '/' then .error .notADirectory else t.writeFile p content
      | .link link => putNode t p (.link link)
      | .directory _ => if t.isDirectory p then .ok t else t.createDirectory p
    let words := match node with
      | .directory _ => "cannot create directory ".toList ++ inShellQuotes (full goal)
      | _ => "cannot create regular file ".toList ++ inShellQuotes (full goal)
    if ← change "cp" words next then tell a (arrow (full source) (full goal))
    copyNodes a source goal rest

/-- Whether two paths lead to the same place. -/
def areSame (t : FileTree) (left right : Text) : Bool :=
  match t.locate (scriptPath left), t.locate (scriptPath right) with
  | .ok first, .ok second => first == second
  | _, _ => false

/-- Whether a path leads into a directory. -/
def isInside (t : FileTree) (directory path : Text) : Bool :=
  match t.locate (scriptPath directory), t.place .made (scriptPath path) with
  | .ok outer, .ok (.present inner) => outer.isPrefixOf inner
  | .ok outer, .ok (.vacant inner _) => outer.isPrefixOf inner
  | _, _ => false

/-- Copies what a path leads to. -/
def copyOne (a : ProgramArguments) (source goal : Text) : Action Unit := do
  let t := (← get).tree
  let keepsLinks := a.has "a" || a.has "d" || a.has "P" || a.has "r" || a.has "R"
  let found := if keepsLinks then ownNode t (scriptPath source)
    else match t.locate (scriptPath source) with
      | .error cause => .error cause
      | .ok location => ((t.root.at? location).map .ok).getD (.error .notFound)
  match found with
  | .error cause => Program.failOn "cp" (cannot "stat" source) cause 1
  | .ok node =>
    if node.isDirectory && !(a.has "r" || a.has "R" || a.has "a") then
      Program.fail "cp" ("-r not specified; omitting directory ".toList ++ inShellQuotes source) 1
    else if areSame t source goal then
      Program.fail "cp" (inShellQuotes source ++ " and ".toList ++ inShellQuotes goal ++
        " are the same file".toList) 1
    else if node.isDirectory && isInside t source goal then
      Program.fail "cp" ("cannot copy a directory, ".toList ++ inShellQuotes source ++
        ", into itself, ".toList ++ inShellQuotes goal) 1
    else if node.isDirectory && (t.node? (scriptPath goal)).any FileNode.isFile then
      Program.fail "cp" ("cannot overwrite non-directory ".toList ++ inShellQuotes goal ++
        " with directory ".toList ++ inShellQuotes source) 1
    else if !node.isDirectory && t.isDirectory (scriptPath goal) then
      Program.fail "cp" ("cannot overwrite directory ".toList ++ inShellQuotes goal ++
        " with non-directory".toList) 1
    else if a.has "n" && hasEntry t goal then pure ()
    else copyNodes a source goal (nodesBelow [] node)

/-- The program `cp`. -/
def cp : Program :=
  bring { name := "cp", flags := "rRfapvndPLTuilsH", valued := "t"
          names := [("recursive", "r"), ("force", "f"), ("archive", "a"), ("verbose", "v"),
            ("no-clobber", "n"), ("target-directory=", "t"), ("update", "u")] } copyOne

/-- Moves what a path leads to. -/
def moveOne (a : ProgramArguments) (source goal : Text) : Action Unit := do
  let t := (← get).tree
  match ownNode t (scriptPath source) with
  | .error cause => Program.failOn "mv" (cannot "stat" source) cause 1
  | .ok node =>
    let existing := ownNode t (scriptPath goal)
    let words := "cannot move ".toList ++ inShellQuotes source ++ " to ".toList ++
      inShellQuotes goal
    if areSame t source goal then
      Program.fail "mv" (inShellQuotes source ++ " and ".toList ++ inShellQuotes goal ++
        " are the same file".toList) 1
    else if node.isDirectory && isInside t source goal then
      Program.fail "mv" ("cannot move ".toList ++ inShellQuotes source ++
        " to a subdirectory of itself, ".toList ++ inShellQuotes goal) 1
    else if a.has "n" && existing.toOption.isSome then pure ()
    else
      match existing, node with
      | .ok (.directory (_ :: _)), .directory _ => Program.failOn "mv" words .notEmpty 1
      | .ok (.file _), .directory _ =>
        Program.fail "mv" ("cannot overwrite non-directory ".toList ++ inShellQuotes goal ++
          " with directory ".toList ++ inShellQuotes source) 1
      | _, _ =>
        let isMisled := goal.getLast? == some '/' && !node.isDirectory
        let moved ← change "mv" words (do
          if isMisled then throw .notADirectory
          let removed ← t.remove (scriptPath source)
          putNode removed (scriptPath goal) node)
        if moved then tell a ("renamed ".toList ++ arrow source goal)

/-- The program `mv`. -/
def mv : Program :=
  bring { name := "mv", flags := "fnvuiT", valued := "t"
          names := [("force", "f"), ("no-clobber", "n"), ("verbose", "v"),
            ("target-directory=", "t")] } moveOne

/-- Makes a link, or else another copy of a file. -/
def linkOne (a : ProgramArguments) (source goal : Text) : Action Unit := do
  let t := (← get).tree
  let t := if a.has "f" then (t.remove (scriptPath goal)).toOption.getD t else t
  if a.has "s" then
    let words := "failed to create symbolic link ".toList ++ inShellQuotes goal
    if ← change "ln" words (t.createLink (scriptPath goal) (decoded source)) then
      tell a (arrow goal source)
  else
    match ownNode t (scriptPath source) with
    | .error cause =>
      Program.failOn "ln" ("failed to access ".toList ++ inShellQuotes source) cause 1
    | .ok (.directory _) =>
      Program.fail "ln" (shellName source ++ ": hard link not allowed for directory".toList) 1
    | .ok node =>
      let words := "failed to create hard link ".toList ++ inShellQuotes goal
      let next := if hasEntry t goal then .error .alreadyExists
        else putNode t (scriptPath goal) node
      if ← change "ln" words next then
        tell a (inShellQuotes goal ++ " => ".toList ++ inShellQuotes source)

/-- The program `ln`. -/
def ln : Program := fun arguments =>
  let u : Usage := { name := "ln", flags := "sfnvrTi", valued := "t"
                     names := [("symbolic", "s"), ("force", "f"), ("no-dereference", "n"),
                       ("verbose", "v"), ("target-directory=", "t")] }
  match u.read arguments with
  | .ok { options, operands := [source] } => do
    Action.setStatus 0
    linkOne { options } source (Filter.lastName source)
  | _ => bring u linkOne arguments

/-- The program `install`, which copies files or makes directories. -/
def install : Program :=
  let u : Usage := { name := "install", flags := "dDpvcT", valued := "mtog"
                     names := [("directory", "d"), ("mode=", "m")] }
  fun arguments =>
    match u.read arguments with
    | .ok a =>
      if a.has "d" then do
        Action.setStatus 0
        a.operands.forM fun operand => makeDirectories {} (· == operand) (frontPaths operand)
      else bring u copyOne arguments
    | .error _ => bring u copyOne arguments

/-! ### Permissions -/

/-- The permissions that letters stand for, for one of the three kinds of users. -/
def letterBits (letters : Text) : Nat :=
  (if 'r' ∈ letters then 4 else 0) + (if 'w' ∈ letters then 2 else 0) +
    (if 'x' ∈ letters ∨ 'X' ∈ letters then 1 else 0)

/-- Permissions of one kind of users after a change. -/
def changedBits (operator : Char) (bits old : Nat) : Nat :=
  if operator = '+' then old ||| bits
  else if operator = '-' then old &&& (7 ^^^ bits)
  else bits

/-- Permissions after one clause of a change. -/
def changedByClause? (withheld old : Nat) (clause : Text) : Option Nat :=
  let who := clause.takeWhile "ugoa".toList.contains
  match clause.drop who.length with
  | operator :: letters =>
    if "+-=".toList.contains operator && letters.all "rwxXst".toList.contains then
      let isMeant (c : Char) : Bool := who.isEmpty || decide (c ∈ who ∨ 'a' ∈ who)
      let one (c : Char) (size : Nat) : Nat :=
        let bits := letterBits letters
        let kept := if who.isEmpty then bits &&& (7 ^^^ (withheld / size % 8)) else bits
        let before := old / size % 8
        size * if isMeant c then changedBits operator kept before else before
      some (one 'u' 64 + one 'g' 8 + one 'o' 1)
    else none
  | [] => none

/-- The parts of a text between marks. -/
def partsBetween (mark : Char) : Text → List Text
  | [] => [[]]
  | c :: rest =>
    if c = mark then [] :: partsBetween mark rest
    else
      match partsBetween mark rest with
      | [] => [[c]]
      | part :: others => (c :: part) :: others

/-- Permissions after a **change** that is written in digits or in letters. -/
def changedPermissions? (withheld old : Nat) (written : Text) : Option Nat :=
  if written.all isOctal && !written.isEmpty then some (octalValue written % 512)
  else (partsBetween ',' written).foldlM (changedByClause? withheld) old

/-- Changes the permissions of a node and, where that is asked for, of those in it. -/
def changePermissions (written : Text) (paths : List Text) : Action Unit :=
  paths.forM fun path =>
    modify fun s =>
      match s.tree.locate (scriptPath path) with
      | .error _ => s
      | .ok location =>
        match s.tree.root.at? location with
        | none => s
        | some node =>
          let old := s.permissionsOf location node
          let new := (changedPermissions? s.withheld old written).getD old
          { s with permissions := (location, new) :: s.permissions.filter (·.1 ≠ location) }

/-- The program `chmod`. -/
def chmod : Program := fun arguments =>
  let u : Usage := { name := "chmod", flags := "Rvcf", names := [("recursive", "R")] }
  let isChange (argument : Text) : Bool :=
    argument.head? == some '-' && 1 < argument.length &&
      argument.all "-rwxXstugoa,+=".toList.contains
  let changes := arguments.filter isChange
  Program.withOptions u (fun a => do
    match changes ++ a.operands with
    | [] => Program.misuse u "missing operand".toList
    | [written] => Program.misuse u ("missing operand after ".toList ++ inQuotes written)
    | written :: files =>
      if (changedPermissions? 0 0 written).isNone then
        Program.misuse u ("invalid mode: ".toList ++ inQuotes written)
      else
        files.forM fun file => do
          let t := (← get).tree
          match t.locate (scriptPath file) with
          | .error cause => Program.failOn "chmod" (cannot "access" file) cause 1
          | .ok location =>
            let paths := match t.root.at? location, a.has "R" with
              | some node, true => (pathsBelow file node).map Prod.fst
              | _, _ => [file]
            changePermissions written paths) (arguments.filter fun x => !isChange x)

/-! ### All of them -/

/-- The **file command** of a name. -/
def ofName? (name : String) : Option Program :=
  match name with
  | "ls" => some ls
  | "touch" => some touch
  | "mkdir" => some mkdir
  | "tee" => some tee
  | "truncate" => some truncate
  | "mktemp" => some mktemp
  | "rm" => some rm
  | "rmdir" => some rmdir
  | "unlink" => some unlink
  | "cp" => some cp
  | "mv" => some mv
  | "ln" => some ln
  | "install" => some install
  | "chmod" => some chmod
  | _ => none

end ScriptBundle.Shell.FileCommand
