import ScriptBundle.Path.Normal
import ScriptBundle.Shell.Listing

/-!
# Names of Files

The programs that take names of files apart, resolve them and tell what is known of the files.

## Main definitions

* `Naming.resolved?`: the path without links that a path stands for;
* `Naming.ofName?`: the program of a name.

## Main statements

* `Naming.withoutSuffix_self`: a name is not its own suffix.
-/

namespace ScriptBundle.Shell.Naming

/-! ### Parts of names -/

/-- A name without a suffix, unless it is the whole name. -/
def withoutSuffix (suffix name : Text) : Text :=
  if !suffix.isEmpty && suffix != name && suffix.isSuffixOf name then
    name.take (name.length - suffix.length)
  else name

/-- A name is not its own suffix. -/
theorem withoutSuffix_self (name : Text) : withoutSuffix name name = name := by
  simp [withoutSuffix]

/-- A line of output, which ends with a line feed or with a byte of zeros. -/
def writeName (a : ProgramArguments) (name : Text) : Action Unit :=
  Action.write (textBytes (name ++ [if a.has "z" then '\x00' else '\n']))

/-- The program `basename`. -/
def basename : Program :=
  let u : Usage := { name := "basename", flags := "az", valued := "s", mixes := false
                     names := [("multiple", "a"), ("suffix=", "s"), ("zero", "z")] }
  Program.withOperands u "operand" fun a => do
    if a.has "a" || a.has "s" then
      let suffix := (a.value? "s").getD []
      a.operands.forM fun operand => writeName a (withoutSuffix suffix (Filter.lastName operand))
    else
      match a.operands with
      | [operand] => writeName a (Filter.lastName operand)
      | [operand, suffix] => writeName a (withoutSuffix suffix (Filter.lastName operand))
      | _ :: _ :: extra :: _ => Program.misuse u ("extra operand ".toList ++ inQuotes extra)
      | [] => pure ()

/-- The program `dirname`. -/
def dirname : Program :=
  let u : Usage := { name := "dirname", flags := "z", names := [("zero", "z")] }
  Program.withOperands u "operand" fun a =>
    a.operands.forM fun operand => writeName a (Filter.directoryPart operand)

/-! ### Resolved names -/

/-- How much of a path has to be there for it to be resolved. -/
inductive Required where
  | everything
  | allButLast
  | nothing
  deriving DecidableEq, Repr

/-- The path of a location. -/
def pathOf (location : Location) : Text := encoded (Path.ofNames location).text

/-- The **path without links** that a path stands for. -/
def resolved? (t : FileTree) (required : Required) (path : Text) : Except FileError Text :=
  match t.locate (scriptPath path) with
  | .ok location => .ok (pathOf location)
  | .error cause =>
    match required with
    | .everything => .error cause
    | .allButLast =>
      match t.place .written (scriptPath (Filter.withoutEndSlashes path)) with
      | .ok (.vacant directory name) => .ok (pathOf (directory ++ [name]))
      | .ok (.present location) => .ok (pathOf location)
      | .error cause => .error cause
    | .nothing =>
      let here := Path.ofNames t.workingDirectory
      .ok (encoded ((here.join (scriptPath path)).normalize).text)

/-- The program `readlink`. -/
def readlink : Program :=
  let u : Usage := { name := "readlink", flags := "femnqsvz"
                     names := [("canonicalize", "f"), ("canonicalize-existing", "e"),
                       ("canonicalize-missing", "m"), ("no-newline", "n")] }
  Program.withOperands u "operand" fun a => do
    let t := (← get).tree
    a.operands.forM fun operand =>
      let found : Option Text :=
        if a.has "f" then (resolved? t .allButLast operand).toOption
        else if a.has "e" then (resolved? t .everything operand).toOption
        else if a.has "m" then (resolved? t .nothing operand).toOption
        else match ownNode t (scriptPath operand) with
          | .ok (.link link) => some (encoded link)
          | _ => none
      match found with
      | some name =>
        if a.has "n" && a.operands.length == 1 then Action.write (textBytes name)
        else writeName a name
      | none => Action.setStatus 1

/-- The parts of a path between its slashes. -/
def partsOf (path : Text) : List Text := (splitSlashes path).filter (!·.isEmpty)

/-- The steps that lead from one place to another, each told by the names on the way to it. -/
def stepsBetween : (start goal : List Text) → List Text
  | x :: xs, y :: ys =>
    if x = y then stepsBetween xs ys else ((x :: xs).map fun _ => ['.', '.']) ++ y :: ys
  | xs, ys => (xs.map fun _ => ['.', '.']) ++ ys

/-- The path that leads from a directory to a place. -/
def relative (directory path : Text) : Text :=
  match stepsBetween (partsOf directory) (partsOf path) with
  | [] => ['.']
  | steps => joinSlashes steps

/-- The program `realpath`. -/
def realpath : Program :=
  let u : Usage := { name := "realpath", flags := "emqsLPz"
                     names := [("canonicalize-existing", "e"), ("canonicalize-missing", "m"),
                       ("no-symlinks", "s"), ("relative-to=", "relative-to"), ("quiet", "q")] }
  Program.withOperands u "operand" fun a => do
    let t := (← get).tree
    a.operands.forM fun operand =>
      let required : Required :=
        if a.has "e" then .everything else if a.has "m" || a.has "s" then .nothing else .allButLast
      let found := if a.has "s" then
          let here := Path.ofNames t.workingDirectory
          .ok (encoded ((here.join (scriptPath operand)).normalize).text)
        else resolved? t required operand
      match found with
      | .ok path =>
        let base? := (a.value? "relative-to").map fun base =>
          (resolved? t .nothing base).toOption.getD base
        writeName a ((base?.map fun base => relative base path).getD path)
      | .error cause =>
        if a.has "q" then Action.setStatus 1
        else Program.failOn "realpath" (shellName operand) cause 1

/-! ### What is known of files -/

/-- What a letter of a format stands for. -/
def aspect (s : ShellState) (operand : Text) (location : Location) (node : FileNode) (c : Char) :
    Text :=
  let permissions := s.permissionsOf location node
  match c with
  | 's' => Nat.toDigits 10 (shownSize node)
  | 'n' => operand
  | 'N' => inShellQuotes operand
  | 'a' => Nat.toDigits 8 permissions
  | 'A' => permissionText node permissions
  | 'F' =>
    match node with
    | .file content =>
      if content.size = 0 then "regular empty file".toList else "regular file".toList
    | .directory _ => "directory".toList
    | .link _ => "symbolic link".toList
  | 'U' => "root".toList
  | 'G' => "root".toList
  | 'u' => ['0']
  | 'g' => ['0']
  | 'h' => ['1']
  | '%' => ['%']
  | _ => ['?']

/-- A format in which the letters are replaced. -/
def filled (aspect : Char → Text) : Text → Text
  | '%' :: c :: rest => aspect c ++ filled aspect rest
  | c :: rest => c :: filled aspect rest
  | [] => []

/-- The program `stat`, with a format. -/
def stat : Program :=
  let u : Usage := { name := "stat", flags := "Lft", valued := "c"
                     names := [("format=", "c"), ("printf=", "printf"), ("dereference", "L")] }
  Program.withOperands u "operand" fun a => do
    let s ← get
    a.operands.forM fun operand =>
      let ending : PathEnd := if a.has "L" then .followed else .kept
      match s.tree.locateBy ending (scriptPath operand) with
      | .error cause =>
        Program.failOn "stat" ("cannot statx ".toList ++ inShellQuotes operand) cause 1
      | .ok location =>
        match s.tree.root.at? location with
        | none => pure ()
        | some node =>
          match a.value? "c", a.value? "printf" with
          | _, some format =>
            Action.write (resolved false (filled (aspect s operand location node) format)).1
          | some format, none => Action.writeLine (filled (aspect s operand location node) format)
          | none, none => pure ()

/-! ### All of them -/

/-- The **program** of a name. -/
def ofName? (name : String) : Option Program :=
  match name with
  | "basename" => some basename
  | "dirname" => some dirname
  | "readlink" => some readlink
  | "realpath" => some realpath
  | "stat" => some stat
  | _ => none

end ScriptBundle.Shell.Naming
