import Std.Time.DateTime.Timestamp
import ScriptBundle.Build.Watching
import ScriptBundle.CommandLine.Answer
import ScriptBundle.Shell.Program

/-!
# The Program

Loads the files below the working directory, answers the arguments, and carries out what has
changed. Everything else is decided by the library. Outside the working directory, only the
configuration files that may be asked for are seen, and hidden entries are not seen at all.

## Main definitions

* `Program.loadTree`: the files as a value;
* `Program.storeChanges`: carries out the changes between two trees;
* `Program.watch`: builds after every change;
* `main`: the program.
-/

namespace ScriptBundle.Program

/-- The nodes of the directory `here`, and the directories below it that cannot be listed. What else
cannot be read is left out. -/
partial def loadEntries (here : Location) (listing : Array IO.FS.DirEntry) :
    StateT (List Location) IO (List (Text × FileNode)) :=
  listing.toList.filterMapM fun entry => do
    let name := entry.fileName.toList
    if isHidden name then return none
    try
      match (← entry.path.symlinkMetadata).type with
      | .dir =>
        match ← (entry.path.readDir).toBaseIO with
        | .ok below => return some (name, .directory (← loadEntries (here ++ [name]) below))
        | .error _ =>
          modify ((here ++ [name]) :: ·)
          return some (name, .directory [])
      | .file => return some (name, .file (← IO.FS.readBinFile entry.path))
      | .symlink => return some (name, .link (← IO.FS.realPath entry.path).toString.toList)
      | .other => return none
    catch _ => return none

/-- The tree with one more file, if there is such a file. -/
def loadFile (t : FileTree) (file : Path) : IO FileTree := do
  try
    let content ← IO.FS.readBinFile file.toString
    let t := (file.parent?.map fun directory => (t.createDirectories directory).1).getD t
    return (t.writeFile file content).toOption.getD t
  catch _ => return t

/-- The files below the working directory, and those of a list. -/
def loadTree (files : List Path) : IO FileTree := do
  let here ← IO.FS.realPath (← IO.currentDir)
  let location := (Path.ofString here.toString).components.filterMap fun
    | .normal name => some name
    | _ => none
  let (entries, unlistable) ← (loadEntries location (← here.readDir)).run []
  let root := location.foldr (fun name node => .directory [(name, node)]) (.directory entries)
  files.foldlM loadFile { root, workingDirectory := location, unlistable }

/-- Carries out the changes between two trees. -/
def storeChanges (before after : FileTree) : IO Unit :=
  (after.root.changesFrom (some before.root)).forM fun (location, change) =>
    let path := (Path.ofNames location).toString
    match change with
    | .madeDirectory => IO.FS.createDirAll path
    | .wroteFile content => IO.FS.writeBinFile path content
    | .removedFile => IO.FS.removeFile path
    | .removedDirectory => IO.FS.removeDirAll path

/-- The runner for the commands of gates. -/
def runner : IO CommandRunner := do
  let home? ← IO.getEnv "HOME"
  return Shell.runProgram (home?.toList.map fun home => ("HOME".toList, home.toList))

/-- The present moment. -/
def now : IO Moment := do
  return { seconds := (← Std.Time.Timestamp.now).toSecondsSinceUnixEpoch.val }

/-- Prints an answer. -/
def print (a : Answer) : IO Unit := do
  IO.eprint a.errors
  IO.print a.output

/-- Builds, and then again after every change that calls for it. -/
partial def watch (c : Config) (o : Overrides) (files : List Path) (t : FileTree) : IO UInt32 := do
  let options : BuildOptions := { run := ← runner, now := ← now, skipChecks := o.skipChecks }
  let (built, report) := build options t c
  storeChanges t built
  print { Answer.ofBuild report with output := "" }
  match built.sourceRoot c.src with
  | .error e =>
    IO.eprint (errorLine ("cannot watch source root: " ++ e.message))
    return 1
  | .ok root =>
    let rec wait : IO FileTree := do
      IO.sleep 200
      let next ← loadTree files
      if needsBuild c root built next then return next else wait
    watch c o files (← wait)

/-- Answers the arguments. -/
def answer (arguments : List Text) : IO UInt32 := do
  let user : UserDirectories :=
    { home := (← IO.getEnv "HOME").map Path.ofString
      config := (← IO.getEnv "XDG_CONFIG_HOME").map Path.ofString }
  let overrides? : Option Overrides := match Request.ofArguments? arguments with
    | some (.build o) => some o
    | _ => none
  let files := (overrides?.bind (·.config)).toList ++ user.configFile?.toList
  let t ← loadTree files
  match overrides?.filter (·.watch) with
  | some o =>
    match o.load user t with
    | .error e =>
      print (.ofConfigError e)
      return 1
    | .ok c => watch c o files t
  | none =>
    let (after, a) := runArguments (← runner) (← now) user t arguments
    storeChanges t after
    print a
    return UInt32.ofNat a.exitStatus

end ScriptBundle.Program

/-- The program. -/
def main (arguments : List String) : IO UInt32 :=
  ScriptBundle.Program.answer (arguments.map String.toList)
