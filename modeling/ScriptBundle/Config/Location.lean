import ScriptBundle.Config.Reader
import ScriptBundle.FileTree.Walk

/-!
# Configuration Files

Where the configuration of a build is found: in the file that is asked for, or else in the
working directory, or else among the files of the user.

## Main definitions

* `UserDirectories`: the directories of the user;
* `ConfigError`: why no configuration can be had, each cause with its `message`;
* `Config.load`: the configuration of a build.

## Main statements

* `Config.load_of_no_file`: without a file the defaults hold.
-/

namespace ScriptBundle

/-- The **directories of a user**, as far as they are known. -/
structure UserDirectories where
  home : Option Path
  /-- The directory for configurations, where it is not the usual one. -/
  config : Option Path := none
  deriving DecidableEq, Repr

/-- The file in a directory for configurations that belongs to this program. -/
def UserDirectories.configFile? (user : UserDirectories) : Option Path :=
  let directory? := (user.config.filter Path.isAbsolute) <|>
    user.home.map (·.join (.ofString ".config"))
  directory?.map fun directory =>
    (directory.join (.ofString "scriptweld")).join (.ofString "config.toml")

/-- The name of a configuration file in the directory of its project. -/
def projectConfigFile : Path := .ofString "scriptweld.toml"

/-- Why a configuration file cannot be used. -/
inductive ConfigError where
  | unreadable (file : Path) (cause : FileError)
  | invalid (file : Path) (fault : ConfigFault)
  deriving DecidableEq, Repr

/-- The words of an error. -/
def ConfigError.message : ConfigError → String
  | unreadable file cause => "failed to read config file " ++ file.toString ++ ": " ++ cause.message
  | invalid file fault => "in " ++ file.toString ++ ": " ++ fault.message

namespace Config

/-- The configuration in a file. Its project is the directory that the file lies in. -/
def read (t : FileTree) (file : Path) : Except ConfigError Config :=
  match t.readText file with
  | .error cause => .error (.unreadable file cause)
  | .ok document =>
    match ofToml document with
    | .error fault => .error (.invalid file fault)
    | .ok c => .ok { c with projectDirectory := file.parent?.filter (!·.isEmpty) }

/-- The file that holds the configuration of a build, if there is one. -/
def file? (t : FileTree) (user : UserDirectories) (explicit : Option Path) : Option Path :=
  explicit <|>
    (some projectConfigFile).filter t.isFile <|>
    user.configFile?.filter t.isFile

/-- The configuration of a build. -/
def load (t : FileTree) (user : UserDirectories) (explicit : Option Path) :
    Except ConfigError Config :=
  match file? t user explicit with
  | some file => read t file
  | none => .ok {}

/-- Without a file the defaults hold. -/
theorem load_of_no_file {t : FileTree} {user : UserDirectories}
    (h : file? t user none = none) : load t user none = .ok {} := by
  simp [load, h]

end Config

end ScriptBundle
