import ScriptBundle.FileTree.Basic
import ScriptBundle.FileTree.Error

/-!
# Walking Paths

Where a path leads in a file tree. Relative paths start in the working directory, symbolic
links are followed, and `..` is the directory around the one that was reached.

## Main definitions

* `FileTree`: a tree and a working directory in it;
* `ListingFault`: why a directory cannot be listed;
* `PathEnd`: what a walk is for;
* `FileTree.place`: the place that a path leads to, which may be vacant;
* `FileTree.locate`: the location of what a path leads to;
* `FileTree.readText`: the text of a file;
* `FileTree.checkListing`: whether a directory can be listed by its absolute path.
-/

namespace ScriptBundle

/-- A **file tree** with the directory from which relative paths start. -/
structure FileTree where
  root : FileNode
  workingDirectory : Location
  /-- The directories that may be gone through, but not listed. -/
  unlistable : List Location := []

/-- A **place** that a path leads to. -/
inductive Place where
  /-- Something stands there. -/
  | present (location : Location)
  /-- The directory is there, but it has no entry of this name. -/
  | vacant (directory : Location) (name : Text)
  deriving DecidableEq, Repr

/-- A **listing fault** is a directory that cannot be listed, with the cause. -/
structure ListingFault where
  location : Location
  cause : FileError
  deriving DecidableEq, Repr

/-- The greatest number of links that are followed for one path. -/
def maxLinks : Nat := 40

/-- The greatest size of a name in bytes. -/
def maxNameSize : Nat := 255

/-- The greatest size of a path in bytes. -/
def maxPathSize : Nat := 4095

/-- What a walk is for, which decides how it treats the **end of a path**. -/
inductive PathEnd where
  /-- A link at the end is followed. -/
  | followed
  /-- A link at the end is followed. The way is put together name by name, so that the path may have
  any size, but not the absolute path without links. -/
  | resolved
  /-- A link at the end is the place itself, unless a slash stands behind it. -/
  | kept
  /-- A file is to be written. A link at the end is followed, and a slash behind the last name asks
  for a directory, whatever stands there. -/
  | written
  /-- A directory is to be made. A link at the end is the place itself, and slashes behind the last
  name do not count. -/
  | made
  deriving DecidableEq, Repr

namespace PathEnd

/-- Whether segments are those of slashes at the end of a path. -/
def onlySlashes (segments : List Text) : Bool := segments.all List.isEmpty

/-- Whether a name with segments behind it is the place itself, be it a link or not. -/
def stopsAt : PathEnd → (behind : List Text) → Bool
  | kept, behind => behind.isEmpty
  | made, behind => onlySlashes behind
  | _, _ => false

/-- Whether the place may be vacant at a name with segments behind it. -/
def admitsVacant (ending : PathEnd) (behind : List Text) : Bool :=
  behind.isEmpty || ending.stopsAt behind

/-- Whether a name with segments behind it is refused because it names a directory. -/
def refuses (ending : PathEnd) (behind : List Text) : Bool :=
  ending == written && !behind.isEmpty && onlySlashes behind

/-- Whether a path is too long to start with. -/
def isTooLong (ending : PathEnd) (p : Path) : Bool :=
  ending != resolved && maxPathSize < Text.size p.text

/-- Whether a name makes the way to a location too long. -/
def outgrows (ending : PathEnd) (here : Location) (name : Text) : Bool :=
  ending == resolved && maxPathSize < Text.size (Path.ofNames (here ++ [name])).text

end PathEnd

/-- Walks along segments from the location `here`. Every segment, an idle one too, needs a
directory to start from. At most `links` links are followed. -/
def walk (root : FileNode) (ending : PathEnd) (links : Nat) (here : Location) :
    List Text → Except FileError Place
  | [] => .ok (.present here)
  | segment :: rest =>
    match root.at? here with
    | none => .error .notFound
    | some (.directory entries) =>
      if segment = [] ∨ segment = ['.'] then walk root ending links here rest
      else if segment = ['.', '.'] then walk root ending links here.dropLast rest
      else if ending.refuses rest then .error .isADirectory
      else if maxNameSize < Text.size segment || ending.outgrows here segment then
        .error .nameTooLong
      else
        match entries.lookup segment with
        | none =>
          if ending.admitsVacant rest then .ok (.vacant here segment) else .error .notFound
        | some (.link target) =>
          if ending.stopsAt rest then .ok (.present (here ++ [segment]))
          else
            match links with
            | 0 => .error .tooManyLinks
            | links + 1 =>
              walk root ending links (if (Path.mk target).isAbsolute then [] else here)
                (splitSlashes target ++ rest)
        | some _ =>
          if ending.stopsAt rest then .ok (.present (here ++ [segment]))
          else walk root ending links (here ++ [segment]) rest
    | some _ => .error .notADirectory
termination_by segments => (links, segments.length)

namespace FileTree

/-- The place that a path leads to. -/
def place (t : FileTree) (ending : PathEnd) (p : Path) : Except FileError Place :=
  if p.isEmpty then .error .notFound
  else if '\x00' ∈ p.text then .error .nulInPath
  else if ending.isTooLong p then .error .nameTooLong
  else
    walk t.root ending maxLinks (if p.isAbsolute then [] else t.workingDirectory)
      (splitSlashes p.text)

/-- The location of what a path leads to. -/
def locateBy (t : FileTree) (ending : PathEnd) (p : Path) : Except FileError Location :=
  match t.place ending p with
  | .ok (.present location) => .ok location
  | .ok (.vacant _ _) => .error .notFound
  | .error e => .error e

/-- The location of what a path leads to, with links followed. -/
def locate (t : FileTree) (p : Path) : Except FileError Location := t.locateBy .followed p

/-- The location of what a path of any size leads to, with links followed. -/
def canonicalLocation (t : FileTree) (p : Path) : Except FileError Location :=
  t.locateBy .resolved p

/-- What a path leads to, with links followed. -/
def node? (t : FileTree) (p : Path) : Option FileNode :=
  match t.locate p with
  | .ok location => t.root.at? location
  | .error _ => none

/-- Whether a path leads to a file. -/
def isFile (t : FileTree) (p : Path) : Bool := (t.node? p).any FileNode.isFile

/-- Whether a path leads to a directory. -/
def isDirectory (t : FileTree) (p : Path) : Bool := (t.node? p).any FileNode.isDirectory

/-- Whether a path leads to a symbolic link, which is not followed itself. -/
def isLink (t : FileTree) (p : Path) : Bool :=
  match t.place .kept p with
  | .ok (.present location) => (t.root.at? location).any FileNode.isLink
  | _ => false

/-- The text that bytes are the UTF-8 form of. -/
def decode (content : ByteArray) : Option Text := (String.fromUTF8? content).map String.toList

/-- The text of the file that a path leads to. -/
def readText (t : FileTree) (p : Path) : Except FileError Text :=
  match t.locate p with
  | .error e => .error e
  | .ok location =>
    match t.root.at? location with
    | some (.file content) =>
      match decode content with
      | some text => .ok text
      | none => .error .notText
    | some _ => .error .isADirectory
    | none => .error .notFound

/-- The absolute path without links of what a path leads to. -/
def canonical (t : FileTree) (p : Path) : Except FileError Path :=
  (t.canonicalLocation p).map Path.ofNames

/-- Whether the directory at a location can be **listed**. It is opened by its absolute path. -/
def checkListing (t : FileTree) (location : Location) : Except ListingFault Unit :=
  if maxPathSize < Text.size (Path.ofNames location).text then .error ⟨location, .nameTooLong⟩
  else if location ∈ t.unlistable then .error ⟨location, .permissionDenied⟩
  else .ok ()

end FileTree

end ScriptBundle
