import ScriptBundle.FileTree.Walk

/-!
# Changing Files

Writing files and making directories. A change that fails leaves the tree as it is, except that
directories made on the way to a further one stay.

## Main definitions

* `FileTree.writeFile`: writes a file, new or old;
* `FileTree.createDirectories`: makes a directory and those around it;
* `FileTree.remove`: takes a node out.
-/

namespace ScriptBundle.FileTree

/-- The tree with a node at a location. -/
def put (t : FileTree) (location : Location) (node : FileNode) : FileTree :=
  { t with root := .put location node t.root }

/-- Writes the bytes of a file. An existing file loses its content, and a link is followed to
the file that it names. -/
def writeFile (t : FileTree) (p : Path) (content : ByteArray) : Except FileError FileTree :=
  match t.place .written p with
  | .error e => .error e
  | .ok (.vacant directory name) => .ok (t.put (directory ++ [name]) (.file content))
  | .ok (.present location) =>
    match t.root.at? location with
    | some (.file _) => .ok (t.put location (.file content))
    | _ => .error .isADirectory

/-- Makes one directory. -/
def createDirectory (t : FileTree) (p : Path) : Except FileError FileTree :=
  match t.place .made p with
  | .error e => .error e
  | .ok (.present _) => .error .alreadyExists
  | .ok (.vacant directory name) => .ok (t.put (directory ++ [name]) (.directory []))

/-- Makes a directory and those around it, as far as they are missing, going at most `steps`
directories up. Gives the tree also in case of an error. -/
def createDirectoriesWithin (steps : Nat) (t : FileTree) (p : Path) :
    FileTree × Except FileError Unit :=
  if p.isEmpty then (t, .ok ())
  else
    match t.createDirectory p with
    | .ok changed => (changed, .ok ())
    | .error .notFound =>
      match steps, p.parent? with
      | steps + 1, some above =>
        match createDirectoriesWithin steps t above with
        | (changed, .error e) => (changed, .error e)
        | (changed, .ok ()) =>
          match changed.createDirectory p with
          | .ok finished => (finished, .ok ())
          | .error e => (changed, if changed.isDirectory p then .ok () else .error e)
      | _, _ => (t, .error .notFound)
    | .error e => (t, if t.isDirectory p then .ok () else .error e)

/-- Makes a directory and those around it, as far as they are missing. -/
def createDirectories (t : FileTree) (p : Path) : FileTree × Except FileError Unit :=
  createDirectoriesWithin p.text.length t p

/-- Puts a symbolic link at a vacant place. -/
def createLink (t : FileTree) (p : Path) (target : Text) : Except FileError FileTree :=
  match t.place .kept p with
  | .error e => .error e
  | .ok (.present _) => .error .alreadyExists
  | .ok (.vacant directory name) => .ok (t.put (directory ++ [name]) (.link target))

/-- Takes out what a path leads to, with all that is in it. A link is taken out itself. -/
def remove (t : FileTree) (p : Path) : Except FileError FileTree :=
  match t.place .kept p with
  | .error e => .error e
  | .ok (.vacant _ _) => .error .notFound
  | .ok (.present location) =>
    .ok { t with
      root := t.root.erase location
      unlistable := t.unlistable.filter (!location.isPrefixOf ·) }

end ScriptBundle.FileTree
