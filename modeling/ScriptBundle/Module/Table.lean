import ScriptBundle.BuildError
import ScriptBundle.Graph.Search
import ScriptBundle.Module.Record
import ScriptBundle.Warning

/-!
# Module Tables

The modules of one build under numbers, and the graph of their imports.

## Main definitions

* `ModuleTable`: records in order of registration, and edges from importer to imported;
* `ModuleTable.add`: registers a record;
* `ModuleTable.link`: adds the edges of all recorded dependencies;
* `ModuleTable.orderedRecords`: the records under a list of numbers.

## Main statements

* `ModuleTable.add_of_known`: a path keeps its first record.
-/

namespace ScriptBundle

/-- A **module table** holds a record under each number below its size. -/
structure ModuleTable where
  records : List ModuleRecord
  /-- Importer and imported module of each edge, the newest edge first. -/
  edges : List (Nat × Nat)
  deriving DecidableEq, Repr

namespace ModuleTable

/-- A table without modules. -/
def empty : ModuleTable := ⟨[], []⟩

/-- The graph of imports. -/
def graph (t : ModuleTable) : Digraph := ⟨t.records.length, t.edges⟩

/-- The number of a path. -/
def idOf? (t : ModuleTable) (path : Path) : Option Nat :=
  t.records.findIdx? (·.path.same path)

/-- The record under a number. -/
def get? (t : ModuleTable) (id : Nat) : Option ModuleRecord := t.records[id]?

/-- The record of a path. -/
def find? (t : ModuleTable) (path : Path) : Option ModuleRecord :=
  t.records.find? (·.path.same path)

/-- Registers a record under the next number, unless its path has a record. -/
def add (t : ModuleTable) (record : ModuleRecord) : ModuleTable :=
  match t.idOf? record.path with
  | some _ => t
  | none => { t with records := t.records ++ [record] }

/-- The number under which `add` registers a record or finds one with its path. -/
def idAfterAdd (t : ModuleTable) (record : ModuleRecord) : Nat :=
  (t.idOf? record.path).getD t.records.length

/-- The warning of `add` for a path that is known. -/
def addWarnings (t : ModuleTable) (record : ModuleRecord) : List Warning :=
  match t.idOf? record.path with
  | some _ => [.repeatedModule record.relativePath]
  | none => []

/-- The edges from a module to the dependencies of a list, or the first dependency without a
record. -/
def edgesTo (t : ModuleTable) (id : Nat) (record : ModuleRecord) :
    List Path → Except TableFault (List (Nat × Nat))
  | [] => .ok []
  | dependency :: rest =>
    match t.idOf? dependency with
    | none => .error (.unknownDependency record.relativePath dependency)
    | some target => (t.edgesTo id record rest).map ((id, target) :: ·)

/-- The edges of all recorded dependencies, module by module. Those of one module come in
reverse, so that its newest edge leads to its first dependency. -/
def recordedEdges (t : ModuleTable) :
    (id : Nat) → List ModuleRecord → Except TableFault (List (Nat × Nat))
  | _, [] => .ok []
  | id, record :: rest =>
    match t.edgesTo id record record.dependencies.reverse with
    | .error e => .error e
    | .ok found => (t.recordedEdges (id + 1) rest).map (found ++ ·)

/-- Adds the edges of all recorded dependencies, unless one of them leads nowhere. Gives the table
also in case of an error. -/
def link (t : ModuleTable) : ModuleTable × Except TableFault Unit :=
  match t.recordedEdges 0 t.records with
  | .error fault => (t, .error fault)
  | .ok found => ({ t with edges := found.foldl Digraph.addEdge t.edges }, .ok ())

/-- The relative paths of the modules under a list of numbers. Unknown numbers are left out. -/
def relativePaths (t : ModuleTable) (ids : List Nat) : List String :=
  ids.filterMap fun id => (t.get? id).map ModuleRecord.relativePath

/-- The records under a list of numbers that are not among those `seen`, each once. -/
def recordsFrom (t : ModuleTable) (seen : List Nat) :
    List Nat → Except TableFault (List ModuleRecord)
  | [] => .ok []
  | id :: rest =>
    if seen.contains id then t.recordsFrom seen rest
    else
      match t.get? id with
      | none => .error (.unknownModule id)
      | some record => (t.recordsFrom (id :: seen) rest).map (record :: ·)

/-- The records under a list of numbers, in order of first occurrence. -/
def orderedRecords (t : ModuleTable) (order : List Nat) : Except TableFault (List ModuleRecord) :=
  t.recordsFrom [] order

/-- A path keeps its first record. -/
theorem add_of_known {t : ModuleTable} {record : ModuleRecord} {id : Nat}
    (h : t.idOf? record.path = some id) : t.add record = t := by
  simp [add, h]

end ModuleTable

end ScriptBundle
