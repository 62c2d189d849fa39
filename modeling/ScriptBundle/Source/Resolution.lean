import ScriptBundle.Module.Statement
import ScriptBundle.Module.Table
import ScriptBundle.Source.Discovery
import ScriptBundle.Source.Lookup

/-!
# Resolution

Reads the modules of a source tree, checks every import against the module that it names, and
puts the modules into an order of execution.

## Main definitions

* `SourceRoot.load`: the record of one module;
* `SourceRoot.checkImport`: whether an import finds what it names;
* `resolve`: the records of a source tree, each behind the modules that it imports.

## Main statements

* `SourceRoot.checkImport_external`: external imports are never checked.
-/

namespace ScriptBundle

namespace SourceRoot

/-- The files that imports mean, without those of external imports. -/
def targets (root : SourceRoot) (t : FileTree) (importer : Path) :
    List Import → Except BuildError (List Path)
  | [] => .ok []
  | imported :: rest => do
    let target? ← root.lookup t imported.source importer
    let others ← root.targets t importer rest
    return target?.toList ++ others

/-- The **record** of a module, from its file. -/
def load (root : SourceRoot) (t : FileTree) (path : Path) : Except BuildError ModuleRecord := do
  let relativePath := root.relative path
  let content ← (t.readText path).mapError (.unreadableModule relativePath)
  let interface ← (Interface.read content).mapError fun e =>
    match e.line? content with
    | some line => .parse relativePath line e.fault
    | none => .unplaced relativePath e
  let targets ← root.targets t path interface.imports
  return { path, relativePath, content, imports := interface.imports,
           exports := interface.exports, dependencies := targets.eraseDups }

/-- The first name that an import takes from a module without finding it there. -/
def missing? (target : ModuleRecord) : ImportClause → Option String
  | .names list => (list.find? (!target.exportsName ·.imported)).map ImportName.imported
  | .defaultExport _ => if target.hasDefaultExport then none else some "default"
  | .namespaceObject _ => none
  | .nothing => none

/-- Checks that an import names a module of the table, and only names that the module exports. -/
def checkImport (root : SourceRoot) (t : FileTree) (table : ModuleTable) (importer : ModuleRecord)
    (imported : Import) : Except BuildError Unit := do
  let some path ← root.lookup t imported.source importer.path | return
  let some target := if importer.dependencies.contains path then table.find? path else none
    | .error (.resolution imported.source importer.relativePath)
  match missing? target imported.clause with
  | some name => .error (.missingExport name imported.source importer.relativePath)
  | none => return

/-- Checks all imports of all modules. -/
def checkImports (root : SourceRoot) (t : FileTree) (table : ModuleTable) :
    Except BuildError Unit :=
  table.records.forM fun importer => importer.imports.forM (root.checkImport t table importer)

/-- External imports are never checked. -/
theorem checkImport_external {root : SourceRoot} {t : FileTree} {table : ModuleTable}
    {importer : ModuleRecord} {imported : Import}
    (h : SpecifierKind.of imported.source.toList = .external) :
    root.checkImport t table importer imported = .ok () := by
  simp [checkImport, lookup, candidate?_eq_none.mpr h, bind, Except.bind, pure, Except.pure]

end SourceRoot

/-- Refuses a table in which a module needs itself to be there first. -/
def ModuleTable.checkAcyclic (table : ModuleTable) : Except BuildError Unit :=
  match table.graph.findCycle with
  | some cycle => .error (.cycle (table.relativePaths cycle))
  | none => .ok ()

/-- The records of a source tree in an **order of execution**: each module comes behind all that
it imports. -/
def resolve (t : FileTree) (rule : SourceRule) (src : Path) :
    Except BuildError (List ModuleRecord) := do
  let location ← t.sourceRoot src
  let root : SourceRoot := ⟨.ofNames location, rule.extension⟩
  let files ← t.filesBelow rule location
  let records ← files.mapM (root.load t)
  let table := records.foldl ModuleTable.add .empty
  root.checkImports t table
  let (linked, outcome) := table.link
  outcome.mapError .table
  linked.checkAcyclic
  (linked.orderedRecords linked.graph.postOrder).mapError .table

end ScriptBundle
