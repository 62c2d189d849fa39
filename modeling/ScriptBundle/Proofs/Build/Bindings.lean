import ScriptBundle.Build.Bundle
import ScriptBundle.Proofs.Document.Body
import ScriptBundle.Proofs.Document.Integrity
import ScriptBundle.Proofs.Module.Remaining
import ScriptBundle.Proofs.Source.Resolution

/-!
# Imported Bindings

An import statement is taken out of its module, and no declaration takes its place: a name that it
binds can only mean something in the bundle if the module that it leads to still speaks of that
name. Nothing is renamed on the way, so this is so exactly for names that remain there by
themselves. The names of exported declarations do.

## Main definitions

* `mentions`: whether a name is a token of a text;
* `retains`: whether a name remains once the module syntax of a source is taken out;
* `Emits`: whether a module stands in a bundle with a body.

## Main statements

* `Declares.mem_remainingKinds`: a declared name remains;
* `mentions_moduleBody`: a body mentions exactly the names that its source retains;
* `bundle_mentions_iff`: which imported names a bundle mentions where they come from.
-/

namespace ScriptBundle

/-! ### Declared names -/

/-- What remains behind a place that the reader gets to is the end of what remains. -/
theorem ReadsTo.remaining {depth depth' offset : Nat} {c c' : Cursor}
    (h : ReadsTo depth c depth' c')
    {found : Interface} (hfound : interfaceFrom depth c = .ok found)
    (hplaced : Placed offset c.rest)
    (htext : ∀ t ∈ c.rest, t.text ≠ []) :
    ∃ front further offset', interfaceFrom depth' c' = .ok further ∧ Placed offset' c'.rest ∧
      (∀ t ∈ c'.rest, t.text ≠ []) ∧
      remaining found.edits c.rest = front ++ remaining further.edits c'.rest := by
  obtain ⟨passed, front, further, hrest, hfurther, hcut⟩ := h.exists_front hfound
  obtain ⟨pieces, hpieces⟩ := exists_cutInto hfurther
  have hremaining := remaining_passed front hrest hplaced htext (hcut hpieces) hpieces
  rw [hrest] at hplaced htext
  obtain ⟨offset', hplaced'⟩ := hplaced.of_append
  exact ⟨_, further, offset', hfurther, hplaced', fun t ht => htext t (List.mem_append_right _ ht),
    hremaining⟩

/-- Whether an exported declaration of a source **declares** a name. -/
def Declares (source : Text) (name : String) : Prop :=
  ∃ (c : Cursor) (a : Advance c Interface) (word : Token) (kept : List Token),
    ReadsTo 0 (.ofSource source) 0 c ∧ IsDeclaration c a word kept ∧ .named name ∈ a.value.exports

/-- A declared name remains. -/
theorem Declares.mem_remainingKinds {source : Text} {name : String} (h : Declares source name)
    {found : Interface} (hfound : Interface.read source = .ok found) :
    .identifier name ∈ remainingKinds found.edits (tokenize source) := by
  obtain ⟨c, a, word, kept, hreads, hdeclaration, hexported⟩ := h
  obtain ⟨front, further, offset, hfurther, hplaced, htext, hremaining⟩ :=
    hreads.remaining hfound (placed_place _ _) text_ne_nil_of_mem_tokenize
  rw [interfaceFrom_of_statement hdeclaration.statement] at hfurther
  obtain ⟨others, hothers, rfl⟩ := map_eq_ok_iff.mp hfurther
  obtain ⟨_, _, names, -, -, -, hamong, hvalue⟩ := hdeclaration.cut
  have hname : name ∈ names := by simpa [hvalue, declared] using hexported
  obtain ⟨t, ht, hkind⟩ := hamong name hname
  have hmem : t.written ∈ remaining found.edits (tokenize source) := by
    refine hremaining ▸ List.mem_append_right _ ?_
    rw [hdeclaration.remaining hothers hplaced htext]
    refine List.mem_cons_of_mem _ (List.mem_append_left _ ?_)
    exact List.mem_map_of_mem ht
  have hfst := List.mem_map_of_mem (f := Prod.fst) hmem
  rwa [show t.written.1 = .identifier name from hkind] at hfst

/-! ### Names in a body -/

/-- Whether a name is a token of a text. -/
def mentions (s : Text) (name : String) : Bool :=
  ((tokenize s).map (·.kind)).contains (.identifier name)

/-- Whether a source **retains** a name: the name is among the tokens that remain once the module
syntax is taken out. -/
def retains (source : Text) (name : String) : Bool :=
  match Interface.read source with
  | .ok found => (remainingKinds found.edits (tokenize source)).contains (.identifier name)
  | .error _ => false

/-- A name has its own shape, which no other kind has. -/
theorem mem_map_shape_iff {kinds : List TokenKind} {name : String} :
    .identifier name ∈ kinds.map TokenKind.shape ↔ .identifier name ∈ kinds := by
  have hshape : ∀ kind : TokenKind, kind.shape = .identifier name ↔ kind = .identifier name := by
    intro kind
    cases kind <;> simp [TokenKind.shape]
  simp [List.mem_map, hshape]

/-- A body mentions exactly the names that its source retains. -/
theorem mentions_moduleBody {source body : Text} (hbody : moduleBody source = .ok body)
    (h : ReadsOn source body) (name : String) :
    mentions body name = retains (withLineFeeds source) name := by
  obtain ⟨stripped, hstrip, -⟩ := map_eq_ok_iff.mp hbody
  obtain ⟨found, hread, -⟩ := map_eq_ok_iff.mp hstrip
  obtain ⟨guard, hguard, hshapes⟩ := shapes_moduleBody hstrip hbody (h.hashbang_iff hstrip)
  have hkinds : (tokenize stripped).map (·.kind) =
      remainingKinds found.edits (tokenize (withLineFeeds source)) := by
    rw [remainingKinds, ← h.keeps.written_strip hstrip hread, List.map_map]
    rfl
  have hnone : .identifier name ∉ guard := by
    rcases hguard with rfl | rfl <;> simp
  have hshapes' : ((tokenize body).map (·.kind)).map TokenKind.shape =
      guard ++ ((tokenize stripped).map (·.kind)).map TokenKind.shape := by
    rw [List.map_map, List.map_map]
    exact hshapes
  have hmem : .identifier name ∈ (tokenize body).map (·.kind) ↔
      .identifier name ∈ (tokenize stripped).map (·.kind) := by
    rw [← mem_map_shape_iff, hshapes', List.mem_append, or_iff_right hnone, mem_map_shape_iff]
  rw [Bool.eq_iff_iff, mentions, List.contains_iff_mem, hmem, hkinds, retains, hread,
    List.contains_iff_mem]

/-- A declared name is retained. -/
theorem Declares.retains {source : Text} {name : String} (h : Declares source name)
    {found : Interface} (hread : Interface.read source = .ok found) :
    ScriptBundle.retains source name = true := by
  rw [ScriptBundle.retains, hread]
  exact List.contains_iff_mem.mpr (h.mem_remainingKinds hread)

/-! ### Modules of a bundle -/

/-- A line is a part of joined lines. -/
theorem infix_joinLines {line : Text} {lines : List Text} (h : line ∈ lines) :
    line <:+: Text.joinLines lines := by
  obtain ⟨front, behind, rfl⟩ := List.append_of_mem h
  cases front with
  | nil =>
    rw [List.nil_append, joinLines_cons]
    exact (List.prefix_append _ _).isInfix
  | cons first front =>
    rw [List.cons_append, joinLines_cons, List.flatMap_append, List.flatMap_cons]
    exact ⟨first ++ front.flatMap ('\n' :: ·) ++ ['\n'], behind.flatMap ('\n' :: ·), by simp⟩

/-- The parts of modules hold the indented body of each. -/
theorem exists_body_of_allModuleParts {style : DocumentStyle} {modules : List ModuleRecord}
    {parts : List Text} (h : allModuleParts style modules = .ok parts) {m : ModuleRecord}
    (hm : m ∈ modules) :
    ∃ body, moduleBody m.content = .ok body ∧
      (body = [] ∨ indentBody style.indent body ∈ parts) := by
  induction modules generalizing parts with
  | nil => simp at hm
  | cons first rest ih =>
    rw [allModuleParts, moduleParts] at h
    cases hbody : moduleBody first.content with
    | error e => simp [hbody] at h
    | ok body =>
      simp only [hbody] at h
      obtain ⟨others, hothers, rfl⟩ := map_eq_ok_iff.mp h
      rcases List.mem_cons.mp hm with rfl | hm
      · refine ⟨body, hbody, ?_⟩
        cases body with
        | nil => exact .inl rfl
        | cons c body => exact .inr (by simp)
      · obtain ⟨body', hbody', hpart⟩ := ih hothers hm
        exact ⟨body', hbody', hpart.imp_right (List.mem_append_right _)⟩

/-- Whether a module stands in a bundle with a body, which is moved to the right there. -/
structure Emits (c : Config) (b : Bundle) (m : ModuleRecord) (body : Text) : Prop where
  content : moduleBody m.content = .ok body
  text : indentBody c.documentStyle.indent body <:+: b.text

/-- A bundle emits all modules but the one that declares the metadata. -/
theorem exists_emits {accepts : Text → Bool} {now : Moment} {t : FileTree} {c : Config} {b : Bundle}
    (h : (uncheckedBundle accepts now t c).outcome = .ok b) :
    ∃ modules, resolve t c.sourceRule c.src = .ok modules ∧
      ∀ m ∈ emittedModules c.documentStyle modules, ∃ body, Emits c b m body := by
  rw [uncheckedBundle] at h
  simp only [Report.bind_outcome_eq_ok_iff, Report.outcome_ofExcept, mapError_eq_ok_iff,
    Report.outcome_pure, Except.ok.injEq] at h
  obtain ⟨modules, hmodules, text, htext, rfl⟩ := h
  refine ⟨modules, hmodules, fun m hm => ?_⟩
  obtain ⟨header, parts, -, hparts, hwhole, -⟩ :=
    concatenate_eq_ok_iff.mp (mapError_eq_ok_iff.mp htext)
  obtain ⟨body, hbody, hpart⟩ := exists_body_of_allModuleParts hparts hm
  refine ⟨body, hbody, ?_⟩
  rcases hpart with rfl | hpart
  · rw [indentBody_nil]
    exact List.nil_infix
  · have hline : indentBody c.documentStyle.indent body <:+:
        documentText c.documentStyle header parts := by
      rw [documentText]
      exact (infix_joinLines (by simp [hpart])).trans (List.prefix_append _ _).isInfix
    rwa [hwhole] at hline

/-- The module that an import leads to is one of the records, and exports what the import takes. -/
theorem SourceRoot.IsResolution.exists_target {root : SourceRoot} {t : FileTree} {files : List Path}
    {records : List ModuleRecord} (h : root.IsResolution t files records)
    (hresolvable : root.Resolvable t files) {m : ModuleRecord} (hm : m ∈ records)
    {imported : Import} (himported : imported ∈ m.imports) {path : Path}
    (hlookup : root.lookup t imported.source m.path = .ok (some path)) :
    ∃ target ∈ records, target.path = path ∧ imported.clause.SatisfiedBy target.exports := by
  obtain ⟨edits, hholds⟩ := (h.describes m hm).holds
  have hexternal : SpecifierKind.of imported.source.toList ≠ .external := by
    intro hexternal
    rw [lookup_eq_none_iff.mpr hexternal] at hlookup
    simp at hlookup
  have hfile : m.path ∈ files := h.files.mem_iff.mp (List.mem_map_of_mem hm)
  obtain ⟨found, hfound, hlookup'⟩ :=
    hresolvable.finds m.path hfile _ hholds imported himported hexternal
  obtain rfl : path = found := by simpa [hlookup] using hlookup'
  obtain ⟨target, htarget, rfl⟩ := List.mem_map.mp (h.files.mem_iff.mpr hfound)
  obtain ⟨edits', hoffered⟩ := (h.describes target htarget).holds
  exact ⟨target, htarget, rfl,
    hresolvable.offers m.path hfile _ hholds imported himported target.path hlookup _ hoffered⟩

/-- **What imports find in a bundle.** Every module that an import of a bundle leads to is part of
the bundle. It is emitted unless it declares the metadata. If it is, and if its body is read like
its source, then the body mentions exactly those of the imported names that the source retains, all
declared ones among them. -/
theorem bundle_mentions_iff {options : BuildOptions} {t t' : FileTree} {c : Config} {b : Bundle}
    {warnings : List Warning} (hbundle : bundle options t c = (t', ⟨warnings, .ok b⟩))
    (ht : t'.root.WellFormed) :
    ∃ location modules, t'.canonicalLocation c.src = .ok location ∧
      resolve t' c.sourceRule c.src = .ok modules ∧
      ∀ m ∈ modules, ∀ imported ∈ m.imports, ∀ path,
        (c.sourceRule.rootAt location).lookup t' imported.source m.path = .ok (some path) →
        ∃ target ∈ modules, target.path = path ∧ imported.clause.SatisfiedBy target.exports ∧
          (target ∈ emittedModules c.documentStyle modules ↔
            target.relativePath ≠ c.metadataModule) ∧
          (target ∈ emittedModules c.documentStyle modules → ∃ body, Emits c b target body ∧
            (ReadsOn target.content body → ∀ name ∈ imported.clause.boundNames,
              mentions body name = retains (withLineFeeds target.content) name ∧
              (Declares (withLineFeeds target.content) name → mentions body name = true))) := by
  have hunchecked : (uncheckedBundle options.accepts options.now t' c).outcome = .ok b := by
    rw [bundle] at hbundle
    split at hbundle
    · simp [Report.fail] at hbundle
    · obtain ⟨rfl, hreport⟩ := Prod.mk.inj hbundle
      rw [hreport]
  obtain ⟨modules, hmodules, hemits⟩ := exists_emits hunchecked
  obtain ⟨location, files, hlocation, -, -, hresolvable, hresolution⟩ :=
    isResolution_of_resolve ht hmodules
  refine ⟨location, modules, hlocation, hmodules, ?_⟩
  intro m hm imported himported path hlookup
  obtain ⟨target, htarget, hpath, hoffers⟩ :=
    hresolution.exists_target hresolvable hm himported hlookup
  have hmem : target ∈ emittedModules c.documentStyle modules ↔
      target.relativePath ≠ c.metadataModule := by
    simp [emittedModules, Config.documentStyle, htarget]
  refine ⟨target, htarget, hpath, hoffers, hmem, fun hemitted => ?_⟩
  obtain ⟨body, hbody⟩ := hemits target hemitted
  refine ⟨body, hbody, fun hreads name _ => ?_⟩
  have hmentions := mentions_moduleBody hbody.content hreads name
  refine ⟨hmentions, fun hdeclares => ?_⟩
  obtain ⟨stripped, hstrip, -⟩ := map_eq_ok_iff.mp hbody.content
  obtain ⟨found, hread, -⟩ := map_eq_ok_iff.mp hstrip
  rw [hmentions, hdeclares.retains hread]

/-! ### A variable with another name -/

/-- A source tree with a module that imports a variable by another name. -/
def renamingTree : FileTree where
  root := .directory [("src".toList, .directory
    [("a.js".toList, .file "import \x7ba as b\x7d from './t.js'".toUTF8),
     ("m.js".toList, .file "export default \x7bname: 'x'\x7d".toUTF8),
     ("t.js".toList, .file "export var a".toUTF8)])]
  workingDirectory := []

/-- How its bundle is made. -/
def renamingConfig : Config :=
  { src := ⟨"/src".toList⟩, metadataModule := "m.js", indentWidth := 1, exclude := [] }

/-- A build without gates. -/
def uncheckedBuild : BuildOptions :=
  { run := fun t _ _ _ => (t, .error .notFound), now := ⟨0, false⟩, skipChecks := true }

/-- The import of the variable. -/
def renamingImport : Import := ⟨.names [⟨"a", "b"⟩], "./t.js"⟩

/-- The record of the module that imports the variable. -/
def renamingModule : ModuleRecord :=
  { path := ⟨"/src/a.js".toList⟩, relativePath := "a.js"
    content := "import \x7ba as b\x7d from './t.js'".toList
    imports := [renamingImport], dependencies := [⟨"/src/t.js".toList⟩] }

/-- The record of the module that declares the metadata. -/
def titleModule : ModuleRecord :=
  { path := ⟨"/src/m.js".toList⟩, relativePath := "m.js"
    content := "export default \x7bname: 'x'\x7d".toList, exports := [.defaultValue] }

/-- The record of the module that exports the variable. -/
def variableModule : ModuleRecord :=
  { path := ⟨"/src/t.js".toList⟩, relativePath := "t.js", content := "export var a".toList
    exports := [.named "a"] }

theorem wellFormed_renamingTree : renamingTree.root.WellFormed := by
  refine .directory (by simp [Path.IsName]) (by simp) ?_
  intro entry hentry
  obtain rfl := List.mem_singleton.mp hentry
  refine .directory (by simp [Path.IsName]) (by simp) ?_
  simp only [List.forall_mem_cons, List.not_mem_nil, false_implies, implies_true, and_true]
  exact ⟨.file _, .file _, .file _⟩

theorem load_renamingModule :
    (renamingConfig.sourceRule.rootAt ["src".toList]).load renamingTree renamingModule.path =
      .ok renamingModule := by
  have hread : Interface.read renamingModule.content =
      .ok ⟨renamingModule.imports, renamingModule.exports, [⟨⟨0, 29⟩, .nothing⟩]⟩ := by
    simp only [Interface.read, Cursor.ofSource, tokenize_eq_upTo]
    cbv
  refine SourceRoot.load_eq_ok_iff.mpr ⟨rfl, ⟨by cbv, by cbv, ⟨_, hread⟩, by cbv⟩, ?_⟩
  exact List.forall_mem_singleton.mpr ⟨some variableModule.path, by cbv⟩

theorem load_titleModule :
    (renamingConfig.sourceRule.rootAt ["src".toList]).load renamingTree titleModule.path =
      .ok titleModule := by
  have hread : Interface.read titleModule.content =
      .ok ⟨titleModule.imports, titleModule.exports, [⟨⟨0, 15⟩, .voidOperator⟩]⟩ := by
    simp only [Interface.read, Cursor.ofSource, tokenize_eq_upTo]
    cbv
  refine SourceRoot.load_eq_ok_iff.mpr ⟨rfl, ⟨by cbv, by cbv, ⟨_, hread⟩, by cbv⟩, ?_⟩
  exact List.forall_mem_nil _

theorem load_variableModule :
    (renamingConfig.sourceRule.rootAt ["src".toList]).load renamingTree variableModule.path =
      .ok variableModule := by
  have hread : Interface.read variableModule.content =
      .ok ⟨variableModule.imports, variableModule.exports, [⟨⟨0, 7⟩, .nothing⟩]⟩ := by
    simp only [Interface.read, Cursor.ofSource, tokenize_eq_upTo]
    cbv
  refine SourceRoot.load_eq_ok_iff.mpr ⟨rfl, ⟨by cbv, by cbv, ⟨_, hread⟩, by cbv⟩, ?_⟩
  exact List.forall_mem_nil _

theorem resolve_renamingTree :
    resolve renamingTree renamingConfig.sourceRule renamingConfig.src =
      .ok [variableModule, renamingModule, titleModule] := by
  refine resolve_eq_ok_iff.mpr ⟨["src".toList], by cbv,
    [renamingModule.path, titleModule.path, variableModule.path], by cbv,
    [renamingModule, titleModule, variableModule], ?_, by cbv,
    ⟨[renamingModule, titleModule, variableModule], [(0, 2)]⟩, by cbv, by cbv, by cbv⟩
  simp only [List.map_cons, List.map_nil, load_renamingModule, load_titleModule,
    load_variableModule]

theorem moduleBody_variableModule :
    moduleBody variableModule.content = .ok "var a".toList := by
  simp only [moduleBody, strip, Interface.read, Cursor.ofSource, tokenize_eq_upTo]
  cbv

theorem moduleBody_renamingModule : moduleBody renamingModule.content = .ok [] := by
  simp only [moduleBody, strip, Interface.read, Cursor.ofSource, tokenize_eq_upTo]
  cbv

/-- The parts of the script, in which nothing binds the other name. -/
def renamingParts : List Text :=
  [[], " // t.js".toList, " var a".toList, [], " // a.js".toList]

theorem headerOf_renamingTree :
    (headerOf renamingConfig.documentStyle [variableModule, renamingModule, titleModule]
      (renamingConfig.buildContext ⟨0, false⟩ ["t.js", "a.js", "m.js"])).outcome =
        .ok plainHeader := by
  have hreading : MetadataReading.ofSource titleModule.content =
      ⟨[("name", .scalar "x")], none⟩ := by
    simp only [MetadataReading.ofSource, Cursor.ofSource, tokenize_eq_upTo]
    cbv
  have hfind : [variableModule, renamingModule, titleModule].find?
      (·.relativePath == renamingConfig.documentStyle.metadataModule) = some titleModule := by
    decide
  simp only [headerOf, hfind, hreading]
  cbv

theorem allModuleParts_renamingTree :
    allModuleParts renamingConfig.documentStyle [variableModule, renamingModule] =
      .ok renamingParts := by
  simp only [allModuleParts, moduleParts, moduleBody_variableModule, moduleBody_renamingModule,
    indentBody, literalSpans, tokenize_eq_upTo]
  cbv

theorem isScript_renamingTree :
    isScript (documentText renamingConfig.documentStyle plainHeader renamingParts) = true := by
  simp only [isScript, tokenize_eq_upTo]
  cbv

/-- The bundle of the tree. -/
def renamingBundle : Bundle :=
  ⟨documentText renamingConfig.documentStyle plainHeader renamingParts, ["t.js", "a.js", "m.js"]⟩

theorem concatenate_renamingTree :
    (concatenate isScript renamingConfig.documentStyle [variableModule, renamingModule, titleModule]
      (renamingConfig.buildContext ⟨0, false⟩ ["t.js", "a.js", "m.js"])).outcome =
        .ok renamingBundle.text := by
  have hemitted : emittedModules renamingConfig.documentStyle
      [variableModule, renamingModule, titleModule] = [variableModule, renamingModule] := by
    decide
  refine concatenate_eq_ok_iff.mpr ⟨plainHeader, renamingParts, headerOf_renamingTree, ?_, rfl,
    isScript_renamingTree⟩
  rw [hemitted]
  exact allModuleParts_renamingTree

theorem outcome_renamingTree :
    (uncheckedBundle isScript ⟨0, false⟩ renamingTree renamingConfig).outcome =
      .ok renamingBundle := by
  simp only [uncheckedBundle, Report.bind_outcome_eq_ok_iff, Report.outcome_ofExcept,
    mapError_eq_ok_iff, Report.outcome_pure]
  exact ⟨_, resolve_renamingTree, _, mapError_eq_ok_iff.mpr concatenate_renamingTree, rfl⟩

/-- The import leads to the variable. -/
theorem lookup_renamingImport :
    (renamingConfig.sourceRule.rootAt ["src".toList]).lookup renamingTree renamingImport.source
      renamingModule.path = .ok (some variableModule.path) := by
  cbv

theorem readsOn_variableModule : ReadsOn variableModule.content "var a".toList :=
  readsOn_of_plain (by cbv) (by decide) (by decide) (by decide)

/-- Where the variable is declared, it has but one name. -/
theorem retains_variableModule : retains (withLineFeeds variableModule.content) "b" = false := by
  simp only [retains, Interface.read, Cursor.ofSource, tokenize_eq_upTo]
  cbv

/-- The name by which the variable is imported means nothing in the bundle. -/
theorem bundle_mentions_iff_of_renaming :
    ∃ warnings body, bundle uncheckedBuild renamingTree renamingConfig =
        (renamingTree, ⟨warnings, .ok renamingBundle⟩) ∧
      renamingImport ∈ renamingModule.imports ∧ "b" ∈ renamingImport.clause.boundNames ∧
      Emits renamingConfig renamingBundle variableModule body ∧ mentions body "b" = false := by
  have hbundle : bundle uncheckedBuild renamingTree renamingConfig =
      (renamingTree, ⟨(uncheckedBundle isScript ⟨0, false⟩ renamingTree renamingConfig).warnings,
        .ok renamingBundle⟩) := by
    rw [← outcome_renamingTree]
    rfl
  obtain ⟨location, modules, hlocation, hmodules, hfinds⟩ :=
    bundle_mentions_iff hbundle wellFormed_renamingTree
  obtain rfl : ["src".toList] = location := by
    have hcanonical : renamingTree.canonicalLocation renamingConfig.src = .ok ["src".toList] := by
      cbv
    exact Except.ok.inj (hcanonical.symm.trans hlocation)
  obtain rfl : [variableModule, renamingModule, titleModule] = modules :=
    Except.ok.inj (resolve_renamingTree.symm.trans hmodules)
  have himport : renamingImport ∈ renamingModule.imports := List.mem_singleton_self _
  have hname : "b" ∈ renamingImport.clause.boundNames := List.mem_singleton_self _
  obtain ⟨target, htarget, hpath, -, hemitted, hmentions⟩ :=
    hfinds renamingModule (by simp) renamingImport himport _ lookup_renamingImport
  obtain rfl : variableModule = target := by
    have hdistinct : ∀ m ∈ [variableModule, renamingModule, titleModule],
        m.path = variableModule.path → variableModule = m := by decide
    exact hdistinct target htarget hpath
  obtain ⟨body, hemits, hnames⟩ := hmentions (hemitted.mpr (by decide))
  obtain rfl : "var a".toList = body :=
    Except.ok.inj (moduleBody_variableModule.symm.trans hemits.content)
  refine ⟨_, _, hbundle, himport, hname, hemits, ?_⟩
  rw [(hnames readsOn_variableModule "b" hname).1, retains_variableModule]

end ScriptBundle
