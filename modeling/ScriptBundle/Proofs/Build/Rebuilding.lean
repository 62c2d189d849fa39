import ScriptBundle.Build.Output
import ScriptBundle.Proofs.Build.Bindings
import ScriptBundle.Proofs.FileTree.Straight
import ScriptBundle.Proofs.Source.Rereading

/-!
# Building Again

The output of a build is a module of the next build exactly if it stands below the source root,
under names that the source rule admits. A build refuses to write there, but compares paths without
looking at any directory: it is right if source root and output are spelled straight, and may be
wrong where `..` or links are in the way. As long as the output is no module, and the directories
that were made for it can be listed, a second build finds the same modules and writes the same
bytes.

## Main definitions

* `Config.SameHeader`: whether the time of a build leaves no mark in the header.

## Main statements

* `Config.outputInSource_of_admits`: a module to be written is seen by its absolute path;
* `Config.outputInSource_of_straight`: it is seen if source root and output are spelled straight;
* `BuildOptions.check_again`: gates that have let a build pass do so again;
* `headerOf_of_plain`: a header without placeholders is the same at all times;
* `build_again`: when the output is a module, and what the second build does if it is none.
-/

namespace ScriptBundle

open FileTree

/-! ### The output as a module -/

/-- An output whose absolute path is that of a module below the source root is seen to be one. -/
theorem Config.outputInSource_of_admits {c : Config} {here source below : Location}
    (hsrc : Path.absolute? (.ofNames here) c.src = some (.ofNames source))
    (houtput : Path.absolute? (.ofNames here) c.output = some (.ofNames (source ++ below)))
    (hnames : ∀ name ∈ source ++ below, Path.IsName name) (hadmits : c.sourceRule.Admits below) :
    c.outputInSource here = true := by
  have hsource := Path.components_ofNames fun name hname =>
    hnames name (List.mem_append_left _ hname)
  have hwhole := Path.components_ofNames hnames
  have hstarts : (Path.ofNames (source ++ below)).startsWith (.ofNames source) = true := by
    rw [Path.startsWith, hsource, hwhole, List.isPrefixOf_iff_prefix]
    exact ⟨below.map .normal, by simp⟩
  obtain ⟨name, hlast, hmodule⟩ := hadmits.isModule
  have hextension : (Path.ofNames (source ++ below)).extension? == some c.extension := by
    have hfile : (Path.ofNames (source ++ below)).fileName? = some name := by
      have hend : (Component.root :: (source ++ below).map .normal).getLast? =
          some (.normal name) := by
        rw [List.getLast?_cons, List.getLast?_map, List.getLast?_append, hlast]
        rfl
      rw [Path.fileName?, hwhole, hend]
    rw [Path.extension?, hfile]
    exact hmodule
  simp [outputInSource, hsrc, houtput, hstarts, hextension]

/-- A module that is written is seen to be one if source root and output are spelled straight. -/
theorem Config.outputInSource_of_straight {c : Config} {t : FileTree} {source below : Location}
    (ht : t.root.WellFormed) (hsrc : t.Straight c.src) (houtput : t.Straight c.output)
    (hsource : t.canonicalLocation c.src = .ok source)
    (hwritten : t.locateBy .written c.output = .ok (source ++ below))
    (hadmits : c.sourceRule.Admits below) : c.outputInSource t.workingDirectory = true := by
  have habsolute := hsrc.absolute?_of_locateBy ht (fun _ => rfl) hsource
  have habsolute' := houtput.absolute?_of_locateBy ht (fun _ => rfl) hwritten
  exact c.outputInSource_of_admits habsolute habsolute'
    (ht.isName_of_at? (isSome_at?_of_locateBy hwritten)) hadmits

/-! ### Gates -/

section Gates

variable {run : CommandRunner} {t t' : FileTree} {c : Config}

/-- The gates of a project let a build pass if all of them hold. -/
theorem checkGates_eq_ok_iff (hrun : LeavesFiles run) :
    (checkGates run t c).2 = .ok () ↔ c.gates = [] ∨
      ∃ files, t.sourceFiles c.sourceRule c.src = .ok files ∧
        ∀ gate ∈ c.gates, (gate.check run t files).2.holds = true := by
  rw [checkGates]
  split
  · next hempty => simp [List.isEmpty_iff.mp hempty]
  · next hempty =>
    have hne : c.gates ≠ [] := fun hnil => hempty (by simp [hnil])
    cases hfiles : t.sourceFiles c.sourceRule c.src with
    | error e => simp [hne]
    | ok files =>
      have hfirst : (firstFailure? run t files c.gates).2 = none ↔
          ∀ gate ∈ c.gates, (gate.check run t files).2.holds = true := firstFailure?_eq_none hrun
      simp only [hne, false_or, Except.ok.injEq, exists_eq_left', ← hfirst]
      cases hfailure : firstFailure? run t files c.gates with
      | mk behind failure => cases failure <;> simp

section Again

variable {source written : Location} (h : Kept written t t') (ht : t.root.WellFormed)
  (hwritten : ¬∃ below, written = source ++ below ∧ c.sourceRule.Admits below)
include h ht hwritten

/-- A gate that holds does so again if its command gives the same answer. -/
theorem Gate.holds_again {gate : Gate}
    (hanswers : ∀ directory program arguments,
      (run t' directory program arguments).2 = (run t directory program arguments).2)
    (hholds : (gate.check run t (t.discovered c.sourceRule source)).2.holds = true) :
    (gate.check run t' (t.discovered c.sourceRule source)).2.holds = true := by
  cases gate with
  | command words directory =>
    cases words with
    | nil => exact hholds
    | cons program arguments =>
      simp only [check, commandGate] at hholds ⊢
      rw [hanswers]
      exact hholds
  | sizePolicy limit =>
    rw [check, sizePolicy_holds_iff] at hholds ⊢
    intro file hfile
    have hnone := hholds file hfile
    rw [sizeDiagnostic?] at hnone ⊢
    cases htext : t.readText file with
    | error e => simp [htext] at hnone
    | ok text =>
      rw [h.readText_of_mem_discovered ht hwritten hfile htext]
      rw [htext] at hnone
      exact hnone

/-- Gates that have let a build pass do so again. -/
theorem BuildOptions.check_again {options : BuildOptions} (hrun : LeavesFiles options.run)
    (ht' : t'.root.WellFormed) (hsource : t.sourceRoot c.src = .ok source)
    (hlistable : t'.Listable c.sourceRule source)
    (hanswers : ∀ directory program arguments,
      (options.run t' directory program arguments).2 =
        (options.run t directory program arguments).2)
    (hcheck : (options.check t c).2 = .ok ()) : (options.check t' c).2 = .ok () := by
  rw [check] at hcheck ⊢
  split at hcheck
  · next hskip => rw [if_pos hskip]
  · next hskip =>
    rw [if_neg hskip]
    rw [checkGates_eq_ok_iff hrun] at hcheck ⊢
    refine hcheck.imp_right ?_
    rintro ⟨files, hfiles, hholds⟩
    have hsource' := h.sourceRoot hsource
    obtain ⟨-, entries, hentries⟩ := sourceRoot_eq_ok_iff.mp hsource'
    rw [FileTree.sourceFiles, hsource] at hfiles
    have hfiles' : t'.filesBelow c.sourceRule source = .ok files :=
      h.filesBelow ht ht' hwritten hentries hlistable hfiles
    obtain rfl := eq_discovered_of_filesBelow hfiles
    refine ⟨_, ?_, fun gate hgate => Gate.holds_again h ht hwritten hanswers (hholds gate hgate)⟩
    rw [FileTree.sourceFiles, hsource']
    exact hfiles'

end Again

end Gates

/-! ### Headers -/

/-- Where the first character of a pattern does not occur, nothing is replaced. -/
theorem replaceString_of_not_mem {s pattern replacement : String} {c : Char} {rest : Text}
    (hpattern : pattern.toList = c :: rest) (h : c ∉ s.toList) :
    replaceString s pattern replacement = s := by
  have hkept : ∀ text : Text, c ∉ text →
      Text.replaceFrom (c :: rest) replacement.toList 0 text = text := by
    intro text htext
    induction text with
    | nil => rfl
    | cons d text ih =>
      obtain ⟨hne, hbehind⟩ := not_or.mp (mt List.mem_cons.mpr htext)
      have hprefix : (c :: rest).isPrefixOf (d :: text) = false := by
        simp [List.isPrefixOf, hne]
      simp [Text.replaceFrom, hprefix, ih hbehind]
  rw [replaceString, hpattern, Text.replaceAll, if_neg (by simp), hkept _ h, String.ofList_toList]

/-- Whether metadata are **plain**: no brace opens in any text. -/
def Metadata.Plain (m : Metadata) : Prop :=
  ∀ field ∈ m.fields, ∀ item ∈ field.2.items, '{' ∉ item.toList

instance (m : Metadata) : Decidable m.Plain := by
  unfold Metadata.Plain
  infer_instance

/-- A text in which no brace opens has no placeholders. -/
theorem fillPlaceholders_of_not_mem (context : BuildContext) {s : String} (h : '{' ∉ s.toList) :
    fillPlaceholders context.templateValues s = s := by
  have hvalue : ∀ placeholder replacement : String, placeholder.toList.head? = some '{' →
      replaceString s placeholder replacement = s := by
    intro placeholder replacement hhead
    obtain ⟨rest, hrest⟩ := List.head?_eq_some_iff.mp hhead
    exact replaceString_of_not_mem hrest h
  simp only [fillPlaceholders, BuildContext.templateValues, List.foldl_cons, List.foldl_nil]
  rw [hvalue _ _ (by decide), hvalue _ _ (by decide), hvalue _ _ (by decide),
    hvalue _ _ (by decide), hvalue _ _ (by decide)]

/-- Plain metadata are the same for every build. -/
theorem Metadata.Plain.substitute {m : Metadata} (h : m.Plain) (context : BuildContext) :
    m.substitute context.templateValues = m := by
  have hfill : ∀ field ∈ m.fields, ∀ item ∈ field.2.items,
      fillPlaceholders context.templateValues item = item := fun field hfield item hitem =>
    fillPlaceholders_of_not_mem context (h field hfield item hitem)
  have hfield : ∀ field ∈ m.fields,
      (field.1, field.2.map (fillPlaceholders context.templateValues)) = field := by
    rintro ⟨key, value⟩ hmem
    cases value with
    | scalar text => rw [FieldValue.map, hfill _ hmem text (List.mem_singleton_self _)]
    | list texts =>
      have htexts : texts.map (fillPlaceholders context.templateValues) = texts :=
        (List.map_congr_left (hfill _ hmem)).trans (List.map_id' texts)
      rw [FieldValue.map, htexts]
  rw [Metadata.substitute, List.map_congr_left hfield, List.map_id']

/-- After the same report it is the values of a success that count. -/
theorem Report.bind_congr {r : Report ε α} {f g : α → Report ε β}
    (h : ∀ a, r.outcome = .ok a → f a = g a) : (r >>= f) = (r >>= g) := by
  simp only [bind, Report.bind]
  cases hr : r.outcome with
  | error e => rfl
  | ok a => simp only [h a hr]

/-- The header of plain metadata is the same for every build. -/
theorem headerOf_of_plain {style : DocumentStyle} {modules : List ModuleRecord} {m : ModuleRecord}
    (hm : modules.find? (·.relativePath == style.metadataModule) = some m)
    (hplain : ∀ declared, (MetadataReading.ofSource m.content).result = .ok declared →
      declared.Plain) {context other : BuildContext} :
    headerOf style modules context = headerOf style modules other := by
  rw [headerOf, headerOf, hm]
  refine Report.bind_congr fun _ _ => Report.bind_congr fun declared hdeclared => ?_
  have hread := mapError_eq_ok_iff.mp ((Report.outcome_ofExcept _).symm.trans hdeclared)
  have hsubstitute := (hplain declared hread).substitute
  simp only [hsubstitute]

/-! ### Bundles -/

/-- The **header** that a configuration gives modules at a time. -/
def Config.headerAt (c : Config) (now : Moment) (modules : List ModuleRecord) :
    Except BuildError Text :=
  (headerOf c.documentStyle modules
    (c.buildContext now (modules.map ModuleRecord.relativePath))).outcome

/-- Whether the header of a project is the same at two times. -/
def Config.SameHeader (c : Config) (t : FileTree) (now later : Moment) : Prop :=
  ∀ modules, resolve t c.sourceRule c.src = .ok modules →
    c.headerAt later modules = c.headerAt now modules

section Bundles

variable {accepts : Text → Bool} {now later : Moment} {t t' : FileTree} {c : Config} {b : Bundle}

/-- The bundle of a project is made of its modules and its header. -/
theorem uncheckedBundle_eq_ok_iff : (uncheckedBundle accepts now t c).outcome = .ok b ↔
    ∃ modules, resolve t c.sourceRule c.src = .ok modules ∧
      ∃ header parts, c.headerAt now modules = .ok header ∧
        allModuleParts c.documentStyle (emittedModules c.documentStyle modules) = .ok parts ∧
        accepts b.text = true ∧
        b = ⟨documentText c.documentStyle header parts, modules.map ModuleRecord.relativePath⟩ := by
  simp only [uncheckedBundle, Report.bind_outcome_eq_ok_iff, Report.outcome_ofExcept,
    mapError_eq_ok_iff, Report.outcome_pure, Except.ok.injEq]
  refine exists_congr fun modules => and_congr_right fun _ => ?_
  constructor
  · rintro ⟨text, htext, rfl⟩
    obtain ⟨header, parts, hheader, hparts, rfl, haccepted⟩ :=
      concatenate_eq_ok_iff.mp (mapError_eq_ok_iff.mp htext)
    exact ⟨header, parts, hheader, hparts, haccepted, rfl⟩
  · rintro ⟨header, parts, hheader, hparts, haccepted, rfl⟩
    exact ⟨_, mapError_eq_ok_iff.mpr (concatenate_eq_ok_iff.mpr
      ⟨header, parts, hheader, hparts, rfl, haccepted⟩), rfl⟩

/-- The same modules with the same header make up the same bundle. -/
theorem uncheckedBundle_again (hbundle : (uncheckedBundle accepts now t c).outcome = .ok b)
    (hmodules : ∀ modules, resolve t c.sourceRule c.src = .ok modules →
      resolve t' c.sourceRule c.src = .ok modules)
    (hheader : c.SameHeader t now later) :
    (uncheckedBundle accepts later t' c).outcome = .ok b := by
  obtain ⟨modules, hresolve, header, parts, hnow, hrest⟩ := uncheckedBundle_eq_ok_iff.mp hbundle
  refine uncheckedBundle_eq_ok_iff.mpr ⟨modules, hmodules modules hresolve, header, parts, ?_,
    hrest⟩
  rw [hheader modules hresolve, hnow]

end Bundles

/-! ### Builds -/

/-- The same build at another time. -/
def BuildOptions.atTime (options : BuildOptions) (later : Moment) : BuildOptions :=
  { options with now := later }

section Builds

variable {options : BuildOptions} {t t' : FileTree} {c : Config} {done : BuildReport}

/-- Where commands leave the files alone, the gates of a build do. -/
theorem BuildOptions.check_tree (hrun : LeavesFiles options.run) : (options.check t c).1 = t := by
  rw [check]
  split
  · rfl
  · exact checkGates_tree hrun t c

/-- There is a bundle if the gates let the build pass and the modules make up one. -/
theorem bundle_eq_ok_iff {b : Bundle} (hrun : LeavesFiles options.run) :
    (bundle options t c).2.outcome = .ok b ↔
      (options.check t c).2 = .ok () ∧
        (uncheckedBundle options.accepts options.now t c).outcome = .ok b := by
  have htree : (options.check t c).1 = t := options.check_tree hrun
  rw [bundle]
  cases hcheck : options.check t c with
  | mk behind checked =>
    rw [hcheck] at htree
    obtain rfl : behind = t := htree
    cases checked <;> simp

/-- A build comes to its end if the output is no module as far as paths tell, the gates let it pass,
there is a bundle, and the bundle can be written. -/
theorem build_eq_ok_iff (hrun : LeavesFiles options.run) :
    (build options t c).1 = t' ∧ (build options t c).2.outcome = .ok done ↔
      c.outputInSource t.workingDirectory = false ∧ (options.check t c).2 = .ok () ∧
        ∃ b, (uncheckedBundle options.accepts options.now t c).outcome = .ok b ∧
          t.writeOutput c.output b.text = (t', .ok ()) ∧
          ⟨b.order, c.output, Text.size b.text⟩ = done := by
  rw [build]
  cases hguard : c.outputInSource t.workingDirectory with
  | true => simp
  | false =>
    have htree : (bundle options t c).1 = t := bundle_tree hrun t c
    have houtcome : ∀ b, (bundle options t c).2.outcome = .ok b ↔
        (options.check t c).2 = .ok () ∧
          (uncheckedBundle options.accepts options.now t c).outcome = .ok b :=
      fun b => bundle_eq_ok_iff hrun
    cases hbundle : bundle options t c with
    | mk behind bundled =>
      rw [hbundle] at htree houtcome
      obtain rfl : behind = t := htree
      simp only at houtcome
      simp only [Bool.false_eq_true, if_false, true_and, ← and_assoc, ← exists_and_left, ← houtcome]
      cases hfinished : bundled.outcome with
      | error e => simp
      | ok b =>
        cases hwritten : behind.writeOutput c.output b.text with
        | mk finished outcome =>
          cases outcome <;> simp [Except.map, hwritten]

/-- A build that comes to its end leaves its output behind. The next discovery succeeds exactly if
it can list the directories that were made for the output. The output is then one of the discovered
files exactly if it stands below the source root under names that the rule admits, and this is never
so if source root and output are spelled straight. If the output is not discovered, then a second
build whose commands give the same answers finds the same modules and changes nothing. -/
theorem build_again (ht : t.root.WellFormed) (hrun : LeavesFiles options.run)
    (htree : (build options t c).1 = t') (hdone : (build options t c).2.outcome = .ok done) :
    ∃ source written text, t'.sourceRoot c.src = .ok source ∧
      t.Written c.output (String.ofList text).toUTF8 t' written ∧
      (uncheckedBundle options.accepts options.now t c).outcome = .ok ⟨text, done.modules⟩ ∧
      ((∃ files, t'.sourceFiles c.sourceRule c.src = .ok files) ↔
        t.ListsNew t' c.sourceRule source) ∧
      (∀ files, t'.sourceFiles c.sourceRule c.src = .ok files →
        (Path.ofNames written ∈ files ↔
          ∃ below, written = source ++ below ∧ c.sourceRule.Admits below)) ∧
      (t'.Straight c.src → t'.Straight c.output →
        ¬∃ below, written = source ++ below ∧ c.sourceRule.Admits below) ∧
      (∀ files, t'.sourceFiles c.sourceRule c.src = .ok files → Path.ofNames written ∉ files →
        ∀ later, c.SameHeader t options.now later →
          (∀ directory program arguments, (options.run t' directory program arguments).2 =
            (options.run t directory program arguments).2) →
          (build (options.atTime later) t' c).1 = t' ∧
          (build (options.atTime later) t' c).2.outcome = .ok done) := by
  obtain ⟨hguard, hcheck, b, hbundle, hwrite, hreport⟩ := (build_eq_ok_iff hrun).mp ⟨htree, hdone⟩
  obtain ⟨⟨written, hwritten⟩, hagain⟩ := written_of_writeOutput hwrite
  obtain ⟨modules, hresolve, -⟩ := uncheckedBundle_eq_ok_iff.mp hbundle
  obtain ⟨source, hsource, found, hfound, -⟩ := resolve_eq_ok_iff.mp hresolve
  obtain ⟨-, old, hold⟩ := sourceRoot_eq_ok_iff.mp hsource
  have hkept := hwritten.kept
  have ht' : t'.root.WellFormed := hwritten.wellFormed ht
  have hsource' : t'.sourceRoot c.src = .ok source := hkept.sourceRoot hsource
  obtain ⟨hcanonical, entries, hentries⟩ := sourceRoot_eq_ok_iff.mp hsource'
  have hat : (t'.root.at? written).isSome := Option.isSome_of_eq_some hwritten.file
  have hfiles : ∀ files, t'.sourceFiles c.sourceRule c.src = .ok files ↔
      t'.Listable c.sourceRule source ∧ files = t'.discovered c.sourceRule source := by
    intro files
    rw [← filesBelow_eq_ok_iff ht' hentries, FileTree.sourceFiles, hsource']
    rfl
  have hmodule : ∀ files, t'.sourceFiles c.sourceRule c.src = .ok files →
      (Path.ofNames written ∈ files ↔
        ∃ below, written = source ++ below ∧ c.sourceRule.Admits below) := by
    intro files hok
    rw [((hfiles files).mp hok).2, mem_discovered_iff ht' hat]
    exact and_iff_right ⟨_, hwritten.file⟩
  refine ⟨source, written, b.text, hsource', hwritten, ?_, ?_, hmodule, ?_, ?_⟩
  · rw [hbundle, ← hreport]
  · rw [← hkept.listable_iff ((filesBelow_eq_ok_iff ht hold).mp hfound).1]
    constructor
    · rintro ⟨files, hok⟩
      exact ((hfiles files).mp hok).1
    · exact fun hlistable => ⟨_, (hfiles _).mpr ⟨hlistable, rfl⟩⟩
  · rintro hsrc houtput ⟨below, rfl, hadmits⟩
    have hlocate := locateBy_eq_ok_iff.mpr hwritten.place
    have hseen := c.outputInSource_of_straight ht' hsrc houtput hcanonical hlocate hadmits
    rw [hkept.workingDirectory, hguard] at hseen
    simp at hseen
  · intro files hok hnot later hheader hanswers
    have hlistable := ((hfiles files).mp hok).1
    rw [hmodule files hok] at hnot
    have hlater : LeavesFiles (options.atTime later).run := hrun
    have hguard' : c.outputInSource t'.workingDirectory = false := by
      rw [hkept.workingDirectory, hguard]
    refine (build_eq_ok_iff hlater).mpr ⟨hguard', ?_, b, ?_, hagain, hreport⟩
    · exact BuildOptions.check_again hkept ht hnot hrun ht' hsource hlistable hanswers hcheck
    · exact uncheckedBundle_again hbundle
        (fun modules => hkept.resolve ht ht' hsource hnot hlistable) hheader

end Builds

/-- The guard compares paths without looking at any directory. -/
example : ({ output := .ofString "dist/../src/out.js" } : Config).outputInSource [] = false := by
  decide

/-- The tree behind a build of a small project. -/
def renamedTree : FileTree :=
  (renamingTree.writeOutput renamingConfig.output renamingBundle.text).1

theorem writeOutput_renamingTree :
    renamingTree.writeOutput renamingConfig.output renamingBundle.text = (renamedTree, .ok ()) := by
  rw [renamedTree]
  generalize renamingBundle.text = text
  cbv

theorem place_renamedTree : renamedTree.place .written renamingConfig.output =
    .ok (.present ["dist".toList, "script.user.js".toList]) := by
  rw [renamedTree]
  generalize renamingBundle.text = text
  cbv

theorem sourceFiles_renamedTree :
    renamedTree.sourceFiles renamingConfig.sourceRule renamingConfig.src =
      .ok [renamingModule.path, titleModule.path, variableModule.path] := by
  rw [renamedTree]
  generalize renamingBundle.text = text
  cbv

theorem sameHeader_renamingTree (now later : Moment) :
    renamingConfig.SameHeader renamingTree now later := by
  intro modules hmodules
  obtain rfl : [variableModule, renamingModule, titleModule] = modules :=
    Except.ok.inj (resolve_renamingTree.symm.trans hmodules)
  have hfind : [variableModule, renamingModule, titleModule].find?
      (·.relativePath == renamingConfig.documentStyle.metadataModule) = some titleModule := by
    decide
  have hplain : ∀ declared, (MetadataReading.ofSource titleModule.content).result = .ok declared →
      declared.Plain := by
    have hreading : MetadataReading.ofSource titleModule.content =
        ⟨[("name", .scalar "x")], none⟩ := by
      simp only [MetadataReading.ofSource, Cursor.ofSource, tokenize_eq_upTo]
      cbv
    rw [hreading]
    rintro declared hdeclared
    obtain rfl := Except.ok.inj hdeclared
    decide
  exact congrArg Report.outcome (headerOf_of_plain hfind hplain)

/-- Another build of the project at any time leaves everything as it is. -/
theorem build_again_of_renaming : ∃ done,
    (build uncheckedBuild renamingTree renamingConfig).1 = renamedTree ∧
    (build uncheckedBuild renamingTree renamingConfig).2.outcome = .ok done ∧
    ∀ later, (build (uncheckedBuild.atTime later) renamedTree renamingConfig).1 =
        renamedTree ∧
      (build (uncheckedBuild.atTime later) renamedTree renamingConfig).2.outcome =
        .ok done := by
  have hrun : LeavesFiles uncheckedBuild.run := fun _ _ _ _ => rfl
  have hanswer : ∀ t directory program arguments,
      (uncheckedBuild.run t directory program arguments).2 = .error .notFound :=
    fun _ _ _ _ => rfl
  have hguard : renamingConfig.outputInSource renamingTree.workingDirectory = false := by decide
  have hchecks : (uncheckedBuild.check renamingTree renamingConfig).2 = .ok () := rfl
  obtain ⟨htree, hdone⟩ := (build_eq_ok_iff hrun).mpr ⟨hguard, hchecks, renamingBundle,
    outcome_renamingTree, writeOutput_renamingTree, rfl⟩
  refine ⟨_, htree, hdone, fun later => ?_⟩
  obtain ⟨source, written, text, hsource, hwritten, -, -, hmodule, -, hagain⟩ :=
    build_again wellFormed_renamingTree hrun htree hdone
  obtain rfl : ["src".toList] = source := by
    have hroot : renamingTree.sourceRoot renamingConfig.src = .ok ["src".toList] := by cbv
    exact Except.ok.inj ((hwritten.kept.sourceRoot hroot).symm.trans hsource)
  obtain rfl : ["dist".toList, "script.user.js".toList] = written := by
    have hplace := place_renamedTree.symm.trans hwritten.place
    simpa using hplace
  refine hagain _ sourceFiles_renamedTree ?_ later (sameHeader_renamingTree _ later) fun _ _ _ => ?_
  · rw [hmodule _ sourceFiles_renamedTree]
    rintro ⟨below, hbelow, -⟩
    simp at hbelow
  · rw [hanswer, hanswer]

end ScriptBundle
