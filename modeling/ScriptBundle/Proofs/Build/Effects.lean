import ScriptBundle.Proofs.Build.Rebuilding

/-!
# Effects of Builds

A build changes no file before its bundle is complete. Then it makes the directories around its
output, which may succeed even where writing the output does not, and writes the output, which
either happens as a whole or not at all.

## Main definitions

* `FileTree.fileAt?`: the content of the file at a location;
* `BuildFailure.precedesWriting`: whether a failure comes before everything that is written.

## Main statements

* `precedesWriting_of_bundle`: a bundle fails before anything is written;
* `writeOutput_eq_error`: an output that could not be written leaves all files as they are;
* `readText_of_written`: what has been written is read;
* `build_effects`: what a build changes, whether it fails or comes to its end.
-/

namespace ScriptBundle

open FileNode

/-- A walk for a file to be written is one for a reader, who does not care about slashes behind the
last name. -/
theorem Walks.followed_of_written {root : FileNode} {links : Nat} {here : Location}
    {segments : List Text} {place : Place} (h : Walks root .written links here segments place) :
    Walks root .followed links here segments place := by
  have htakes : ∀ {here segment rest}, PathEnd.written.Takes here segment rest →
      PathEnd.followed.Takes here segment rest := fun h => ⟨h.idle, h.parent, rfl, h.size⟩
  induction h with
  | done => exact .done
  | idle hhere hidle _ ih => exact .idle hhere hidle ih
  | parent hhere _ ih => exact .parent hhere ih
  | vacant hhere hown hnone hadmits => exact .vacant hhere (htakes hown) hnone hadmits
  | stop hhere hown hsome hstops => exact .stop hhere (htakes hown) hsome hstops
  | link hhere hown hsome _ _ ih => exact .link hhere (htakes hown) hsome rfl ih
  | enter hhere hown hsome hlink _ _ ih => exact .enter hhere (htakes hown) hsome hlink rfl ih

/-! ### Contents of files -/

namespace FileTree

variable {t t' : FileTree} {p : Path} {written location : Location} {text : Text}

/-- The content of the file at a location. -/
def fileAt? (t : FileTree) (location : Location) : Option ByteArray :=
  match t.root.at? location with
  | some (.file content) => some content
  | _ => none

theorem fileAt?_eq_some_iff {content : ByteArray} :
    t.fileAt? location = some content ↔ t.root.at? location = some (.file content) := by
  rw [fileAt?]
  split
  · next found hfound => simp [hfound]
  · next hnone => simpa using hnone content

/-- Elsewhere there are the same files with the same content. -/
theorem Kept.fileAt?_of_ne (h : Kept written t t') (hne : location ≠ written) :
    t'.fileAt? location = t.fileAt? location := by
  refine Option.ext fun content => ?_
  rw [fileAt?_eq_some_iff, fileAt?_eq_some_iff]
  constructor
  · exact fun hcontent => h.root.files location content hcontent hne
  · intro hcontent
    obtain ⟨found, hfound, hlasts⟩ := h.root.lasts location _ hcontent
    cases hlasts with
    | file hsame => rw [hfound, hsame.resolve_right hne]

/-- Where no file at all is written, all of them stay as they are. -/
theorem fileAt?_of_kept (h : ∀ written, Kept written t t') (location : Location) :
    t'.fileAt? location = t.fileAt? location :=
  (h (location ++ [[]])).fileAt?_of_ne (by simp)

/-! ### Reading what was written -/

/-- Where a path to be written leads to, it leads to for a reader. -/
theorem locate_of_written (h : t.place .written p = .ok (.present location)) :
    t.locate p = .ok location := by
  obtain ⟨hempty, hnul, hlong, hwalks⟩ := place_eq_ok_iff.mp h
  exact locateBy_eq_ok_iff.mpr
    (place_eq_ok_iff.mpr ⟨hempty, hnul, hlong, hwalks.followed_of_written⟩)

/-- A text is read from its UTF-8 form. -/
theorem decode_toUTF8 (text : Text) : decode (String.ofList text).toUTF8 = some text := by
  have hread : String.fromUTF8? (String.ofList text).toUTF8 = some (String.ofList text) := by
    rw [String.fromUTF8?, String.toUTF8_eq_toByteArray, dif_pos (String.ofList text).isValidUTF8]
    rfl
  rw [decode, hread, Option.map_some, String.toList_ofList]

/-- The size of a text is that of its UTF-8 form. -/
theorem size_toUTF8 (text : Text) : (String.ofList text).toUTF8.size = Text.size text := by
  rw [String.toUTF8_eq_toByteArray, String.toByteArray_ofList]
  induction text with
  | nil => rfl
  | cons c text ih =>
    have hchar : [c].utf8Encode.size = c.utf8Size := by simp [List.utf8Encode]
    rw [List.utf8Encode_cons, ByteArray.size_append, ih, hchar, Text.size_cons]

/-- What has been written is read. -/
theorem readText_of_written (h : t.Written p (String.ofList text).toUTF8 t' written) :
    t'.readText p = .ok text := by
  rw [readText, locate_of_written h.place]
  simp only [h.file, decode_toUTF8]

end FileTree

/-! ### Failures -/

/-- Whether a failure comes before everything that is written. -/
def BuildFailure.precedesWriting : BuildFailure → Bool
  | stage _ | gate _ | outputInSource _ _ => true
  | directoryNotCreated _ _ | outputNotWritten _ _ => false

section

variable {options : BuildOptions} {t t' : FileTree} {c : Config} {failure : BuildFailure}

/-- The gates of a build fail before anything is written. -/
theorem precedesWriting_of_check (h : (options.check t c).2 = .error failure) :
    failure.precedesWriting = true := by
  rw [BuildOptions.check, checkGates] at h
  split at h
  · simp at h
  · split at h
    · simp at h
    · split at h
      · obtain rfl := Except.error.inj h
        rfl
      · split at h
        · obtain rfl := Except.error.inj h
          rfl
        · simp at h

/-- The modules of a build fail before anything is written. -/
theorem precedesWriting_of_uncheckedBundle {accepts : Text → Bool} {now : Moment}
    (h : (uncheckedBundle accepts now t c).outcome = .error failure) :
    failure.precedesWriting = true := by
  rw [uncheckedBundle] at h
  cases hmodules : resolve t c.sourceRule c.src with
  | error e =>
    rw [hmodules, Report.bind_outcome_error (e := .stage e) _ rfl] at h
    obtain rfl := Except.error.inj h
    rfl
  | ok modules =>
    rw [hmodules, Report.bind_outcome_ok (a := modules) _ rfl] at h
    cases htext : (concatenate accepts c.documentStyle modules
        (c.buildContext now (modules.map ModuleRecord.relativePath))).outcome with
    | error e =>
      rw [Report.bind_outcome_error (e := .stage e) _ (by rw [Report.mapError, htext]; rfl)] at h
      obtain rfl := Except.error.inj h
      rfl
    | ok text =>
      rw [Report.bind_outcome_ok (a := text) _ (by rw [Report.mapError, htext]; rfl)] at h
      simp at h

/-- A bundle fails before anything is written. -/
theorem precedesWriting_of_bundle (h : (bundle options t c).2.outcome = .error failure) :
    failure.precedesWriting = true := by
  rw [bundle] at h
  split at h
  · next between found hcheck =>
    obtain rfl := Except.error.inj h
    exact precedesWriting_of_check (congrArg Prod.snd hcheck)
  · exact precedesWriting_of_uncheckedBundle h

/-- An output that could not be written leaves all files as they are, though there may be more
directories. -/
theorem writeOutput_eq_error {output : Path} {text : Text}
    (h : t.writeOutput output text = (t', .error failure)) :
    failure.precedesWriting = false ∧ ∀ location, t'.fileAt? location = t.fileAt? location := by
  rw [FileTree.writeOutput] at h
  generalize (String.ofList text).toUTF8 = content at h
  cases hparent : output.parent?.filter (!·.isEmpty) with
  | none =>
    rw [hparent] at h
    cases hwritten : t.writeFile output content with
    | ok found => simp [hwritten] at h
    | error cause =>
      obtain ⟨rfl, rfl⟩ : t = t' ∧ BuildFailure.outputNotWritten output cause = failure := by
        simpa [hwritten] using h
      exact ⟨rfl, fun _ => rfl⟩
  | some directory =>
    rw [hparent] at h
    have hkept := (FileTree.kept_createDirectories directory.text.length t directory).1
    rw [← FileTree.createDirectories] at hkept
    cases hmade : t.createDirectories directory with
    | mk between made =>
      rw [hmade] at hkept
      cases made with
      | error cause =>
        obtain ⟨rfl, rfl⟩ :
            between = t' ∧ BuildFailure.directoryNotCreated directory cause = failure := by
          simpa [hmade] using h
        exact ⟨rfl, FileTree.fileAt?_of_kept hkept⟩
      | ok =>
        cases hwritten : between.writeFile output content with
        | ok found => simp [hmade, hwritten] at h
        | error cause =>
          obtain ⟨rfl, rfl⟩ :
              between = t' ∧ BuildFailure.outputNotWritten output cause = failure := by
            simpa [hmade, hwritten] using h
          exact ⟨rfl, FileTree.fileAt?_of_kept hkept⟩

/-! ### Builds -/

/-- A build that fails before it writes leaves the file tree as it was, and one that fails later
leaves all files as they were. -/
theorem build_eq_error (hrun : LeavesFiles options.run)
    (h : (build options t c).2.outcome = .error failure) :
    (failure.precedesWriting = true → (build options t c).1 = t) ∧
      ∀ location, (build options t c).1.fileAt? location = t.fileAt? location := by
  rw [build] at h ⊢
  split at h
  · next hguard =>
    rw [if_pos hguard]
    exact ⟨fun _ => rfl, fun _ => rfl⟩
  · next hguard =>
    rw [if_neg hguard]
    have htree : (bundle options t c).1 = t := bundle_tree hrun t c
    cases hbundle : bundle options t c with
    | mk between bundled =>
      rw [hbundle] at htree h
      obtain rfl : between = t := htree
      cases houtcome : bundled.outcome with
      | error cause => exact ⟨fun _ => by simp only [houtcome], fun _ => by simp only [houtcome]⟩
      | ok finished =>
        simp only [houtcome] at h ⊢
        cases hwritten : between.writeOutput c.output finished.text with
        | mk behind written =>
          cases written with
          | ok => simp [hwritten, Except.map] at h
          | error cause =>
            obtain rfl : cause = failure := by simpa [hwritten, Except.map] using h
            obtain ⟨hlate, hfiles⟩ := writeOutput_eq_error hwritten
            exact ⟨fun hearly => by simp [hlate] at hearly, hfiles⟩

/-- A build that fails leaves all files as they were, and before it has come to writing the whole
file tree. A build that comes to its end changes no file but its output, where the text of its
bundle stands then; its report gives the size of the text, and the modules in the order in which
they were resolved. -/
theorem build_effects (hrun : LeavesFiles options.run) :
    (∀ failure, (build options t c).2.outcome = .error failure →
      (failure.precedesWriting = true → (build options t c).1 = t) ∧
      ∀ location, (build options t c).1.fileAt? location = t.fileAt? location) ∧
    ∀ done, (build options t c).2.outcome = .ok done → ∃ b modules written,
      (bundle options t c).2.outcome = .ok b ∧
      resolve t c.sourceRule c.src = .ok modules ∧
      done = ⟨modules.map ModuleRecord.relativePath, c.output, Text.size b.text⟩ ∧
      (build options t c).1.readText c.output = .ok b.text ∧
      (build options t c).1.locate c.output = .ok written ∧
      (build options t c).1.fileAt? written = some (String.ofList b.text).toUTF8 ∧
      (String.ofList b.text).toUTF8.size = done.bytes ∧
      ∀ location ≠ written, (build options t c).1.fileAt? location = t.fileAt? location := by
  refine ⟨fun failure hfailure => build_eq_error hrun hfailure, fun done hdone => ?_⟩
  obtain ⟨-, hcheck, b, hb, hwrite, hreport⟩ := (build_eq_ok_iff hrun).mp ⟨rfl, hdone⟩
  obtain ⟨⟨written, hwritten⟩, -⟩ := FileTree.written_of_writeOutput hwrite
  obtain ⟨modules, hmodules, header, parts, -, -, -, hparts⟩ := uncheckedBundle_eq_ok_iff.mp hb
  refine ⟨b, modules, written, (bundle_eq_ok_iff hrun).mpr ⟨hcheck, hb⟩, hmodules, ?_,
    FileTree.readText_of_written hwritten, FileTree.locate_of_written hwritten.place,
    FileTree.fileAt?_eq_some_iff.mpr hwritten.file, ?_,
    fun location hne => hwritten.kept.fileAt?_of_ne hne⟩
  · rw [← hreport, hparts]
  · rw [FileTree.size_toUTF8, ← hreport]

end

/-- A project whose linter cannot be run. -/
def lintedConfig : Config := { renamingConfig with lintCommand := some ["lint".toList] }

/-- A build with gates. -/
def checkedBuild : BuildOptions := { uncheckedBuild with skipChecks := false }

/-- A build leaves an output that was not there before, and another one, which a gate stops, leaves
it as it is. -/
theorem build_effects_of_renaming :
    (∃ done, (build uncheckedBuild renamingTree renamingConfig).2.outcome = .ok done ∧
      (build uncheckedBuild renamingTree renamingConfig).1 = renamedTree ∧
      renamedTree.readText renamingConfig.output = .ok renamingBundle.text ∧
      renamedTree.fileAt? ["src".toList, "t.js".toList] =
        renamingTree.fileAt? ["src".toList, "t.js".toList]) ∧
    ∃ outcome, (build checkedBuild renamedTree lintedConfig).2.outcome = .error (.gate outcome) ∧
      (build checkedBuild renamedTree lintedConfig).1 = renamedTree := by
  have hrun : LeavesFiles uncheckedBuild.run := fun _ _ _ _ => rfl
  have hrun' : LeavesFiles checkedBuild.run := fun _ _ _ _ => rfl
  have hguard : renamingConfig.outputInSource renamingTree.workingDirectory = false := by decide
  obtain ⟨htree, hdone⟩ := (build_eq_ok_iff hrun).mpr ⟨hguard, rfl, renamingBundle,
    outcome_renamingTree, writeOutput_renamingTree, rfl⟩
  have hgate : ∃ outcome, (build checkedBuild renamedTree lintedConfig).2.outcome =
      .error (.gate outcome) := by
    rw [renamedTree]
    generalize renamingBundle.text = text
    exact ⟨_, by cbv⟩
  obtain ⟨outcome, hgate⟩ := hgate
  refine ⟨⟨_, hdone, htree, ?_⟩, outcome, hgate, ((build_effects hrun').1 _ hgate).1 rfl⟩
  obtain ⟨b, modules, written, hbundle, -, -, hread, hwritten, -, -, hsame⟩ :=
    (build_effects hrun).2 _ hdone
  obtain rfl : renamingBundle = b := by
    have houtcome := ((bundle_eq_ok_iff hrun).mp hbundle).2
    exact Except.ok.inj (outcome_renamingTree.symm.trans houtcome)
  rw [htree] at hread hwritten hsame
  refine ⟨hread, hsame _ fun heq => ?_⟩
  have hplace := FileTree.locate_of_written place_renamedTree
  rw [hwritten, ← heq] at hplace
  simp at hplace

end ScriptBundle
