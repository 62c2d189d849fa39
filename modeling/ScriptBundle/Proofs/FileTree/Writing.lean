import ScriptBundle.Build.Output
import ScriptBundle.Proofs.FileTree.Walking
import ScriptBundle.Proofs.Report

/-!
# Written Files

Making directories and writing a file keeps what is in a file tree, apart from the file. What has
been written is written again without any change.

## Main definitions

* `FileTree.Kept`: whether a file tree holds what another one holds, apart from one file;
* `FileTree.Written`: what is known once a file has been written.

## Main statements

* `FileTree.kept_createDirectories`: what is known once directories have been made;
* `FileTree.written_of_writeOutput`: what is known once an output has been written;
* `FileTree.writeOutput_again`: writing the same output again changes nothing.
-/

namespace ScriptBundle.FileTree

open FileNode

/-- Whether a file tree holds what another one holds, apart from the file at one location. -/
structure Kept (written : Location) (t t' : FileTree) : Prop where
  workingDirectory : t'.workingDirectory = t.workingDirectory
  unlistable : t'.unlistable = t.unlistable
  root : FileNode.Kept written t.root t'.root

variable {t t' : FileTree} {p : Path} {ending : PathEnd} {written location : Location}

/-- Where a path leads to. -/
theorem place_eq_ok_iff {place : Place} : t.place ending p = .ok place ↔ p.isEmpty = false ∧
    '\x00' ∉ p.text ∧ ending.isTooLong p = false ∧ Walks t.root ending maxLinks
      (if p.isAbsolute then [] else t.workingDirectory) (splitSlashes p.text) place := by
  rw [FileTree.place, ← walk_eq_ok_iff]
  split
  · next hempty => simp [hempty]
  · next hempty =>
    split
    · next hnul => simp [hnul]
    · next hnul =>
      split
      · next hlong => simp [hlong]
      · next hlong => simp [hempty, hnul, hlong]

/-- A path leads to a location if something stands there. -/
theorem locateBy_eq_ok_iff :
    t.locateBy ending p = .ok location ↔ t.place ending p = .ok (.present location) := by
  rw [locateBy]
  split
  · next found hplace => simp [hplace]
  · next hplace => simp [hplace]
  · next hplace => simp [hplace]

/-! ### Reading what is kept -/

namespace Kept

theorem refl (t : FileTree) : Kept written t t := ⟨rfl, rfl, .refl _⟩

theorem trans {between : FileTree} (h : Kept written t between) (h' : Kept written between t') :
    Kept written t t' :=
  ⟨h'.workingDirectory.trans h.workingDirectory, h'.unlistable.trans h.unlistable,
    h.root.trans h'.root⟩

variable (h : Kept written t t')
include h

/-- A path that leads to something leads to the same place. -/
theorem locateBy (hlocation : t.locateBy ending p = .ok location) :
    t'.locateBy ending p = .ok location := by
  rw [locateBy_eq_ok_iff, place_eq_ok_iff] at hlocation ⊢
  obtain ⟨hempty, hnul, hlong, hwalks⟩ := hlocation
  rw [h.workingDirectory]
  exact ⟨hempty, hnul, hlong, hwalks.kept h.root ⟨location, rfl⟩⟩

/-- What a path leads to lasts. -/
theorem node? {node : FileNode} (hnode : t.node? p = some node) :
    ∃ node', t'.node? p = some node' ∧ Lasts True node node' := by
  rw [FileTree.node?] at hnode
  split at hnode
  · next location hlocation =>
    obtain ⟨node', hnode', hlasts⟩ := h.root.lasts _ _ hnode
    refine ⟨node', ?_, hlasts.imp fun _ => trivial⟩
    rw [FileTree.node?, locate, h.locateBy hlocation]
    exact hnode'
  · simp at hnode

/-- A path that leads to a file still does so. -/
theorem isFile (hfile : t.isFile p = true) : t'.isFile p = true := by
  rw [FileTree.isFile] at hfile ⊢
  cases hnode : t.node? p with
  | none => simp [hnode] at hfile
  | some node =>
    obtain ⟨node', hnode', hlasts⟩ := h.node? hnode
    rw [hnode] at hfile
    rw [hnode']
    cases hlasts <;> exact hfile

/-- A path that leads to a directory still does so. -/
theorem isDirectory (hdirectory : t.isDirectory p = true) : t'.isDirectory p = true := by
  rw [FileTree.isDirectory] at hdirectory ⊢
  cases hnode : t.node? p with
  | none => simp [hnode] at hdirectory
  | some node =>
    obtain ⟨node', hnode', hlasts⟩ := h.node? hnode
    rw [hnode] at hdirectory
    rw [hnode']
    cases hlasts <;> exact hdirectory

/-- The absolute path without links stays the same. -/
theorem canonical {target : Path} (hcanonical : t.canonical p = .ok target) :
    t'.canonical p = .ok target := by
  obtain ⟨location, hlocation, rfl⟩ := map_eq_ok_iff.mp hcanonical
  exact map_eq_ok_iff.mpr ⟨location, h.locateBy hlocation, rfl⟩

/-- A file that is not the one written keeps its text. -/
theorem readText {text : Text} (htext : t.readText p = .ok text)
    (hne : t.locate p ≠ .ok written) : t'.readText p = .ok text := by
  rw [FileTree.readText] at htext ⊢
  cases hlocation : t.locate p with
  | error e => simp [hlocation] at htext
  | ok location =>
    rw [hlocation] at htext hne
    rw [locate, h.locateBy hlocation]
    simp only at htext ⊢
    cases hat : t.root.at? location with
    | none => simp [hat] at htext
    | some node =>
      obtain ⟨node', hat', hlasts⟩ := h.root.lasts _ _ hat
      cases hlasts with
      | directory => simp [hat] at htext
      | link => simp [hat] at htext
      | file hcontent =>
        obtain rfl := hcontent.resolve_right fun heq => hne (heq ▸ rfl)
        rw [hat] at htext
        rw [hat']
        exact htext

end Kept

/-! ### Making directories -/

/-- What is known once directories have been made for a path. -/
structure Made (t : FileTree) (p : Path) (t' : FileTree) : Prop where
  kept : ∀ written, Kept written t t'
  wellFormed : t.root.WellFormed → t'.root.WellFormed
  isDirectory : t'.isDirectory p = true

/-- What is known once a directory has been made. -/
theorem made_of_createDirectory (h : t.createDirectory p = .ok t') : t.Made p t' := by
  rw [createDirectory] at h
  split at h
  · simp at h
  · simp at h
  · next directory name hplace =>
    obtain rfl : t.put (directory ++ [name]) (.directory []) = t' := by simpa using h
    obtain ⟨hempty, hnul, hlong, hwalks⟩ := place_eq_ok_iff.mp hplace
    obtain ⟨hname, entries, hentries, hvacant⟩ :=
      hwalks.entry_of_vacant fun segment => not_mem_splitSlashes
    have hkept : ∀ written, Kept written t (t.put (directory ++ [name]) (.directory [])) :=
      fun written => ⟨rfl, rfl, kept_put_vacant hentries hvacant (.inl rfl)⟩
    have hnew : (t.put (directory ++ [name]) (.directory [])).root.at? (directory ++ [name]) =
        some (.directory []) :=
      at?_put_self hentries
    refine ⟨hkept, fun ht => ht.put (fun other hother => ?_)
      (.directory (by simp) (by simp) (by simp)),
      ?_⟩
    · rcases List.mem_append.mp hother with hother | hother
      · exact ht.isName_of_at? (Option.isSome_of_eq_some hentries) other hother
      · rw [List.mem_singleton.mp hother]
        exact hname
    · have hreached := hwalks.of_vacant (hkept []).root .made hnew (.inl ⟨[], rfl⟩)
      have hlocate : (t.put (directory ++ [name]) (.directory [])).locate p =
          .ok (directory ++ [name]) :=
        locateBy_eq_ok_iff.mpr (place_eq_ok_iff.mpr ⟨hempty, hnul, hlong, hreached⟩)
      rw [isDirectory, node?, hlocate]
      simp [hnew, FileNode.isDirectory]

/-- What is known once directories have been made, be it for the path or only for those above it. -/
theorem kept_createDirectories (steps : Nat) (t : FileTree) (p : Path) :
    (∀ written, Kept written t (createDirectoriesWithin steps t p).1) ∧
      (t.root.WellFormed → (createDirectoriesWithin steps t p).1.root.WellFormed) ∧
      ((createDirectoriesWithin steps t p).2 = .ok () → p.isEmpty = false →
        (createDirectoriesWithin steps t p).1.isDirectory p = true) := by
  fun_induction createDirectoriesWithin steps t p with
  | case1 steps p hempty => exact ⟨fun _ => .refl t, id, fun _ h => by simp [hempty] at h⟩
  | case2 steps p hempty changed hchanged =>
    have hmade := made_of_createDirectory hchanged
    exact ⟨hmade.kept, hmade.wellFormed, fun _ _ => hmade.isDirectory⟩
  | case3 p _ _ steps above _ changed e hchanged ih =>
    rw [hchanged] at ih
    exact ⟨ih.1, ih.2.1, fun h => by simp at h⟩
  | case4 p _ _ steps above _ changed hchanged finished hfinished ih =>
    rw [hchanged] at ih
    have hmade := made_of_createDirectory hfinished
    exact ⟨fun written => (ih.1 written).trans (hmade.kept written), fun ht =>
      hmade.wellFormed (ih.2.1 ht), fun _ _ => hmade.isDirectory⟩
  | case5 p _ _ steps above _ changed hchanged e _ ih =>
    rw [hchanged] at ih
    refine ⟨ih.1, ih.2.1, fun h _ => ?_⟩
    by_cases hdirectory : changed.isDirectory p = true
    · exact hdirectory
    · simp [hdirectory] at h
  | case6 => exact ⟨fun _ => .refl t, id, fun h => by simp at h⟩
  | case7 steps p =>
    refine ⟨fun _ => .refl t, id, fun h _ => ?_⟩
    by_cases hdirectory : t.isDirectory p = true
    · exact hdirectory
    · simp [hdirectory] at h

/-- A directory that is there need not be made. -/
theorem createDirectories_again (h : t.isDirectory p = true) :
    t.createDirectories p = (t, .ok ()) := by
  rw [createDirectories]
  have hlocate : ∃ location, t.locate p = .ok location := by
    rw [isDirectory, node?] at h
    cases hlocate : t.locate p with
    | ok location => exact ⟨location, rfl⟩
    | error e => simp [hlocate] at h
  obtain ⟨location, hlocation⟩ := hlocate
  obtain ⟨hempty, hnul, hlong, hwalks⟩ := place_eq_ok_iff.mp (locateBy_eq_ok_iff.mp hlocation)
  obtain ⟨found, hfound⟩ := hwalks.made_of_followed
  have hplace : t.place .made p = .ok (.present found) :=
    place_eq_ok_iff.mpr ⟨hempty, hnul, hlong, hfound⟩
  have hmade : t.createDirectory p = .error .alreadyExists := by
    rw [createDirectory, hplace]
  unfold createDirectoriesWithin
  simp only [hempty, hmade, h, Bool.false_eq_true, if_false, if_true]

/-! ### Writing -/

/-- What is known once a file has been **written**. -/
structure Written (t : FileTree) (p : Path) (content : ByteArray) (t' : FileTree)
    (written : Location) : Prop where
  kept : Kept written t t'
  wellFormed : t.root.WellFormed → t'.root.WellFormed
  place : t'.place .written p = .ok (.present written)
  file : t'.root.at? written = some (.file content)

variable {content : ByteArray} {text : Text}

/-- What is known once a file has been written. -/
theorem written_of_writeFile (h : t.writeFile p content = .ok t') :
    ∃ written, t.Written p content t' written := by
  rw [writeFile] at h
  split at h
  · simp at h
  · next directory name hplace =>
    obtain rfl : t.put (directory ++ [name]) (.file content) = t' := by simpa using h
    obtain ⟨hempty, hnul, hlong, hwalks⟩ := place_eq_ok_iff.mp hplace
    obtain ⟨hname, entries, hentries, hvacant⟩ :=
      hwalks.entry_of_vacant fun segment => not_mem_splitSlashes
    have hkept : Kept (directory ++ [name]) t (t.put (directory ++ [name]) (.file content)) :=
      ⟨rfl, rfl, kept_put_vacant hentries hvacant (.inr ⟨⟨content, rfl⟩, rfl⟩)⟩
    have hfile : (t.put (directory ++ [name]) (.file content)).root.at? (directory ++ [name]) =
        some (.file content) :=
      at?_put_self hentries
    refine ⟨directory ++ [name], hkept, fun ht => ht.put (fun other hother => ?_) (.file content),
      ?_,
      hfile⟩
    · rcases List.mem_append.mp hother with hother | hother
      · exact ht.isName_of_at? (Option.isSome_of_eq_some hentries) other hother
      · rw [List.mem_singleton.mp hother]
        exact hname
    · exact place_eq_ok_iff.mpr ⟨hempty, hnul, hlong, hwalks.of_vacant hkept.root .written hfile
        (.inr ⟨rfl, content, rfl⟩)⟩
  · next location hplace =>
    split at h
    · next old hold =>
      obtain rfl : t.put location (.file content) = t' := by simpa using h
      obtain ⟨hempty, hnul, hlong, hwalks⟩ := place_eq_ok_iff.mp hplace
      have hkept : Kept location t (t.put location (.file content)) :=
        ⟨rfl, rfl, kept_put_file hold⟩
      refine ⟨location, hkept, fun ht => ht.put ?_ (.file content), ?_, ?_⟩
      · exact ht.isName_of_at? (Option.isSome_of_eq_some hold)
      · exact place_eq_ok_iff.mpr ⟨hempty, hnul, hlong, hwalks.kept hkept.root ⟨location, rfl⟩⟩
      · exact at?_put_of_isSome (Option.isSome_of_eq_some hold)
    · simp at h

/-- Writing what is there changes nothing. -/
theorem Written.again {written : Location} (h : t.Written p content t' written) :
    t'.writeFile p content = .ok t' := by
  have hsame : t'.put written (.file content) = t' := by
    rw [put, put_same h.file]
  rw [writeFile, h.place]
  simp only [h.file, hsame]

/-- An output is written once there are directories around it. -/
theorem writeOutput_eq_ok_iff : t.writeOutput p text = (t', .ok ()) ↔ ∃ between,
    (∀ directory, p.parent?.filter (!·.isEmpty) = some directory →
      t.createDirectories directory = (between, .ok ())) ∧
    (p.parent?.filter (!·.isEmpty) = none → between = t) ∧
    between.writeFile p (String.ofList text).toUTF8 = .ok t' := by
  rw [writeOutput]
  cases hparent : p.parent?.filter (!·.isEmpty) with
  | none =>
    simp only [reduceCtorEq, false_implies, implies_true, true_and, true_implies, exists_eq_left]
    cases t.writeFile p (String.ofList text).toUTF8 <;> simp
  | some directory =>
    simp only [Option.some.injEq, forall_eq', reduceCtorEq, false_implies, true_and]
    cases hmade : t.createDirectories directory with
    | mk between made =>
      cases made with
      | error e => simp
      | ok =>
        simp only [mapError_ok, Prod.mk.injEq, and_true, exists_eq_left']
        cases between.writeFile p (String.ofList text).toUTF8 <;> simp

/-- What is known once an output has been written: writing it again changes nothing. -/
theorem written_of_writeOutput (h : t.writeOutput p text = (t', .ok ())) :
    (∃ written, t.Written p (String.ofList text).toUTF8 t' written) ∧
      t'.writeOutput p text = (t', .ok ()) := by
  obtain ⟨between, hmade, hnone, hwritten⟩ := writeOutput_eq_ok_iff.mp h
  obtain ⟨written, hfile⟩ := written_of_writeFile hwritten
  cases hparent : p.parent?.filter (!·.isEmpty) with
  | none =>
    obtain rfl := hnone hparent
    exact ⟨⟨written, hfile⟩, writeOutput_eq_ok_iff.mpr ⟨t', by simp [hparent], fun _ => rfl,
      hfile.again⟩⟩
  | some directory =>
    have hcreated := hmade directory hparent
    obtain ⟨hkept, hwellFormed, hdirectory⟩ :=
      kept_createDirectories directory.text.length t directory
    rw [createDirectories] at hcreated
    rw [hcreated] at hkept hwellFormed hdirectory
    have hnonempty : directory.isEmpty = false := by
      simpa using (Option.filter_eq_some_iff.mp hparent).2
    refine ⟨⟨written, (hkept written).trans hfile.kept, fun ht => hfile.wellFormed (hwellFormed ht),
      hfile.place, hfile.file⟩, writeOutput_eq_ok_iff.mpr ⟨t', ?_, by simp [hparent], hfile.again⟩⟩
    intro other hother
    obtain rfl : directory = other := by simpa [hparent] using hother
    exact createDirectories_again (hfile.kept.isDirectory (hdirectory rfl hnonempty))

end ScriptBundle.FileTree
