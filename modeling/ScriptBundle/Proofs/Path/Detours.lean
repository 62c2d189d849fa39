import Mathlib.Logic.Relation
import ScriptBundle.Proofs.Path.Completed
import ScriptBundle.Source.Lookup

/-!
# Detours in Paths

A path from the root is normalized step by step, so that what stands behind a normalized path goes
on from where the path itself leads. A name with `..` behind it comes back to where it started. Such
a detour leads nowhere else wherever it is made, but at the end of a specifier it hides the step
that an extension would be added to.

## Main definitions

* `Path.Detour`: whether segments hold one idle segment, or one name with `..` behind it, more;
* `Path.DetoursInFront`: whether texts differ by detours in front of a step that they share.

## Main statements

* `Path.exists_names_normalize`: a path from the root is normalized to one of names;
* `Path.foldl_normalStep_detours`: detours lead nowhere else;
* `Path.normalize_completed`: nor do they if an extension is added behind them;
* `Path.normalize_join_normalize`: normalization by parts, and what goes the same ways;
* `Path.candidate?_of_idle`: a detour at the end of a specifier leads elsewhere.
-/

namespace ScriptBundle.Path

/-! ### Normal steps -/

/-- A path from the root is **normalized to one of names**. -/
theorem exists_names_normalize {p : Path} (hp : p.isAbsolute = true) :
    ∃ names, (∀ name ∈ names, IsName name) ∧ p.normalize = ofNames names ∧
      normalSteps p.components = .root :: names.map .normal := by
  obtain ⟨names, hnormal, hnames⟩ := normalSteps_of_root
    (isName_of_componentOf? fun _ hsegment => not_mem_splitSlashes (s := p.text) hsegment)
  rw [← components_of_isAbsolute hp] at hnormal
  exact ⟨names, hnames, normalize_of_normalSteps hnormal, hnormal⟩

/-- The steps of a path of names are normal. -/
theorem normalSteps_ofNames {names : List Text} (h : ∀ name ∈ names, IsName name) :
    normalSteps (ofNames names).components = .root :: names.map .normal := by
  rw [components_ofNames h, normalSteps, List.foldl_cons]
  exact foldl_normalStep_names [.root] names

/-- A path that is continued goes on from where it leads to. -/
theorem normalSteps_join {p q : Path} (hp : p.isAbsolute = true) (hq : q.isAbsolute = false) :
    normalSteps (p.join q).components =
      ((splitSlashes q.text).filterMap componentOf?).foldl normalStep
        (normalSteps p.components) := by
  rw [(components_join hp hq).2, normalSteps, List.foldl_append]
  rfl

/-! ### Detours -/

/-- One **detour**: an idle segment, or a name with `..` behind it. The first list holds it, and the
second one does not. -/
inductive Detour : List Text → List Text → Prop
  | idle (front behind : List Text) {segment : Text} (h : isIdle segment = true) :
      Detour (front ++ segment :: behind) (front ++ behind)
  | back (front behind : List Text) {name : Text} (h : IsName name) :
      Detour (front ++ name :: ['.', '.'] :: behind) (front ++ behind)

/-- A detour leads nowhere else. -/
theorem Detour.foldl_normalStep {segments others : List Text} (h : Detour segments others)
    (steps : List Component) :
    (segments.filterMap componentOf?).foldl normalStep steps =
      (others.filterMap componentOf?).foldl normalStep steps := by
  cases h with
  | @idle front behind segment hidle =>
    have hnone : componentOf? segment = none := by
      rw [componentOf?, if_pos (by simpa [isIdle] using hidle)]
    rw [List.filterMap_append, List.filterMap_cons_none hnone, List.filterMap_append]
  | @back front behind name hname =>
    have hparent : componentOf? ['.', '.'] = some .parent := rfl
    rw [List.filterMap_append, List.filterMap_cons_some (componentOf?_of_isName hname),
      List.filterMap_cons_some hparent, List.filterMap_append, List.foldl_append, List.foldl_append,
      List.foldl_cons, List.foldl_cons]
    simp only [normalStep, popName_concat]

/-- **Detours lead nowhere else**, however many are added and left out. -/
theorem foldl_normalStep_detours {segments others : List Text}
    (h : Relation.EqvGen Detour segments others) (steps : List Component) :
    (segments.filterMap componentOf?).foldl normalStep steps =
      (others.filterMap componentOf?).foldl normalStep steps := by
  induction h with
  | rel _ _ h => exact h.foldl_normalStep steps
  | refl => rfl
  | symm _ _ _ ih => exact ih.symm
  | trans _ _ _ _ _ ih ih' => exact ih.trans ih'

/-- Whether texts differ by **detours in front** of a step that they share, and not behind it. -/
def DetoursInFront (s t : Text) : Prop :=
  ∃ front front' behind, splitSlashes s = front ++ behind ∧ splitSlashes t = front' ++ behind ∧
    Relation.EqvGen Detour front front' ∧ ∃ segment ∈ behind, isIdle segment = false

/-- A segment that is not idle is a step. -/
theorem filterMap_ne_nil {segments : List Text} (h : ∃ segment ∈ segments, isIdle segment = false) :
    segments.filterMap componentOf? ≠ [] := by
  obtain ⟨segment, hsegment, hstep⟩ := h
  have hsome : (componentOf? segment).isSome = true := by
    rw [componentOf?, if_neg (by simpa [isIdle] using hstep)]
    split <;> rfl
  obtain ⟨step, hcomponent⟩ := Option.isSome_iff_exists.mp hsome
  exact List.ne_nil_of_mem (List.mem_filterMap.mpr ⟨segment, hsegment, hcomponent⟩)

/-- Paths that are continued by texts with detours in front **are completed alike**. -/
theorem normalize_completed {p : Path} (hp : p.isAbsolute = true) {s t : Text}
    (hs : (Path.mk s).isAbsolute = false) (ht : (Path.mk t).isAbsolute = false)
    (h : DetoursInFront s t) (extension : Text) (accepted : List Text) :
    ((p.join ⟨s⟩).withExtension extension accepted).normalize =
      ((p.join ⟨t⟩).withExtension extension accepted).normalize := by
  obtain ⟨front, front', behind, hsegments, hsegments', hdetours, hstep⟩ := h
  -- which extension there is goes by the last step, which both share
  have hlast : ∀ u front, (Path.mk u).isAbsolute = false → splitSlashes u = front ++ behind →
      (p.join ⟨u⟩).components.getLast? = (behind.filterMap componentOf?).getLast? := by
    intro u front hu hsegments
    rw [(components_join hp hu).2, hsegments, List.filterMap_append, ← List.append_assoc,
      List.getLast?_append, Option.or_of_isSome (List.getLast?_isSome.mpr (filterMap_ne_nil hstep))]
  have hextension : (p.join ⟨s⟩).extension? = (p.join ⟨t⟩).extension? := by
    rw [extension?, extension?, fileName?, fileName?, hlast s front hs hsegments,
      hlast t front' ht hsegments']
  have halike : ∀ u v behind, (Path.mk u).isAbsolute = false → (Path.mk v).isAbsolute = false →
      splitSlashes u = front ++ behind → splitSlashes v = front' ++ behind →
      (p.join ⟨u⟩).normalize = (p.join ⟨v⟩).normalize := by
    intro u v behind hu hv husegments hvsegments
    rw [normalize, normalize, normalSteps_join hp hu, normalSteps_join hp hv, husegments,
      hvsegments,
      List.filterMap_append, List.filterMap_append, List.foldl_append, List.foldl_append,
      foldl_normalStep_detours hdetours]
  obtain ⟨init, last, rfl⟩ : ∃ init last, behind = init ++ [last] := by
    rcases List.eq_nil_or_concat behind with rfl | hconcat
    · simp at hstep
    · simpa using hconcat
  rw [withExtension, withExtension, hextension]
  split
  · exact halike s t _ hs ht hsegments hsegments'
  · rw [join_append hs (isAbsolute_added hs extension),
      join_append ht (isAbsolute_added ht extension)]
    rw [← List.append_assoc] at hsegments hsegments'
    refine halike _ _ (init ++ splitSlashes (last ++ '.' :: extension))
      (isAbsolute_added hs extension) (isAbsolute_added ht extension) ?_ ?_
    · rw [splitSlashes_append_of_last hsegments, List.append_assoc]
    · rw [splitSlashes_append_of_last hsegments', List.append_assoc]

/-! ### Specifiers -/

/-- A relative specifier does not start at the root. -/
theorem isAbsolute_of_relative {specifier : Text} (h : SpecifierKind.of specifier = .relative) :
    (Path.mk specifier).isAbsolute = false := by
  unfold SpecifierKind.of at h
  split at h
  · rfl
  · rfl
  · simp at h
  · simp at h

/-- **Lexical normalization is compositional.** A path from the root is normalized to one from the
root without `.` and `..` that stays as it is, a path that is continued is normalized alike if what
stands in front is normalized before, and `..` takes the last step along but stays at the root. A
path leads to the same place however many detours it is continued by, and specifiers with detours in
front of a step that they share lead from the directory of the importing module to the same
candidate. -/
theorem normalize_join_normalize {p : Path} (hp : p.isAbsolute = true) :
    p.normalize.isAbsolute = true ∧
      (Component.current ∉ p.normalize.components ∧ Component.parent ∉ p.normalize.components) ∧
      p.normalize.normalize = p.normalize ∧
      (∀ q, (p.join q).normalize = (p.normalize.join q).normalize) ∧
      (p.join ⟨['.', '.']⟩).normalize.components =
        (if p.normalize.components = [.root] then [.root] else p.normalize.components.dropLast) ∧
      (∀ s t, (Path.mk s).isAbsolute = false → (Path.mk t).isAbsolute = false →
        Relation.EqvGen Detour (splitSlashes s) (splitSlashes t) →
        (p.join ⟨s⟩).normalize = (p.join ⟨t⟩).normalize) ∧
      ∀ (root : SourceRoot) (importer : Path) (s t : Text), importer.parent? = some p →
        SpecifierKind.of s = .relative → SpecifierKind.of t = .relative → DetoursInFront s t →
        root.candidate? s importer = root.candidate? t importer := by
  obtain ⟨names, hnames, hnormal, hsteps⟩ := exists_names_normalize hp
  have hcomponents : p.normalize.components = .root :: names.map .normal := by
    rw [hnormal, components_ofNames hnames]
  have habsolute : p.normalize.isAbsolute = true := by rw [hnormal]; rfl
  have hagain : normalSteps p.normalize.components = normalSteps p.components := by
    rw [hnormal, normalSteps_ofNames hnames, hsteps]
  refine ⟨habsolute, by simp [hcomponents], by rw [normalize, hagain, ← normalize], fun q => ?_, ?_,
    fun s t hs ht h => ?_, fun root importer s t hparent hs ht h => ?_⟩
  · cases hq : q.isAbsolute with
    | true => rw [join, join, if_pos hq, if_pos hq]
    | false =>
      rw [normalize, normalize, normalSteps_join hp hq, normalSteps_join habsolute hq, hagain]
  · have hparent : (p.join ⟨['.', '.']⟩).isAbsolute = true := (components_join hp rfl).1
    obtain ⟨others, hothers, hnormal', hsteps'⟩ := exists_names_normalize hparent
    have hpop : normalSteps (p.join ⟨['.', '.']⟩).components = popName (normalSteps p.components) :=
      normalSteps_join hp rfl
    rw [hsteps', hsteps, popName_names] at hpop
    rw [hnormal', components_ofNames hothers, hpop, hcomponents]
    cases names with
    | nil => rfl
    | cons name names => simp [List.map_dropLast]
  · rw [normalize, normalize, normalSteps_join hp hs, normalSteps_join hp ht,
      foldl_normalStep_detours h]
  · have hcompleted := normalize_completed hp (isAbsolute_of_relative hs)
      (isAbsolute_of_relative ht) h
      root.extension SourceRoot.scriptExtensions
    simp only [SourceRoot.candidate?, hs, ht, hparent, Option.getD_some, hcompleted]

/-- A directory that is written with more steps to the parent than there are names. -/
def windingDirectory : Path := .ofString "/r/../../s/./t"

/-- What is normalized there, and a specifier that goes through another directory and back. -/
theorem normalize_join_normalize_of_winding :
    windingDirectory.isAbsolute = true ∧ windingDirectory.normalize = .ofString "/s/t" ∧
      (windingDirectory.join (.ofString "../u/..")).normalize = .ofString "/s" ∧
      ((Path.ofString "/s/t").join (.ofString "../u/..")).normalize = .ofString "/s" ∧
      (Path.ofString "/r/../../s/./t/b.js").parent? = some windingDirectory ∧
      DetoursInFront "./x/.././a".toList "./a".toList ∧
      SourceRoot.candidate? ⟨.ofString "/s", "js".toList⟩ "./x/.././a".toList
        (.ofString "/r/../../s/./t/b.js") = some (.ofString "/s/t/a.js") := by
  have habsolute : windingDirectory.isAbsolute = true := by decide
  have hnormal : windingDirectory.normalize = .ofString "/s/t" := by decide
  have hparent : (Path.ofString "/r/../../s/./t/b.js").parent? = some windingDirectory := by decide
  have hdetours : DetoursInFront "./x/.././a".toList "./a".toList := by
    have hback : Detour [['.'], ['x'], ['.', '.'], ['.']] [['.'], ['.']] :=
      .back [['.']] [['.']] (by simp [IsName])
    have hidle : Detour [['.'], ['.']] [['.']] := .idle [['.']] [] (by decide)
    exact ⟨[['.'], ['x'], ['.', '.'], ['.']], [['.']], [['a']], by decide, by decide,
      .trans _ _ _ (.rel _ _ hback) (.rel _ _ hidle), ['a'], by decide, by decide⟩
  obtain ⟨-, -, -, hjoin, -, -, hcandidate⟩ := normalize_join_normalize habsolute
  have hsame := hcandidate ⟨.ofString "/s", "js".toList⟩ _ _ _ hparent (by decide) (by decide)
    hdetours
  refine ⟨habsolute, hnormal, ?_, ?_, hparent, hdetours, hsame.trans (by decide)⟩
  · rw [hjoin, hnormal]
    decide
  · decide

/-- An idle segment, or a name with `..` behind it, leads elsewhere at the **end** of a specifier:
the extension is added behind it before the path is normalized. -/
theorem candidate?_of_detour_at_end :
    Relation.EqvGen Detour (splitSlashes "./a/.".toList) (splitSlashes "./a".toList) ∧
      Relation.EqvGen Detour (splitSlashes "./a/b/..".toList) (splitSlashes "./a".toList) ∧
      SourceRoot.candidate? ⟨.ofString "/r", "js".toList⟩ "./a".toList (.ofString "/r/c.js") =
        some (.ofString "/r/a.js") ∧
      SourceRoot.candidate? ⟨.ofString "/r", "js".toList⟩ "./a/.".toList (.ofString "/r/c.js") =
        some (.ofString "/r/a/..js") ∧
      SourceRoot.candidate? ⟨.ofString "/r", "js".toList⟩ "./a/b/..".toList (.ofString "/r/c.js") =
        some (.ofString "/r/a/b/...js") := by
  have hidle : Detour [['.'], ['a'], ['.']] [['.'], ['a']] := .idle [['.'], ['a']] [] (by decide)
  have hback : Detour [['.'], ['a'], ['b'], ['.', '.']] [['.'], ['a']] :=
    .back [['.'], ['a']] [] (by simp [IsName])
  exact ⟨.rel _ _ hidle, .rel _ _ hback, by decide, by decide, by decide⟩

end ScriptBundle.Path
