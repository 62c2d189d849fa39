import Mathlib.Data.List.Induction
import Mathlib.Data.List.TakeWhile
import ScriptBundle.Path.Normal
import ScriptBundle.Proofs.FileTree.Straight

/-!
# Completed Paths

An extension is added to a path as text, but what the path names goes by its segments. What is added
behind the last character goes into the last segment, be it a name or idle, and normalization leaves
it there.

## Main statements

* `Path.splitExtension_append`: the extension that is added to a name is found again;
* `Path.components_join`: the steps of a path that is continued;
* `Path.normalize_of_components`: a path from the root becomes one of names;
* `Path.withExtension_of_not_mem`: a name without a point is completed;
* `Path.exists_completed`: where a path leads to that is continued and completed.
-/

namespace ScriptBundle.Path

/-! ### Extensions of names -/

/-- The extension that is added to a name **is found again**, and the name in front of it. -/
theorem splitExtension_append {name extension : Text} (hname : name ≠ [])
    (hextension : '.' ∉ extension) :
    splitExtension (name ++ '.' :: extension) = (name, some extension) := by
  have hbehind : ∀ c ∈ extension.reverse, (decide (c ≠ '.')) = true := by
    intro c hc
    refine decide_eq_true fun heq => hextension ?_
    rw [← heq]
    exact List.mem_reverse.mp hc
  have hreversed : (name ++ '.' :: extension).reverse =
      extension.reverse ++ '.' :: name.reverse := by
    simp
  rw [splitExtension, hreversed, List.takeWhile_append_of_pos hbehind,
    List.dropWhile_append_of_pos hbehind]
  simp [hname]

/-- A name without a point has no extension. -/
theorem splitExtension_of_not_mem {name : Text} (h : '.' ∉ name) :
    splitExtension name = (name, none) := by
  have hdrop : name.reverse.dropWhile (· ≠ '.') = [] := by
    refine List.dropWhile_eq_nil_iff.mpr fun c hc => decide_eq_true ?_
    rintro rfl
    exact h (List.mem_reverse.mp hc)
  rw [splitExtension, hdrop]

/-- A path that ends in such a name is completed, whatever extensions are accepted. -/
theorem withExtension_of_not_mem {p : Path} {name : Text}
    (h : p.components.getLast? = some (.normal name)) (hpoint : '.' ∉ name) (extension : Text)
    (accepted : List Text) :
    p.withExtension extension accepted = ⟨p.text ++ '.' :: extension⟩ := by
  have hnone : p.extension? = none := by
    simp [extension?, fileName?, h, splitExtension_of_not_mem hpoint]
  simp [withExtension, hnone]

/-- There is no point in an extension, and its characters are those of the name. -/
theorem mem_of_splitExtension {name extension : Text}
    (h : (splitExtension name).2 = some extension) : '.' ∉ extension ∧ extension ⊆ name := by
  rw [splitExtension] at h
  split at h
  · split at h
    · simp at h
    · obtain rfl := Option.some.inj h
      refine ⟨fun hmem => ?_, fun c hc => ?_⟩
      · simpa using List.mem_takeWhile_imp (List.mem_reverse.mp hmem)
      · have hreversed := List.takeWhile_subset _ (List.mem_reverse.mp hc)
        exact List.mem_reverse.mp hreversed
  · simp at h

/-! ### Segments -/

/-- A slash separates what is in front of it from what is behind it. -/
theorem splitSlashes_slash (s rest : Text) :
    splitSlashes (s ++ '/' :: rest) = splitSlashes s ++ splitSlashes rest := by
  induction s with
  | nil => simp [splitSlashes]
  | cons c s ih =>
    rw [List.cons_append, splitSlashes, splitSlashes, ih]
    split
    · rfl
    · cases hsegments : splitSlashes s with
      | nil => exact absurd hsegments (splitSlashes_ne_nil s)
      | cons first others => rfl

/-- What is added behind a text **goes on from its last segment**. -/
theorem splitSlashes_append_of_last {s last : Text} {front : List Text}
    (h : splitSlashes s = front ++ [last]) (added : Text) :
    splitSlashes (s ++ added) = front ++ splitSlashes (last ++ added) := by
  induction s generalizing front last with
  | nil =>
    obtain ⟨rfl, rfl⟩ : front = [] ∧ last = [] := by
      simpa [splitSlashes, List.singleton_eq_append_iff] using h
    rfl
  | cons c s ih =>
    by_cases hslash : c = '/'
    · have hcons : splitSlashes (c :: s) = [] :: splitSlashes s := by simp [splitSlashes, hslash]
      rw [hcons] at h
      cases front with
      | nil => exact absurd (List.cons.inj h).2 (splitSlashes_ne_nil s)
      | cons first front =>
        obtain ⟨rfl, hrest⟩ := List.cons.inj h
        simp [splitSlashes, hslash, ih hrest]
    · obtain ⟨segment, others, hsegments⟩ := List.exists_cons_of_ne_nil (splitSlashes_ne_nil s)
      have hcons : splitSlashes (c :: s) = (c :: segment) :: others := by
        simp [splitSlashes, hslash, hsegments]
      rw [hcons] at h
      cases front with
      | nil =>
        obtain ⟨rfl, rfl⟩ := List.cons.inj h
        have hfront : splitSlashes s = [] ++ [segment] := hsegments
        simp [splitSlashes, hslash, ih hfront]
      | cons first front =>
        obtain ⟨rfl, rfl⟩ := List.cons.inj h
        have hfront : splitSlashes s = (segment :: front) ++ [last] := hsegments
        simp [splitSlashes, hslash, ih hfront]

/-- What is added without a slash goes into it. -/
theorem exists_last_segment (s : Text) : ∃ front last, splitSlashes s = front ++ [last] ∧
    ∀ added, '/' ∉ added → splitSlashes (s ++ added) = front ++ [last ++ added] := by
  obtain ⟨front, last, hsegments⟩ : ∃ front last, splitSlashes s = front ++ [last] := by
    simpa [splitSlashes_ne_nil] using List.eq_nil_or_concat (splitSlashes s)
  refine ⟨front, last, hsegments, fun added hadded => ?_⟩
  have hlast : '/' ∉ last := not_mem_splitSlashes (s := s) (by simp [hsegments])
  rw [splitSlashes_append_of_last hsegments,
    splitSlashes_of_not_mem (List.not_mem_append hlast hadded)]

/-- The steps of a path from the root. -/
theorem components_of_isAbsolute {p : Path} (hp : p.isAbsolute = true) :
    p.components = .root :: (splitSlashes p.text).filterMap componentOf? := by
  rw [components, frontComponent?, if_pos hp]
  rfl

/-- The steps of a path from the root that is **continued** are its own and those of the segments
behind it. -/
theorem components_join {p q : Path} (hp : p.isAbsolute = true) (hq : q.isAbsolute = false) :
    (p.join q).isAbsolute = true ∧
      (p.join q).components = p.components ++ (splitSlashes q.text).filterMap componentOf? := by
  have htext : p.text ≠ [] := by
    intro hnil
    simp [isAbsolute, hnil] at hp
  have hhead : ∀ behind, (Path.mk (p.text ++ behind)).isAbsolute = true := by
    intro behind
    have hslash : p.text.head? = some '/' := beq_iff_eq.mp hp
    simp [isAbsolute, List.head?_append, hslash]
  have hsteps : ∀ behind, (Path.mk (p.text ++ behind)).components =
      .root :: (splitSlashes (p.text ++ behind)).filterMap componentOf? :=
    fun behind => components_of_isAbsolute (hhead behind)
  rw [join, if_neg (by simp [hq]), components_of_isAbsolute hp]
  split
  · next hslash =>
    obtain ⟨front, hfront⟩ := List.getLast?_eq_some_iff.mp (hslash.resolve_left htext)
    have hsegments : splitSlashes (p.text ++ q.text) =
        splitSlashes front ++ splitSlashes q.text := by
      rw [hfront, List.append_assoc, List.singleton_append, splitSlashes_slash]
    have hnone : splitSlashes p.text = splitSlashes front ++ [[]] := by
      rw [hfront, splitSlashes_slash]
      rfl
    refine ⟨hhead _, ?_⟩
    rw [hsteps, hsegments, hnone]
    simp [componentOf?]
  · refine ⟨hhead _, ?_⟩
    rw [hsteps, splitSlashes_slash, List.filterMap_append, List.cons_append]

/-- A continued path is completed at the end of what it was continued by. -/
theorem join_append {p q : Path} (hq : q.isAbsolute = false) {added : Text}
    (hadded : (Path.mk (q.text ++ added)).isAbsolute = false) :
    Path.mk ((p.join q).text ++ added) = p.join ⟨q.text ++ added⟩ := by
  simp only [join, hq, hadded, Bool.false_eq_true, if_false]
  split <;> simp

/-- An extension that is added behind a path does not make it start at the root. -/
theorem isAbsolute_added {s : Text} (h : (Path.mk s).isAbsolute = false) (extension : Text) :
    (Path.mk (s ++ '.' :: extension)).isAbsolute = false := by
  cases s with
  | nil => rfl
  | cons c s => simpa [isAbsolute] using h

/-! ### Normalization -/

/-- A step to the parent takes the name in front of it along. -/
theorem popName_concat (steps : List Component) (name : Text) :
    popName (steps ++ [.normal name]) = steps := by
  simp [popName]

/-- Behind the root, a step to the parent takes the last name along, if there is one. -/
theorem popName_names (names : List Text) :
    popName (.root :: names.map .normal) = .root :: names.dropLast.map .normal := by
  rcases List.eq_nil_or_concat names with rfl | ⟨front, last, rfl⟩
  · rfl
  · simpa using popName_concat (.root :: front.map .normal) last

/-- A step of a path behind the root leads through a name, to the parent or nowhere. -/
theorem isName_of_componentOf? {segments : List Text} (h : ∀ segment ∈ segments, '/' ∉ segment) :
    ∀ step ∈ segments.filterMap componentOf?,
      step = .parent ∨ ∃ name, step = .normal name ∧ IsName name := by
  intro step hstep
  obtain ⟨segment, hsegment, hcomponent⟩ := List.mem_filterMap.mp hstep
  rw [componentOf?] at hcomponent
  split at hcomponent
  · simp at hcomponent
  · next hidle =>
    split at hcomponent
    · exact .inl (Option.some.inj hcomponent).symm
    · next hparent =>
      obtain ⟨hnil, hcurrent⟩ := not_or.mp hidle
      exact .inr ⟨segment, (Option.some.inj hcomponent).symm, h segment hsegment, hnil, hcurrent,
        hparent⟩

/-- Behind the root, normal steps are names, whatever is taken along by steps to the parent. -/
theorem normalSteps_of_root {steps : List Component}
    (h : ∀ step ∈ steps, step = .parent ∨ ∃ name, step = .normal name ∧ IsName name) :
    ∃ names : List Text, normalSteps (.root :: steps) = .root :: names.map .normal ∧
      ∀ name ∈ names, IsName name := by
  -- the induction adds steps at the end, where they are taken in
  induction steps using List.reverseRecOn with
  | nil => exact ⟨[], rfl, by simp⟩
  | append_singleton steps step ih =>
    obtain ⟨names, hnormal, hnames⟩ :=
      ih fun other hother => h other (List.mem_append_left _ hother)
    have hstep : normalSteps (.root :: (steps ++ [step])) =
        normalStep (.root :: names.map .normal) step := by
      rw [← hnormal, normalSteps, normalSteps, ← List.cons_append, List.foldl_append]
      rfl
    rw [hstep]
    rcases h step (by simp) with rfl | ⟨name, rfl, hname⟩
    · exact ⟨names.dropLast, popName_names names, fun name hname =>
        hnames name (List.dropLast_subset names hname)⟩
    · refine ⟨names ++ [name], by simp [normalStep], fun other hother => ?_⟩
      rcases List.mem_append.mp hother with hother | hother
      · exact hnames other hother
      · rwa [List.mem_singleton.mp hother]

/-- A path is normalized to the one of the names that are its normal steps. -/
theorem normalize_of_normalSteps {p : Path} {names : List Text}
    (h : normalSteps p.components = .root :: names.map .normal) : p.normalize = .ofNames names := by
  have htext : (names.map Component.normal).map Component.text = names := by
    rw [List.map_map]
    exact List.map_id _
  rw [normalize, h, ofComponents, htext, ofNames]

/-- A path from the root that ends in a name is **normalized** to one of names that ends in it. -/
theorem normalize_of_components {p : Path} {steps : List Component} {last : Text}
    (hp : p.components = .root :: (steps ++ [.normal last]))
    (hsteps : ∀ step ∈ steps, step = .parent ∨ ∃ name, step = .normal name ∧ IsName name) :
    ∃ names, p.normalize = .ofNames (names ++ [last]) ∧ ∀ name ∈ names, IsName name := by
  obtain ⟨names, hnormal, hnames⟩ := normalSteps_of_root hsteps
  refine ⟨names, normalize_of_normalSteps ?_, hnames⟩
  rw [hp, ← List.cons_append, normalSteps, List.foldl_append, ← normalSteps, hnormal]
  simp [normalStep]

/-- Where a path of names leads to that is **continued and completed** by an extension: through
names, of which the last one is the last segment with the extension behind it. -/
theorem exists_completed {names : List Text} (hnames : ∀ name ∈ names, IsName name) {q : Path}
    (hq : q.isAbsolute = false) {extension : Text} (hne : extension ≠ [])
    (hextension : '.' ∉ extension ∧ '/' ∉ extension) :
    ∃ front last others, splitSlashes q.text = front ++ [last] ∧
      (Path.mk (((ofNames names).join q).text ++ '.' :: extension)).normalize =
        .ofNames (others ++ [last ++ '.' :: extension]) ∧
      (∀ name ∈ others ++ [last ++ '.' :: extension], IsName name) := by
  obtain ⟨front, last, hsegments, hadded⟩ := exists_last_segment q.text
  have hpoint : '/' ∉ '.' :: extension := by simp [hextension.2]
  have hcompleted := isAbsolute_added hq extension
  have hslashes : ∀ segment ∈ front ++ [last], '/' ∉ segment := fun segment hsegment =>
    not_mem_splitSlashes (hsegments ▸ hsegment)
  have hlast : IsName (last ++ '.' :: extension) := by
    have hend : ∀ segment : Text, segment.getLast? = some '.' →
        last ++ '.' :: extension ≠ segment := by
      rintro segment hsegment rfl
      obtain ⟨c, hc⟩ := Option.isSome_iff_exists.mp (List.getLast?_isSome.mpr hne)
      obtain rfl : c = '.' := by
        simpa [List.getLast?_append, List.getLast?_cons, hc] using hsegment
      exact hextension.1 (List.mem_of_getLast? hc)
    refine ⟨?_, by simp, hend _ rfl, hend _ rfl⟩
    exact List.not_mem_append (hslashes last (by simp)) hpoint
  have hsteps : ((ofNames names).join ⟨q.text ++ '.' :: extension⟩).components = .root ::
      ((names.map .normal ++ front.filterMap componentOf?) ++
        [.normal (last ++ '.' :: extension)]) := by
    rw [(components_join rfl hcompleted).2, components_ofNames hnames, hadded _ hpoint,
      List.filterMap_append]
    simp [componentOf?_of_isName hlast]
  obtain ⟨others, hnormal, hothers⟩ := normalize_of_components hsteps fun step hstep => by
    rcases List.mem_append.mp hstep with hstep | hstep
    · obtain ⟨name, hname, rfl⟩ := List.mem_map.mp hstep
      exact .inr ⟨name, rfl, hnames name hname⟩
    · exact isName_of_componentOf? (fun segment hsegment =>
        hslashes segment (List.mem_append_left _ hsegment)) step hstep
  refine ⟨front, last, others, hsegments, by rw [join_append hq hcompleted, hnormal], ?_⟩
  intro name hname
  rcases List.mem_append.mp hname with hname | hname
  · exact hothers name hname
  · rwa [List.mem_singleton.mp hname]

end ScriptBundle.Path
