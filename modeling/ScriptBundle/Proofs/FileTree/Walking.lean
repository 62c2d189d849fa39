import ScriptBundle.Proofs.FileTree.Kept

/-!
# Walks

What a walk along the segments of a path can do, as a relation: it takes a segment at a time, and
follows links. A walk comes to the same place in a tree that holds the same, and more, and a walk to
a vacant place comes to what is put there.

## Main definitions

* `Walks`: how a walk comes to a place.

## Main statements

* `walk_eq_ok_iff`: walks come to places in this way, and in no other;
* `Walks.kept`: walks in a tree that is kept;
* `Walks.of_vacant`: walks to what was put to a vacant place;
* `Walks.made_of_followed`: a path to something is not vacant for a new directory;
* `Walks.eq_of_names`: walks along the names on the way to a file.
-/

namespace ScriptBundle

open FileNode

/-- A link at the end of a path that is written to is followed. -/
@[simp] theorem PathEnd.stopsAt_written (behind : List Text) : written.stopsAt behind = false := rfl

/-- Whether a segment names an entry of a directory, and one that a walk may go to. -/
structure PathEnd.Takes (ending : PathEnd) (here : Location) (segment : Text) (behind : List Text) :
    Prop where
  idle : ¬(segment = [] ∨ segment = ['.'])
  parent : segment ≠ ['.', '.']
  refused : ending.refuses behind = false
  size : (maxNameSize < Text.size segment || ending.outgrows here segment) = false

theorem PathEnd.Takes.of_not {ending : PathEnd} {here : Location} {segment : Text}
    {behind : List Text} (hidle : ¬(segment = [] ∨ segment = ['.']))
    (hparent : segment ≠ ['.', '.']) (hrefused : ¬ending.refuses behind = true)
    (hsize : ¬(maxNameSize < Text.size segment || ending.outgrows here segment) = true) :
    ending.Takes here segment behind :=
  ⟨hidle, hparent, by simpa using hrefused, by simpa using hsize⟩

/-- A **walk** from a location along segments to a place. -/
inductive Walks (root : FileNode) (ending : PathEnd) : Nat → Location → List Text → Place → Prop
  | done {links : Nat} {here : Location} : Walks root ending links here [] (.present here)
  | idle {links : Nat} {here : Location} {segment : Text} {rest : List Text} {place : Place}
      {entries : List (Text × FileNode)} (hhere : root.at? here = some (.directory entries))
      (hidle : segment = [] ∨ segment = ['.']) (hrest : Walks root ending links here rest place) :
      Walks root ending links here (segment :: rest) place
  | parent {links : Nat} {here : Location} {rest : List Text} {place : Place}
      {entries : List (Text × FileNode)} (hhere : root.at? here = some (.directory entries))
      (hrest : Walks root ending links here.dropLast rest place) :
      Walks root ending links here (['.', '.'] :: rest) place
  | vacant {links : Nat} {here : Location} {segment : Text} {rest : List Text}
      {entries : List (Text × FileNode)} (hhere : root.at? here = some (.directory entries))
      (htakes : ending.Takes here segment rest) (hnone : entries.lookup segment = none)
      (hadmits : ending.admitsVacant rest = true) :
      Walks root ending links here (segment :: rest) (.vacant here segment)
  | stop {links : Nat} {here : Location} {segment : Text} {rest : List Text} {node : FileNode}
      {entries : List (Text × FileNode)} (hhere : root.at? here = some (.directory entries))
      (htakes : ending.Takes here segment rest) (hsome : entries.lookup segment = some node)
      (hstops : ending.stopsAt rest = true) :
      Walks root ending links here (segment :: rest) (.present (here ++ [segment]))
  | link {links : Nat} {here : Location} {segment target : Text} {rest : List Text} {place : Place}
      {entries : List (Text × FileNode)} (hhere : root.at? here = some (.directory entries))
      (htakes : ending.Takes here segment rest)
      (hsome : entries.lookup segment = some (.link target)) (hstops : ending.stopsAt rest = false)
      (hrest : Walks root ending links (if (Path.mk target).isAbsolute then [] else here)
        (splitSlashes target ++ rest) place) :
      Walks root ending (links + 1) here (segment :: rest) place
  | enter {links : Nat} {here : Location} {segment : Text} {rest : List Text} {place : Place}
      {node : FileNode} {entries : List (Text × FileNode)}
      (hhere : root.at? here = some (.directory entries)) (htakes : ending.Takes here segment rest)
      (hsome : entries.lookup segment = some node) (hlink : ∀ target, node ≠ .link target)
      (hstops : ending.stopsAt rest = false)
      (hrest : Walks root ending links (here ++ [segment]) rest place) :
      Walks root ending links here (segment :: rest) place

variable {root root' : FileNode} {ending : PathEnd} {links : Nat} {here location : Location}
  {segments : List Text} {place : Place}

/-- A walk to an entry of a directory goes by what stands there. -/
theorem walk_of_takes {segment : Text} {rest : List Text} {entries : List (Text × FileNode)}
    (hhere : root.at? here = some (.directory entries)) (htakes : ending.Takes here segment rest) :
    walk root ending links here (segment :: rest) =
      match entries.lookup segment with
      | none => if ending.admitsVacant rest then .ok (.vacant here segment) else .error .notFound
      | some (.link target) =>
        if ending.stopsAt rest then .ok (.present (here ++ [segment]))
        else
          match links with
          | 0 => .error .tooManyLinks
          | links + 1 =>
            walk root ending links (if (Path.mk target).isAbsolute then [] else here)
              (splitSlashes target ++ rest)
      | some _ =>
        if ending.stopsAt rest then .ok (.present (here ++ [segment]))
        else walk root ending links (here ++ [segment]) rest := by
  have hrefused := ne_true_of_eq_false htakes.refused
  have hsize := ne_true_of_eq_false htakes.size
  rw [walk, hhere]
  exact (if_neg htakes.idle).trans <| (if_neg htakes.parent).trans <|
    (if_neg hrefused).trans (if_neg hsize)

/-- Walks come to places in this way, and in no other. -/
theorem walk_eq_ok_iff :
    walk root ending links here segments = .ok place ↔
      Walks root ending links here segments place := by
  constructor
  · intro h
    fun_induction walk root ending links here segments with
    | case1 =>
      obtain rfl := Except.ok.inj h
      exact .done
    | case2 => simp at h
    | case3 _ _ _ _ _ hhere hidle ih => exact .idle hhere hidle (ih h)
    | case4 _ _ _ _ hhere _ ih => exact .parent hhere (ih h)
    | case5 => simp at h
    | case6 => simp at h
    | case7 _ _ _ _ _ hhere hidle hparent hrefused hsize hnone hadmits =>
      obtain rfl := Except.ok.inj h
      exact .vacant hhere (.of_not hidle hparent hrefused hsize) hnone hadmits
    | case8 => simp at h
    | case9 _ _ _ _ _ hhere hidle hparent hrefused hsize target hsome hstops =>
      obtain rfl := Except.ok.inj h
      exact .stop hhere (.of_not hidle hparent hrefused hsize) hsome hstops
    | case10 => simp at h
    | case11 _ _ _ _ hhere hidle hparent hrefused hsize target hsome hstops _ ih =>
      exact .link hhere (.of_not hidle hparent hrefused hsize) hsome
        (by simpa using hstops) (ih h)
    | case12 _ _ _ _ _ hhere hidle hparent hrefused hsize node hlink hsome hstops =>
      obtain rfl := Except.ok.inj h
      exact .stop hhere (.of_not hidle hparent hrefused hsize) hsome hstops
    | case13 _ _ _ _ _ hhere hidle hparent hrefused hsize node hlink hsome hstops ih =>
      exact .enter hhere (.of_not hidle hparent hrefused hsize) hsome hlink
        (by simpa using hstops) (ih h)
    | case14 => simp at h
  · intro h
    induction h with
    | done => rw [walk]
    | idle hhere hidle _ ih =>
      rw [walk, hhere]
      simp only [if_pos hidle, ih]
    | parent hhere _ ih =>
      rw [walk, hhere]
      have hidle : ¬((['.', '.'] : Text) = [] ∨ (['.', '.'] : Text) = ['.']) := by decide
      simp only [if_neg hidle, if_true, ih]
    | vacant hhere htakes hnone hadmits =>
      rw [walk_of_takes hhere htakes, hnone]
      exact if_pos hadmits
    | @stop links here segment rest node entries hhere htakes hsome hstops =>
      rw [walk_of_takes hhere htakes, hsome]
      cases node <;> exact if_pos hstops
    | link hhere htakes hsome hstops _ ih =>
      rw [walk_of_takes hhere htakes, hsome]
      exact (if_neg (ne_true_of_eq_false hstops)).trans ih
    | @enter links here segment rest place node entries hhere htakes hsome hlink hstops _ ih =>
      rw [walk_of_takes hhere htakes, hsome]
      cases node with
      | link target => exact absurd rfl (hlink target)
      | file content => exact (if_neg (ne_true_of_eq_false hstops)).trans ih
      | directory others => exact (if_neg (ne_true_of_eq_false hstops)).trans ih

/-! ### Walks in trees that are kept -/

/-- A walk comes to the same place in a tree that holds the same. -/
theorem Walks.kept {written : Location} (hkept : Kept written root root')
    (h : Walks root ending links here segments place)
    (hpresent : ∃ location, place = .present location) :
    Walks root' ending links here segments place := by
  induction h with
  | done => exact .done
  | idle hhere hidle _ ih =>
    obtain ⟨_, hhere', hlasts⟩ := hkept.lasts _ _ hhere
    cases hlasts
    exact .idle hhere' hidle (ih hpresent)
  | parent hhere _ ih =>
    obtain ⟨_, hhere', hlasts⟩ := hkept.lasts _ _ hhere
    cases hlasts
    exact .parent hhere' (ih hpresent)
  | vacant => simp at hpresent
  | stop hhere htakes hsome hstops =>
    obtain ⟨_, _, hhere', hsome', -⟩ := hkept.lookup hhere hsome
    exact .stop hhere' htakes hsome' hstops
  | link hhere htakes hsome hstops _ ih =>
    obtain ⟨_, _, hhere', hsome', hlasts⟩ := hkept.lookup hhere hsome
    cases hlasts
    exact .link hhere' htakes hsome' hstops (ih hpresent)
  | enter hhere htakes hsome hlink hstops _ ih =>
    obtain ⟨_, _, hhere', hsome', hlasts⟩ := hkept.lookup hhere hsome
    refine .enter hhere' htakes hsome' (fun target htarget => ?_) hstops (ih hpresent)
    subst htarget
    cases hlasts
    exact hlink target rfl

/-! ### Vacant places -/

/-- The parts of a text between slashes hold none. -/
theorem not_mem_splitSlashes {s segment : Text} (h : segment ∈ splitSlashes s) : '/' ∉ segment := by
  induction s generalizing segment with
  | nil =>
    obtain rfl : segment = [] := by simpa [splitSlashes] using h
    simp
  | cons c rest ih =>
    rw [splitSlashes] at h
    split at h
    · rcases List.mem_cons.mp h with rfl | h
      · simp
      · exact ih h
    · next hc =>
      split at h
      · obtain rfl : segment = [c] := by simpa using h
        simpa using Ne.symm hc
      · next first others hsplit =>
        rcases List.mem_cons.mp h with rfl | h
        · have hfirst := ih (hsplit ▸ List.mem_cons_self)
          simp [hfirst, Ne.symm hc]
        · exact ih (hsplit ▸ List.mem_cons_of_mem _ h)

/-- A vacant place is a name that a directory does not have. -/
theorem Walks.entry_of_vacant {name : Text}
    (h : Walks root ending links here segments (.vacant location name))
    (hslash : ∀ segment ∈ segments, '/' ∉ segment) :
    Path.IsName name ∧ ∃ entries, root.at? location = some (.directory entries) ∧
      entries.lookup name = none := by
  generalize hplace : Place.vacant location name = place at h
  induction h with
  | done => simp at hplace
  | idle _ _ _ ih => exact ih (fun segment hmem => hslash segment (by simp [hmem])) hplace
  | parent _ _ ih => exact ih (fun segment hmem => hslash segment (by simp [hmem])) hplace
  | vacant hhere htakes hnone =>
    obtain ⟨rfl, rfl⟩ := Place.vacant.inj hplace
    obtain ⟨hempty, hcurrent⟩ := not_or.mp htakes.idle
    exact ⟨⟨hslash _ List.mem_cons_self, hempty, hcurrent, htakes.parent⟩, _, hhere, hnone⟩
  | stop => simp at hplace
  | link _ _ _ _ _ ih =>
    refine ih (fun segment hmem => ?_) hplace
    rcases List.mem_append.mp hmem with hmem | hmem
    · exact not_mem_splitSlashes hmem
    · exact hslash segment (List.mem_cons_of_mem _ hmem)
  | enter _ _ _ _ _ _ ih => exact ih (fun segment hmem => hslash segment (by simp [hmem])) hplace

/-- Slashes at the end of a path lead nowhere, but need a directory. -/
theorem Walks.slashes (h : PathEnd.onlySlashes segments = true)
    (hhere : segments = [] ∨ ∃ entries, root.at? here = some (.directory entries)) :
    Walks root ending links here segments (.present here) := by
  induction segments with
  | nil => exact .done
  | cons segment rest ih =>
    rw [PathEnd.onlySlashes, List.all_cons, Bool.and_eq_true] at h
    obtain ⟨hsegment, hrest⟩ := h
    obtain ⟨entries, hentries⟩ := hhere.resolve_left (by simp)
    exact .idle hentries (.inl (List.isEmpty_iff.mp hsegment)) (ih hrest (.inr ⟨entries, hentries⟩))

/-- How a path is walked to what has been put at its end. -/
inductive PathEnd.Reached : PathEnd → PathEnd → Prop where
  | made : Reached .made .followed
  | written : Reached .written .written

theorem PathEnd.Reached.takes {next : PathEnd} {segment : Text} {behind : List Text}
    (h : ending.Reached next) (htakes : ending.Takes here segment behind) :
    next.Takes here segment behind := by
  cases h with
  | made => exact ⟨htakes.idle, htakes.parent, rfl, htakes.size⟩
  | written => exact htakes

/-- Behind a name that is vacant there are only slashes, and nothing where a file is written. -/
theorem PathEnd.Reached.onlySlashes {next : PathEnd} (h : ending.Reached next)
    (hadmits : ending.admitsVacant segments = true) :
    PathEnd.onlySlashes segments = true ∧ (ending = .written → segments = []) := by
  cases h with
  | made =>
    rw [PathEnd.admitsVacant, Bool.or_eq_true] at hadmits
    refine ⟨hadmits.elim (fun hempty => ?_) id, fun hwritten => by cases hwritten⟩
    rw [List.isEmpty_iff.mp hempty]
    rfl
  | written =>
    rw [PathEnd.admitsVacant, PathEnd.stopsAt_written, Bool.or_false, List.isEmpty_iff] at hadmits
    subst hadmits
    exact ⟨rfl, fun _ => rfl⟩

/-- A walk to a vacant place comes to what was put there. -/
theorem Walks.of_vacant {written : Location} (hkept : Kept written root root') {next : PathEnd}
    (hreached : ending.Reached next) {name : Text}
    (h : Walks root ending links here segments (.vacant location name)) {new : FileNode}
    (hnew : root'.at? (location ++ [name]) = some new)
    (hkind : (∃ entries, new = .directory entries) ∨ ending = .written ∧
      ∃ content, new = .file content) :
    Walks root' next links here segments (.present (location ++ [name])) := by
  have hstops : ∀ rest, next.stopsAt rest = false := by
    cases hreached <;> exact fun _ => rfl
  generalize hplace : Place.vacant location name = place at h
  induction h with
  | done => simp at hplace
  | idle hhere hidle _ ih =>
    obtain ⟨_, hhere', hlasts⟩ := hkept.lasts _ _ hhere
    cases hlasts
    exact .idle hhere' hidle (ih hplace)
  | parent hhere _ ih =>
    obtain ⟨_, hhere', hlasts⟩ := hkept.lasts _ _ hhere
    cases hlasts
    exact .parent hhere' (ih hplace)
  | @vacant links here segment rest entries hhere htakes hnone hadmits =>
    obtain ⟨rfl, rfl⟩ := Place.vacant.inj hplace
    obtain ⟨_, hhere', hlasts⟩ := hkept.lasts _ _ hhere
    cases hlasts
    have hsome := hnew
    rw [at?_append, hhere'] at hsome
    have hlink : ∀ target, new ≠ .link target := by
      rintro target rfl
      simp at hkind
    obtain ⟨hslashes, hfile⟩ := hreached.onlySlashes hadmits
    refine .enter hhere' (hreached.takes htakes) (by simpa [at?, child?] using hsome) hlink
      (hstops rest) (.slashes hslashes ?_)
    rcases hkind with ⟨others, rfl⟩ | ⟨hwritten, -⟩
    · exact .inr ⟨others, hnew⟩
    · exact .inl (hfile hwritten)
  | stop => simp at hplace
  | link hhere htakes hsome _ _ ih =>
    obtain ⟨_, _, hhere', hsome', hlasts⟩ := hkept.lookup hhere hsome
    cases hlasts
    exact .link hhere' (hreached.takes htakes) hsome' (hstops _) (ih hplace)
  | enter hhere htakes hsome hlink _ _ ih =>
    obtain ⟨_, _, hhere', hsome', hlasts⟩ := hkept.lookup hhere hsome
    refine .enter hhere' (hreached.takes htakes) hsome' (fun target htarget => ?_) (hstops _)
      (ih hplace)
    subst htarget
    cases hlasts
    exact hlink target rfl

/-- Where a path leads to something, there is no vacant place for a directory. -/
theorem Walks.made_of_followed (h : Walks root .followed links here segments (.present location)) :
    ∃ found, Walks root .made links here segments (.present found) := by
  generalize hplace : Place.present location = place at h
  have htakes : ∀ {here segment rest}, PathEnd.followed.Takes here segment rest →
      PathEnd.made.Takes here segment rest := fun h => ⟨h.idle, h.parent, rfl, h.size⟩
  induction h with
  | done => exact ⟨_, .done⟩
  | idle hhere hidle _ ih =>
    obtain ⟨found, hfound⟩ := ih hplace
    exact ⟨found, .idle hhere hidle hfound⟩
  | parent hhere _ ih =>
    obtain ⟨found, hfound⟩ := ih hplace
    exact ⟨found, .parent hhere hfound⟩
  | vacant => simp at hplace
  | stop _ _ _ hstops => simp [PathEnd.stopsAt] at hstops
  | @link links here segment target rest place entries hhere hown hsome _ _ ih =>
    obtain ⟨found, hfound⟩ := ih hplace
    cases hstops : PathEnd.made.stopsAt rest with
    | true => exact ⟨_, .stop hhere (htakes hown) hsome hstops⟩
    | false => exact ⟨found, .link hhere (htakes hown) hsome hstops hfound⟩
  | @enter links here segment rest place node entries hhere hown hsome hlink _ _ ih =>
    obtain ⟨found, hfound⟩ := ih hplace
    cases hstops : PathEnd.made.stopsAt rest with
    | true => exact ⟨_, .stop hhere (htakes hown) hsome hstops⟩
    | false => exact ⟨found, .enter hhere (htakes hown) hsome hlink hstops hfound⟩

/-! ### Walks along names -/

/-- A walk along the names on the way to a file comes to the file. -/
theorem Walks.eq_of_names {content : ByteArray}
    (h : Walks root .followed links here segments (.present location))
    (hnames : ∀ name ∈ segments, Path.IsName name)
    (hfile : root.at? (here ++ segments) = some (.file content)) : location = here ++ segments := by
  generalize hplace : Place.present location = place at h
  induction h with
  | done => simpa using hplace
  | idle _ hidle _ _ =>
    obtain ⟨-, hempty, hcurrent, -⟩ := hnames _ List.mem_cons_self
    exact absurd hidle (not_or.mpr ⟨hempty, hcurrent⟩)
  | parent _ _ _ => exact absurd rfl (hnames _ List.mem_cons_self).2.2.2
  | vacant => simp at hplace
  | stop _ _ _ hstops => simp [PathEnd.stopsAt] at hstops
  | @link links here segment target rest place entries hhere _ hsome _ _ _ =>
    rw [at?_append, hhere, Option.bind_some, at?, child?, hsome, Option.bind_some] at hfile
    cases rest <;> simp [at?, child?] at hfile
  | @enter links here segment rest place node entries hhere _ hsome _ _ _ ih =>
    have hsplit : here ++ segment :: rest = here ++ [segment] ++ rest := by simp
    rw [hsplit] at hfile ⊢
    exact ih (fun name hname => hnames name (List.mem_cons_of_mem _ hname)) hfile hplace

end ScriptBundle
