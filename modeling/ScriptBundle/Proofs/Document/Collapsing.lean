import ScriptBundle.Proofs.Document.BlankLines
import ScriptBundle.Proofs.Document.Header
import ScriptBundle.Proofs.Text.Position

/-!
# Collapsed Runs

A run of blank lines starts with the line feed of the line in front of it and ends with its own last
one. It is as long as there are blank lines, so that no other run starts inside of it or at its end.
What is written in its place is too short for a run, and the line behind it is not blank, so that
one pass leaves none.

## Main definitions

* `ReplacesAll`: whether the leftmost and longest parts of a kind are replaced, from left to right;
* `IsBlankRun`: a line feed and two or more blank lines;
* `cutDown`: what becomes of the blank lines between two lines;
* `Collapsed`: how the lines of a text become those of the text in which runs are cut down;
* `separations`: the blank lines between lines that hold something.

## Main statements

* `ReplacesAll.unique`: there is one way to replace all of them;
* `not_hasBlankRun_collapseBlankLines`: no run is left once they are cut down;
* `collapsed_lines`: the lines of a text in which runs are cut down;
* `collapseBlankLines_exact`: which runs are cut down, and what is kept.
-/

namespace ScriptBundle

/-! ### Replacing from left to right -/

/-- Whether all parts of a text that are of some kind are **replaced**, from left to right. Of those
that start at the same place the longest one is replaced, and the next one starts behind it or
later. -/
inductive ReplacesAll (kind : Text → Prop) (replacement : Text) : Text → Text → Prop
  | nil : ReplacesAll kind replacement [] []
  | keep (c : Char) {s t : Text} (none : ∀ found, found <+: c :: s → ¬kind found)
      (rest : ReplacesAll kind replacement s t) : ReplacesAll kind replacement (c :: s) (c :: t)
  | replace {c : Char} {found s t : Text} (first : kind (c :: found))
      (longest : ∀ longer, longer <+: c :: (found ++ s) → kind longer →
        longer.length ≤ (c :: found).length)
      (rest : ReplacesAll kind replacement s t) :
      ReplacesAll kind replacement (c :: (found ++ s)) (replacement ++ t)

/-- There is **one way** to replace all of them. -/
theorem ReplacesAll.unique {kind : Text → Prop} {replacement s t u : Text}
    (h : ReplacesAll kind replacement s t) (h' : ReplacesAll kind replacement s u) : t = u := by
  induction h generalizing u with
  | nil => cases h' with
    | nil => rfl
  | @keep c s t hnone _ ih =>
    generalize hwhole : c :: s = whole at h' hnone
    cases h' with
    | nil => simp at hwhole
    | keep d hnone' h' =>
      obtain ⟨rfl, rfl⟩ := List.cons.inj hwhole
      rw [ih h']
    | @replace d found s' t' hfirst _ _ =>
      exact absurd hfirst (hnone _ (List.prefix_append (d :: found) s'))
  | @replace c found s t hfirst hlongest _ ih =>
    generalize hwhole : c :: (found ++ s) = whole at h' hlongest
    cases h' with
    | nil => simp at hwhole
    | @keep d s' t' hnone _ =>
      exact absurd hfirst (hnone _ (hwhole ▸ List.prefix_append (c :: found) s))
    | @replace d found' s' t' hfirst' hlongest' h' =>
      obtain ⟨rfl, hparts⟩ := List.cons.inj hwhole
      have hle := hlongest _ (List.prefix_append (c :: found') s') hfirst'
      have hle' := hlongest' _ (hparts ▸ List.prefix_append (c :: found) s) hfirst
      simp only [List.length_cons] at hle hle'
      obtain ⟨rfl, rfl⟩ := List.append_inj hparts (by omega)
      rw [ih h']

/-! ### Runs of blank lines -/

/-- There is no line feed in a blank line. -/
theorem lineFeed_notMem_of_isBlankLine {line : Text} (h : isBlankLine line = true) :
    '\n' ∉ line := fun hmem => by
  have hindent := List.all_eq_true.mp h '\n' hmem
  exact absurd hindent (by decide)

/-- Whether a text is a **run**: a line feed and two or more blank lines. -/
def IsBlankRun (found : Text) : Prop :=
  ∃ blanks : List Text, 2 ≤ blanks.length ∧ (∀ line ∈ blanks, isBlankLine line = true) ∧
    found = '\n' :: endedLines blanks

/-- A character of a blank line is passed. -/
theorem afterBlankLine?_indent {c : Char} (hc : isIndent c = true) (s : Text) :
    afterBlankLine? (c :: s) = afterBlankLine? s := by
  rw [afterBlankLine?, afterBlankLine?, List.dropWhile_cons_of_pos hc]

/-- A blank line at the front of a text. -/
theorem afterBlankLine?_line {line : Text} (h : isBlankLine line = true) (s : Text) :
    afterBlankLine? (line ++ '\n' :: s) = some s := by
  induction line with
  | nil => rfl
  | cons c line ih =>
    obtain ⟨hc, hline⟩ : isIndent c = true ∧ isBlankLine line = true := by
      simpa [isBlankLine] using h
    rw [List.cons_append, afterBlankLine?_indent hc, ih hline]

/-- Blank lines are passed, and then those behind them. -/
theorem dropBlankLines_endedLines {blanks : List Text}
    (h : ∀ line ∈ blanks, isBlankLine line = true) (s : Text) :
    dropBlankLines (endedLines blanks ++ s) =
      (blanks.length + (dropBlankLines s).1, (dropBlankLines s).2) := by
  induction blanks with
  | nil => simp
  | cons line blanks ih =>
    obtain ⟨hline, hothers⟩ := List.forall_mem_cons.mp h
    rw [endedLines_cons, List.append_assoc, List.cons_append,
      dropBlankLines_of_some (afterBlankLine?_line hline _), ih hothers, List.length_cons]
    simp only [Prod.mk.injEq, and_true]
    omega

/-- The blank lines at the front of a text, with no other one behind them. -/
theorem exists_endedLines (s : Text) :
    ∃ blanks : List Text, (∀ line ∈ blanks, isBlankLine line = true) ∧
      blanks.length = (dropBlankLines s).1 ∧ s = endedLines blanks ++ (dropBlankLines s).2 ∧
      afterBlankLine? (dropBlankLines s).2 = none := by
  fun_induction dropBlankLines s with
  | case1 s h => exact ⟨[], by simp, rfl, rfl, h⟩
  | case2 s rest h _ n behind hrun ih =>
    obtain ⟨line, hline, rfl⟩ := exists_of_afterBlankLine? h
    rw [hrun] at ih
    obtain ⟨blanks, hblanks, hlength, hrest, hnone⟩ := ih
    refine ⟨line :: blanks, List.forall_mem_cons.mpr ⟨hline, hblanks⟩, by simp [hlength], ?_, hnone⟩
    rw [endedLines_cons, List.append_assoc, List.cons_append, ← hrest]

/-- A run at the front of a text takes blank lines, no more than there are. -/
theorem length_le_of_run {found rest : Text} (h : IsBlankRun found)
    (hfound : found <+: '\n' :: rest) :
    2 ≤ (dropBlankLines rest).1 ∧
      found.length + (dropBlankLines rest).2.length ≤ rest.length + 1 := by
  obtain ⟨blanks, htwo, hblanks, rfl⟩ := h
  obtain ⟨behind, hbehind⟩ := hfound
  obtain rfl : endedLines blanks ++ behind = rest := by simpa using hbehind
  have hcount := dropBlankLines_length behind
  rw [dropBlankLines_endedLines hblanks]
  simp only [List.length_cons, List.length_append]
  omega

/-- Where there are two blank lines, all of them make a run. -/
theorem exists_run {rest : Text} (h : 2 ≤ (dropBlankLines rest).1) :
    ∃ found, IsBlankRun ('\n' :: found) ∧ rest = found ++ (dropBlankLines rest).2 := by
  obtain ⟨blanks, hblanks, hlength, hrest, -⟩ := exists_endedLines rest
  exact ⟨endedLines blanks, ⟨blanks, by omega, hblanks, rfl⟩, hrest⟩

/-- Cutting down blank lines **replaces the runs** of a text, each of them by an empty line. -/
theorem replacesAll_collapseBlankLines (s : Text) :
    ReplacesAll IsBlankRun ['\n', '\n'] s (collapseBlankLines s) := by
  fun_induction collapseBlankLines s with
  | case1 => exact .nil
  | case2 rest run _ hrun ih =>
    obtain ⟨found, hfound, hrest⟩ := exists_run hrun
    have hlongest : ∀ longer, longer <+: '\n' :: (found ++ run.2) → IsBlankRun longer →
        longer.length ≤ ('\n' :: found).length := by
      intro longer hlonger hkind
      rw [← hrest] at hlonger
      obtain ⟨-, hle⟩ := length_le_of_run hkind hlonger
      have hlength := congrArg List.length hrest
      rw [List.length_append] at hlength
      rw [List.length_cons]
      omega
    have hreplaced := ReplacesAll.replace hfound hlongest ih
    rwa [← hrest] at hreplaced
  | case3 rest run _ hrun ih =>
    exact .keep _ (fun found hfound hkind => hrun (length_le_of_run hkind hfound).1) ih
  | case4 c rest hc ih =>
    refine .keep c (fun found hfound hkind => ?_) ih
    obtain ⟨blanks, -, -, rfl⟩ := hkind
    exact hc (List.cons_prefix_cons.mp hfound).1.symm

/-- A text in which there is a run has blank lines behind each other. -/
theorem hasBlankRun_iff {s : Text} : HasBlankRun s ↔ ∃ found, IsBlankRun found ∧ found <:+: s := by
  constructor
  · rintro ⟨front, rest, rfl, hrun⟩
    obtain ⟨found, hfound, hrest⟩ := exists_run hrun
    refine ⟨_, hfound, front, (dropBlankLines rest).2, ?_⟩
    rw [List.append_assoc, List.cons_append, ← hrest]
  · rintro ⟨found, hfound, front, behind, rfl⟩
    obtain ⟨blanks, -, -, hblanks⟩ := id hfound
    refine ⟨front, endedLines blanks ++ behind, by simp [hblanks], ?_⟩
    exact (length_le_of_run hfound (by simp [hblanks])).1

/-! ### No run is left -/

/-- Where no blank line is at the front of a text, none is there once runs are cut down. -/
theorem afterBlankLine?_collapseBlankLines {s : Text} (h : afterBlankLine? s = none) :
    afterBlankLine? (collapseBlankLines s) = none := by
  induction s with
  | nil => simpa using h
  | cons c s ih =>
    have hfeed : c ≠ '\n' := by
      rintro rfl
      simp [afterBlankLine?, isIndent] at h
    rw [collapseBlankLines_cons hfeed]
    by_cases hc : isIndent c = true
    · rw [afterBlankLine?_indent hc] at h ⊢
      exact ih h
    · simp [afterBlankLine?, hc, hfeed]

/-- What becomes of blank lines that are all there are between two lines. -/
def cutDown (blanks : List Text) : List Text := if 2 ≤ blanks.length then [[]] else blanks

/-- What becomes of a line feed and all blank lines behind it. -/
theorem collapseBlankLines_endedLines {blanks : List Text} {behind : Text}
    (h : ∀ line ∈ blanks, isBlankLine line = true) (hbehind : afterBlankLine? behind = none) :
    collapseBlankLines ('\n' :: (endedLines blanks ++ behind)) =
      '\n' :: (endedLines (cutDown blanks) ++ collapseBlankLines behind) := by
  have hnone := dropBlankLines_of_none hbehind
  have hdrop := dropBlankLines_endedLines h behind
  rw [hnone, Nat.add_zero] at hdrop
  rw [cutDown]
  split
  · next htwo =>
    rw [collapseBlankLines_run (by rw [hdrop]; exact htwo), hdrop]
    rfl
  · next hfew =>
    rw [collapseBlankLines_lineFeed (by rw [hdrop]; exact hfew)]
    match blanks, h, hfew with
    | [], _, _ => rfl
    | [line], h, _ =>
      have hline := lineFeed_notMem_of_isBlankLine (h line (by simp))
      rw [endedLines_cons, endedLines_nil, List.append_assoc, collapseBlankLines_line hline,
        List.cons_append, List.nil_append, collapseBlankLines_lineFeed (by rw [hnone]; simp)]
      simp
    | _ :: _ :: _, _, hfew => simp at hfew

/-- Where there are fewer than two blank lines they are kept, and none joins them. -/
theorem dropBlankLines_collapseBlankLines {s : Text} (h : ¬2 ≤ (dropBlankLines s).1) :
    (dropBlankLines (collapseBlankLines s)).1 = (dropBlankLines s).1 := by
  obtain ⟨blanks, hblanks, hlength, hs, hnone⟩ := exists_endedLines s
  have hkept : collapseBlankLines s =
      endedLines blanks ++ collapseBlankLines (dropBlankLines s).2 := by
    have hfeed := collapseBlankLines_endedLines hblanks hnone
    rw [← hs, collapseBlankLines_lineFeed h, cutDown, if_neg (by rwa [hlength])] at hfeed
    exact List.tail_eq_of_cons_eq hfeed
  rw [hkept, dropBlankLines_endedLines hblanks,
    dropBlankLines_of_none (afterBlankLine?_collapseBlankLines hnone), Nat.add_zero, hlength]

/-- **No two blank lines follow each other** once they are cut down. -/
theorem not_hasBlankRun_collapseBlankLines (s : Text) : ¬HasBlankRun (collapseBlankLines s) := by
  fun_induction collapseBlankLines s with
  | case1 => simp [HasBlankRun]
  | case2 rest run _ hrun ih =>
    -- the empty line that is written is the only one, as all of the run is gone
    obtain ⟨-, -, -, -, hnone⟩ := exists_endedLines rest
    have hbehind : dropBlankLines (collapseBlankLines run.2) = (0, collapseBlankLines run.2) :=
      dropBlankLines_of_none (afterBlankLine?_collapseBlankLines hnone)
    have hempty : dropBlankLines ('\n' :: collapseBlankLines run.2) =
        (1, collapseBlankLines run.2) := by
      have hline : afterBlankLine? ('\n' :: collapseBlankLines run.2) = _ :=
        afterBlankLine?_line (by rfl : isBlankLine [] = true) _
      rw [dropBlankLines_of_some hline, hbehind]
    rw [hasBlankRun_cons, hasBlankRun_cons, hempty, hbehind]
    simpa using ih
  | case3 rest run _ hrun ih =>
    rw [hasBlankRun_cons, not_or]
    refine ⟨fun hboth => ?_, ih⟩
    rw [dropBlankLines_collapseBlankLines hrun] at hboth
    exact hrun hboth.2
  | case4 c rest hc ih =>
    rw [hasBlankRun_cons, not_or]
    exact ⟨fun hboth => hc hboth.1, ih⟩

/-! ### Lines -/

/-- No character of a line separates lines. -/
theorem beq_lineFeed_of_line {line : Text} (h : '\n' ∉ line) :
    ∀ c ∈ line, (c == '\n') = false := by
  intro c hc
  rw [beq_eq_false_iff_ne]
  rintro rfl
  exact h hc

/-- The first line of a text ends at its first line feed. -/
theorem Text.lines_line {line : Text} (h : '\n' ∉ line) (s : Text) :
    Text.lines (line ++ '\n' :: s) = line :: Text.lines s := by
  rw [lines_eq_splitOn, lines_eq_splitOn, List.splitOn, List.splitOn,
    List.splitOnP_append_cons_of_forall_mem (beq_lineFeed_of_line h) '\n' (by simp)]

/-- A text without line feeds is one line. -/
theorem Text.lines_of_line {line : Text} (h : '\n' ∉ line) : Text.lines line = [line] := by
  rw [lines_eq_splitOn, List.splitOn, List.splitOnP_eq_singleton (beq_lineFeed_of_line h)]

/-- Lines with line feeds at their ends are lines of the text. -/
theorem lines_endedLines {ls : List Text} (h : ∀ line ∈ ls, '\n' ∉ line) (s : Text) :
    Text.lines (endedLines ls ++ s) = ls ++ Text.lines s := by
  induction ls with
  | nil => rfl
  | cons line ls ih =>
    obtain ⟨hline, hothers⟩ := List.forall_mem_cons.mp h
    rw [endedLines_cons, List.append_assoc, List.cons_append, Text.lines_line hline, ih hothers,
      List.cons_append]

/-- They are blank lines still. -/
theorem isBlankLine_cutDown {blanks : List Text} (h : ∀ line ∈ blanks, isBlankLine line = true) :
    ∀ line ∈ cutDown blanks, isBlankLine line = true := by
  rw [cutDown]
  split
  · simp [isBlankLine]
  · exact h

/-- How the **lines** of a text become those of the text in which runs are cut down. Behind a line
all blank lines are taken at once: the next line is not blank, or else it is the last one, which no
line feed ends. -/
inductive Collapsed : List Text → List Text → Prop
  | last (line : Text) : Collapsed [line] [line]
  | behind (line : Text) {blanks rest kept : List Text} {next : Text}
      (blank : ∀ line ∈ blanks, isBlankLine line = true)
      (most : rest ≠ [] → isBlankLine next = false)
      (others : Collapsed (next :: rest) (next :: kept)) :
      Collapsed (line :: (blanks ++ next :: rest)) (line :: (cutDown blanks ++ next :: kept))

/-- The first line stays. -/
theorem Collapsed.exists_first {ls ms : List Text} (h : Collapsed ls ms) :
    ∃ first rest kept, ls = first :: rest ∧ ms = first :: kept := by
  cases h with
  | last line => exact ⟨line, [], [], rfl, rfl⟩
  | behind line => exact ⟨line, _, _, rfl, rfl⟩

/-- The line behind all blank lines is not blank if a line feed ends it. -/
theorem isBlankLine_of_lines {s next : Text} {rest : List Text} (h : afterBlankLine? s = none)
    (hlines : Text.lines s = next :: rest) (hrest : rest ≠ []) : isBlankLine next = false := by
  by_cases hfeed : '\n' ∈ s
  · obtain ⟨line, behind, rfl, hline⟩ := List.eq_append_cons_of_mem hfeed
    rw [Text.lines_line hline] at hlines
    obtain ⟨rfl, -⟩ := List.cons.inj hlines
    rw [← Bool.not_eq_true]
    exact fun hblank => by simp [afterBlankLine?_line hblank] at h
  · rw [Text.lines_of_line hfeed] at hlines
    exact absurd (List.cons.inj hlines).2.symm hrest

/-- The **lines of a text** in which runs are cut down. -/
theorem collapsed_lines (s : Text) :
    Collapsed (Text.lines s) (Text.lines (collapseBlankLines s)) := by
  induction hlength : s.length using Nat.strong_induction_on generalizing s with
  | h n ih =>
    by_cases hfeed : '\n' ∈ s
    · -- all blank lines behind the first line feed, and the text behind them
      obtain ⟨line, behind, rfl, hline⟩ := List.eq_append_cons_of_mem hfeed
      obtain ⟨blanks, hblanks, -, hbehind, hnone⟩ := exists_endedLines behind
      generalize (dropBlankLines behind).2 = tail at hbehind hnone
      subst hbehind
      have hshorter : tail.length < n := by
        simp only [List.length_append, List.length_cons] at hlength
        omega
      have hothers := ih _ hshorter tail rfl
      have hfeeds : ∀ line ∈ blanks, '\n' ∉ line :=
        fun line hmem => lineFeed_notMem_of_isBlankLine (hblanks line hmem)
      have hfeeds' : ∀ line ∈ cutDown blanks, '\n' ∉ line :=
        fun line hmem => lineFeed_notMem_of_isBlankLine (isBlankLine_cutDown hblanks line hmem)
      rw [collapseBlankLines_line hline, collapseBlankLines_endedLines hblanks hnone,
        Text.lines_line hline, Text.lines_line hline, lines_endedLines hfeeds,
        lines_endedLines hfeeds']
      obtain ⟨next, rest, kept, hlines, hkept⟩ := hothers.exists_first
      rw [hlines, hkept] at hothers ⊢
      exact .behind line hblanks (isBlankLine_of_lines hnone hlines) hothers
    · rw [collapseBlankLines_of_line hfeed, Text.lines_of_line hfeed]
      exact .last s

/-- Whether a line holds something other than spaces and tabs. -/
def isFullLine (line : Text) : Bool := !isBlankLine line

/-- The blank lines **between** full lines, for each two of these with no other one in between.
Those in front of the first one and behind the last one are left out. -/
def separations (ls : List Text) : List (List Text) := (ls.splitOnP isFullLine).tail.dropLast

/-- Blank lines are no full lines. -/
theorem not_isFullLine_of_blank {blanks : List Text}
    (h : ∀ line ∈ blanks, isBlankLine line = true) :
    ∀ line ∈ blanks, isFullLine line = false :=
  fun line hmem => by simp [isFullLine, h line hmem]

/-- In front of others they make no difference to these. -/
theorem filter_isFullLine_append {blanks : List Text}
    (h : ∀ line ∈ blanks, isBlankLine line = true) (ls : List Text) :
    (blanks ++ ls).filter isFullLine = ls.filter isFullLine := by
  have hnone : blanks.filter isFullLine = [] :=
    List.filter_eq_nil_iff.mpr fun line hmem => by simp [not_isFullLine_of_blank h line hmem]
  rw [List.filter_append, hnone, List.nil_append]

/-- The full lines **stay**. -/
theorem Collapsed.filter_isFullLine {ls ms : List Text} (h : Collapsed ls ms) :
    ms.filter isFullLine = ls.filter isFullLine := by
  induction h with
  | last => rfl
  | behind line hblank _ _ ih =>
    rw [List.filter_cons, List.filter_cons, filter_isFullLine_append hblank,
      filter_isFullLine_append (isBlankLine_cutDown hblank), ih]

/-- The blank lines between the first line and the next full one, and those behind it. -/
theorem separations_behind {line next : Text} {blanks : List Text} (rest : List Text)
    (hblank : ∀ line ∈ blanks, isBlankLine line = true) (hnext : isFullLine next = true) :
    separations (line :: (blanks ++ next :: rest)) =
      if isFullLine line then blanks :: separations (next :: rest)
      else separations (next :: rest) := by
  have hne := List.splitOnP_ne_nil isFullLine rest
  have hsplit := List.splitOnP_append_cons_of_forall_mem (not_isFullLine_of_blank hblank) next
    hnext rest
  rw [separations, separations, List.splitOnP_cons_eq_if_modifyHead, hsplit,
    List.splitOnP_cons_eq_if_modifyHead, if_pos hnext]
  cases hline : isFullLine line with
  | false => simp
  | true => simp [List.dropLast_cons_of_ne_nil hne]

/-- With blank lines alone behind the first line nothing stands between two full ones. -/
theorem separations_blank (line : Text) {blanks : List Text}
    (hblank : ∀ line ∈ blanks, isBlankLine line = true) : separations (line :: blanks) = [] := by
  rw [separations, List.splitOnP_cons_eq_if_modifyHead,
    List.splitOnP_eq_singleton (not_isFullLine_of_blank hblank)]
  cases isFullLine line <;> rfl

/-- **Between two full lines** blank lines are cut down, and no others. -/
theorem Collapsed.separations {ls ms : List Text} (h : Collapsed ls ms) :
    ScriptBundle.separations ms = (ScriptBundle.separations ls).map cutDown := by
  induction h with
  | last line => rw [separations_blank line (by simp), List.map_nil]
  | @behind line blanks rest kept next hblank hmost hothers ih =>
    have hcut := isBlankLine_cutDown hblank
    cases hnext : isFullLine next with
    | true =>
      rw [separations_behind kept hcut hnext, separations_behind rest hblank hnext, ih]
      split <;> rfl
    | false =>
      -- the line behind the blank ones is the last line, and blank as well
      have hlast : isBlankLine next = true := by simpa [isFullLine] using hnext
      obtain rfl : rest = [] := by
        by_contra hrest
        exact absurd (hmost hrest) (by simp [hlast])
      obtain rfl : kept = [] := by
        generalize hls : [next] = ls at hothers
        cases hothers with
        | last => rfl
        | behind => simp at hls
      have hall : ∀ {between : List Text}, (∀ line ∈ between, isBlankLine line = true) →
          ∀ line ∈ between ++ [next], isBlankLine line = true := by
        intro between hbetween line hmem
        rcases List.mem_append.mp hmem with hmem | hmem
        · exact hbetween line hmem
        · rwa [List.mem_singleton.mp hmem]
      rw [separations_blank line (hall hcut), separations_blank line (hall hblank), List.map_nil]

/-- **Blank lines are cut down exactly.** Cutting down blank lines replaces the runs of a text from
left to right, each as long as it gets, by two line feeds, and is the only way to do so. No run is
left, so that cutting down once more changes nothing. The lines that hold something other than
spaces and tabs stay, and between two of them there is a blank line if and only if there was one:
one that is empty if there were two or more, and what there was otherwise. -/
theorem collapseBlankLines_exact (s : Text) :
    (∀ t, ReplacesAll IsBlankRun ['\n', '\n'] s t ↔ t = collapseBlankLines s) ∧
      (¬∃ found, IsBlankRun found ∧ found <:+: collapseBlankLines s) ∧
      collapseBlankLines (collapseBlankLines s) = collapseBlankLines s ∧
      (Text.lines (collapseBlankLines s)).filter isFullLine = (Text.lines s).filter isFullLine ∧
      List.Forall₂ (fun before after => (after ≠ [] ↔ before ≠ []) ∧
          after = if 2 ≤ before.length then [[]] else before)
        (separations (Text.lines s)) (separations (Text.lines (collapseBlankLines s))) := by
  have hnone := not_hasBlankRun_collapseBlankLines s
  have hlines := collapsed_lines s
  refine ⟨fun t => ⟨fun h => h.unique (replacesAll_collapseBlankLines s), ?_⟩,
    fun h => hnone (hasBlankRun_iff.mpr h), collapseBlankLines_eq_self_iff.mpr hnone,
    hlines.filter_isFullLine, ?_⟩
  · rintro rfl
    exact replacesAll_collapseBlankLines s
  · rw [hlines.separations, List.forall₂_map_right_iff, List.forall₂_same]
    intro before _
    refine ⟨?_, rfl⟩
    rw [cutDown]
    split
    · next htwo =>
      have hne : before ≠ [] := List.ne_nil_of_length_pos (by omega)
      simp [hne]
    · exact Iff.rfl

end ScriptBundle
