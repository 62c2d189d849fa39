import ScriptBundle.Proofs.Document.Integrity
import ScriptBundle.Proofs.Module.Located
import ScriptBundle.Proofs.Text.Position
import ScriptBundle.Proofs.Token.LineEnds
import ScriptBundle.Proofs.Token.Tiling

/-!
# Lines of Body Errors

What is wrong with the body of a module is found at an offset of its text with line feeds alone, but
the line of that offset is looked up in the text as it is written. In front of the place there,
every carriage return that was taken out moves the offset one byte too far to the left. The line is
the right one as long as no line ends in the bytes between, and if the offset falls inside of a
character there is no line at all.

## Main definitions

* `droppedReturns`: the number of carriage returns that are taken out of a text;
* `KeepsLine`: whether moving to the left by that many bytes stays on the line.

## Main statements

* `exists_of_withLineFeeds`: a place between line feeds is a place in the text as it is written;
* `line?_eq_some_iff`: the line of an offset;
* `exists_place_of_error`: the errors of a body lie at a place in the module as it is written;
* `line_of_concatenate`: the line that is reported for them.
-/

namespace ScriptBundle

/-! ### Line ends -/

/-- The number of carriage returns that are **dropped** where lines are made to end with line feeds
alone. -/
def droppedReturns (s : Text) : Nat := s.count '\r' - (withLineFeeds s).count '\r'

/-- Texts with the same lines have as many line feeds, and one byte less for every carriage return
less. -/
theorem SameLines.exists_dropped {s t : Text} (h : SameLines s t) :
    s.count '\n' = t.count '\n' ∧
      ∃ dropped, s.count '\r' = t.count '\r' + dropped ∧ Text.size s = Text.size t + dropped := by
  induction h with
  | nil => exact ⟨rfl, 0, rfl, rfl⟩
  | char c h ih =>
    obtain ⟨hfeeds, dropped, hreturns, hsize⟩ := ih
    refine ⟨by rw [List.count_cons, List.count_cons, hfeeds], dropped, ?_, ?_⟩
    · rw [List.count_cons, List.count_cons, hreturns]
      omega
    · rw [Text.size_cons, Text.size_cons, hsize]
      omega
  | pair h ih =>
    obtain ⟨hfeeds, dropped, hreturns, hsize⟩ := ih
    have hreturn : '\r'.utf8Size = 1 := by decide
    refine ⟨by simp [hfeeds], dropped + 1, by simp [hreturns]; omega, ?_⟩
    rw [Text.size_cons, Text.size_cons, Text.size_cons, hsize, hreturn]
    omega

/-- No line is lost or won. -/
theorem count_withLineFeeds (s : Text) : (withLineFeeds s).count '\n' = s.count '\n' :=
  (sameLines_withLineFeeds s).exists_dropped.1.symm

/-- A byte is lost with every carriage return. -/
theorem size_withLineFeeds (s : Text) :
    Text.size (withLineFeeds s) + droppedReturns s = Text.size s := by
  obtain ⟨-, dropped, hreturns, hsize⟩ := (sameLines_withLineFeeds s).exists_dropped
  rw [droppedReturns, hreturns, hsize]
  omega

/-- A place between line feeds is a **place in the text** as it is written. -/
theorem exists_of_withLineFeeds {s front behind : Text} (h : withLineFeeds s = front ++ behind) :
    ∃ front' behind', s = front' ++ behind' ∧ withLineFeeds front' = front ∧
      withLineFeeds behind' = behind := by
  induction hlength : s.length using Nat.strongRecOn generalizing s front with
  | _ n ih =>
    subst hlength
    cases front with
    | nil => exact ⟨[], s, rfl, rfl, h⟩
    | cons d front =>
      by_cases hpair : ∃ rest, s = '\r' :: '\n' :: rest
      · obtain ⟨rest, rfl⟩ := hpair
        rw [withLineFeeds_pair, List.cons_append, List.cons.injEq] at h
        obtain ⟨rfl, h⟩ := h
        obtain ⟨front', behind', rfl, rfl, hbehind⟩ := ih _ (by simp) h rfl
        exact ⟨'\r' :: '\n' :: front', behind', rfl, withLineFeeds_pair front', hbehind⟩
      · cases s with
        | nil => simp [withLineFeeds, Text.replaceAll, Text.replaceFrom] at h
        | cons c s =>
          have hchar : ¬['\r', '\n'] <+: c :: s := by
            rintro ⟨rest, hrest⟩
            exact hpair ⟨rest, hrest.symm⟩
          rw [withLineFeeds_char hchar, List.cons_append, List.cons.injEq] at h
          obtain ⟨rfl, h⟩ := h
          obtain ⟨front', behind', rfl, rfl, hbehind⟩ := ih _ (by simp) h rfl
          refine ⟨c :: front', behind', rfl, withLineFeeds_char fun hfront => hchar ?_, hbehind⟩
          exact hfront.trans (List.prefix_append (c :: front') behind')

/-! ### Lines -/

/-- An offset of a text has a line if a part of the text ends there: one more than there are line
feeds in that part. -/
theorem line?_eq_some_iff {s : Text} {offset line : Nat} (hoffset : offset ≤ Text.size s) :
    s.line? offset = some line ↔
      ∃ front behind, s = front ++ behind ∧ Text.size front = offset ∧
        front.count '\n' + 1 = line := by
  rw [Text.line?, Text.position?, Nat.min_eq_left hoffset]
  constructor
  · intro h
    obtain ⟨position, hposition, hline⟩ := Option.map_eq_some_iff.mp h
    obtain ⟨⟨front, behind⟩, hcut, rfl⟩ := Option.map_eq_some_iff.mp hposition
    obtain ⟨hs, hsize⟩ := eq_of_cut? hcut
    exact ⟨front, behind, hs, hsize, hline⟩
  · rintro ⟨front, behind, rfl, rfl, rfl⟩
    rw [Text.cut?_size]
    rfl

/-- Whether a text **keeps its last line** when as many bytes are taken from its end as carriage
returns are dropped in it: they are whole characters and hold no line feed. -/
def KeepsLine (before : Text) : Prop :=
  ∃ front drift, before = front ++ drift ∧ Text.size drift = droppedReturns before ∧ '\n' ∉ drift

/-- The line of an offset that was found without carriage returns is looked up among them: it is the
line of the place that was meant if that place keeps its line. -/
theorem line?_drifted_iff (before behind : Text) :
    Text.line? (before ++ behind) (Text.size (withLineFeeds before)) =
      some (before.count '\n' + 1) ↔ KeepsLine before := by
  have hsize := size_withLineFeeds before
  rw [line?_eq_some_iff (by rw [Text.size_append]; omega)]
  constructor
  · rintro ⟨front, rest, heq, hfront, hcount⟩
    rw [List.append_eq_append_iff] at heq
    rcases heq with ⟨further, rfl, -⟩ | ⟨drift, rfl, -⟩
    · rw [Text.size_append] at hfront
      obtain rfl : further = [] := Text.size_eq_zero_iff.mp (by omega)
      exact ⟨before, [], (List.append_nil before).symm, by rw [Text.size_nil]; omega, by simp⟩
    · rw [Text.size_append] at hsize
      rw [List.count_append] at hcount
      exact ⟨front, drift, rfl, by omega, List.count_eq_zero.mp (by omega)⟩
  · rintro ⟨front, drift, hbefore, hdrift, hnone⟩
    rw [hbefore, Text.size_append] at hsize
    rw [hbefore] at hdrift
    refine ⟨front, drift ++ behind, by rw [hbefore, List.append_assoc], ?_, ?_⟩
    · rw [hbefore]
      omega
    · rw [hbefore, List.count_append, List.count_eq_zero.mpr hnone, Nat.add_zero]

/-- No later line is ever looked up. -/
theorem line?_drifted_le {before behind : Text} {line : Nat}
    (h : Text.line? (before ++ behind) (Text.size (withLineFeeds before)) = some line) :
    line ≤ before.count '\n' + 1 := by
  have hsize := size_withLineFeeds before
  rw [line?_eq_some_iff (by rw [Text.size_append]; omega)] at h
  obtain ⟨front, rest, heq, hfront, rfl⟩ := h
  rw [List.append_eq_append_iff] at heq
  rcases heq with ⟨further, rfl, -⟩ | ⟨drift, rfl, -⟩
  · rw [Text.size_append] at hfront
    obtain rfl : further = [] := Text.size_eq_zero_iff.mp (by omega)
    rw [List.append_nil]
  · rw [List.count_append]
    omega

/-! ### Errors of bodies -/

/-- What is wrong with a body is found **at a place** in the module as it is written. -/
theorem exists_place_of_error {source : Text} {e : SyntaxError}
    (h : moduleBody source = .error e) :
    ∃ before behind, source = before ++ behind ∧
      withLineFeeds source = withLineFeeds before ++ withLineFeeds behind ∧
      Text.size (withLineFeeds before) = e.offset := by
  have hread : Interface.read (withLineFeeds source) = .error e := by
    cases hread : Interface.read (withLineFeeds source) with
    | error cause =>
      rw [moduleBody, strip, hread] at h
      exact congrArg Except.error (Except.error.inj h)
    | ok found => simp [moduleBody, strip, hread, Except.map] at h
  rcases interfaceFrom_errs 0 _ e hread with hstart | ⟨t, ht, hstart⟩
  · exact ⟨[], source, rfl, rfl, hstart.symm⟩
  · obtain ⟨front, behind, hsource, hplace⟩ := exists_around_of_mem_tokenize ht
    obtain ⟨before, behind', rfl, hbefore, hbehind⟩ := exists_of_withLineFeeds hsource
    refine ⟨before, behind', rfl, by rw [hsource, hbefore, hbehind], ?_⟩
    rw [hbefore, ← hplace, hstart]

/-- Modules contribute nothing if one of them fails, and the first one that does is reported. -/
theorem allModuleParts_eq_error {style : DocumentStyle} {front back : List ModuleRecord}
    {m : ModuleRecord} (hfront : ∀ other ∈ front, ∃ body, moduleBody other.content = .ok body)
    {e : SyntaxError} (h : moduleBody m.content = .error e) :
    allModuleParts style (front ++ m :: back) =
      .error (placed m e (.bodyMalformed m.relativePath · e.fault)) := by
  induction front with
  | nil => rw [List.nil_append, allModuleParts, moduleParts, h]
  | cons other front ih =>
    obtain ⟨body, hbody⟩ := hfront other (by simp)
    have hothers := ih fun another hanother => hfront another (by simp [hanother])
    rw [List.cons_append, allModuleParts, moduleParts, hbody, hothers]
    rfl

/-- A document is not made if a module fails. -/
theorem concatenate_eq_error (accepts : Text → Bool) {style : DocumentStyle}
    {modules : List ModuleRecord} {context : BuildContext} {header : Text} {e : BuildError}
    (hheader : (headerOf style modules context).outcome = .ok header)
    (hparts : allModuleParts style (emittedModules style modules) = .error e) :
    (concatenate accepts style modules context).outcome = .error e := by
  rw [concatenate, Report.bind_outcome_ok _ hheader]
  exact Report.bind_outcome_error _ hparts

/-- **The line of a body error.** A document whose header renders, but not all of its bodies, fails
with the error of the first body that does. It lies at a place of the module, which is on the same
line there as in the text that was read. That line is reported exactly if the place keeps its line.
Otherwise an earlier line is, or else the offset falls inside of a character and has no line. -/
theorem line_of_concatenate (accepts : Text → Bool) {style : DocumentStyle}
    {modules : List ModuleRecord} {context : BuildContext} {header : Text}
    (hheader : (headerOf style modules context).outcome = .ok header)
    {front back : List ModuleRecord} {m : ModuleRecord}
    (hmodules : emittedModules style modules = front ++ m :: back)
    (hfront : ∀ other ∈ front, ∃ body, moduleBody other.content = .ok body)
    {e : SyntaxError} (h : moduleBody m.content = .error e) :
    ∃ before behind, m.content = before ++ behind ∧
      withLineFeeds m.content = withLineFeeds before ++ withLineFeeds behind ∧
      Text.size (withLineFeeds before) = e.offset ∧
      e.line? (withLineFeeds m.content) = some (before.count '\n' + 1) ∧
      ((concatenate accepts style modules context).outcome = .error (.document
        (.bodyMalformed m.relativePath (before.count '\n' + 1) e.fault)) ↔ KeepsLine before) ∧
      (¬KeepsLine before → (∃ line < before.count '\n' + 1,
        (concatenate accepts style modules context).outcome =
          .error (.document (.bodyMalformed m.relativePath line e.fault))) ∨
        (concatenate accepts style modules context).outcome =
          .error (.unplaced m.relativePath e)) := by
  obtain ⟨before, behind, hcontent, hfeeds, hoffset⟩ := exists_place_of_error h
  have houtcome := concatenate_eq_error accepts hheader
    ((congrArg _ hmodules).trans (allModuleParts_eq_error hfront h))
  have hread : e.line? (withLineFeeds m.content) = some (before.count '\n' + 1) := by
    rw [SyntaxError.line?, hfeeds, ← hoffset, Text.line?, Text.position?_size]
    exact congrArg (some <| · + 1) (count_withLineFeeds before)
  have hlooked : e.line? m.content =
      Text.line? (before ++ behind) (Text.size (withLineFeeds before)) := by
    rw [SyntaxError.line?, hcontent, hoffset]
  have hkeeps := line?_drifted_iff before behind
  rw [← hlooked] at hkeeps
  refine ⟨before, behind, hcontent, hfeeds, hoffset, hread, ?_⟩
  rw [houtcome, placed, ← hkeeps]
  cases hline : e.line? m.content with
  | none => exact ⟨by simp, fun _ => .inr rfl⟩
  | some line =>
    have hlast := line?_drifted_le (hlooked ▸ hline)
    refine ⟨by simp, fun hother => .inl ⟨line, ?_, rfl⟩⟩
    have hne : line ≠ before.count '\n' + 1 := fun heq => hother (congrArg some heq)
    omega

/-- A module with the word `export` alone on its last line, behind two spaces. -/
def danglingModule : ModuleRecord :=
  { path := ⟨"/a.js".toList⟩, relativePath := "a.js", content := "f()\r\n  export".toList }

/-- The spaces make up for the carriage return in front of them. -/
theorem line_of_concatenate_of_dangling :
    (concatenate isScript ⟨"m.js", 1⟩ [namedModule, danglingModule] plainContext).outcome =
      .error (.document (.bodyMalformed "a.js" 2 .danglingExport)) := by
  have hheader : (headerOf ⟨"m.js", 1⟩ [namedModule, danglingModule] plainContext).outcome =
      .ok plainHeader := by
    simp only [headerOf, namedModule, danglingModule, MetadataReading.ofSource, Cursor.ofSource,
      tokenize_eq_upTo]
    cbv
  have hbody : moduleBody danglingModule.content = .error ⟨.danglingExport, 6⟩ := by
    simp only [danglingModule, moduleBody, strip, Interface.read, Cursor.ofSource, tokenize_eq_upTo]
    cbv
  have hmodules : emittedModules ⟨"m.js", 1⟩ [namedModule, danglingModule] =
      [] ++ danglingModule :: [] := rfl
  obtain ⟨before, behind, hcontent, -, hoffset, -, hreported, -⟩ :=
    line_of_concatenate isScript hheader hmodules (by simp) hbody
  have hplaces : ∀ front ∈ danglingModule.content.inits, Text.size (withLineFeeds front) = 6 →
      front = "f()\r\n  ".toList := by decide
  obtain rfl : before = "f()\r\n  ".toList :=
    hplaces before ((List.mem_inits _ _).mpr ⟨behind, hcontent.symm⟩) hoffset
  exact hreported.mpr ⟨"f()\r\n ".toList, [' '], by decide, by decide, by decide⟩

end ScriptBundle
