import ScriptBundle.Proofs.Document.Integrity
import ScriptBundle.Proofs.Token.Boundary

/-!
# Modules That Are Reached

A reader of the document reaches a module if nothing that stands in front of it is still open there.
A comment or a template that an earlier module leaves open goes on over the modules behind it, and
the document may be accepted nevertheless, if another module closes it.

## Main definitions

* `MovesTo`: where a character of a body stands once the body is moved to the right;
* `textBefore`: what stands in a document in front of the body of a module.

## Main statements

* `MovesTo.unique`: there is one such place;
* `exists_lexeme?_indentBody`: where the first token of an indented body stands;
* `startsAt_of_concatenate`: which modules of an accepted document are reached.
-/

namespace ScriptBundle

/-! ### Places in indented bodies -/

/-- The characters of a text that are no white space. -/
def visible (s : Text) : Text := s.filter (!isBlank ·)

theorem visible_append (s t : Text) : visible (s ++ t) = visible s ++ visible t :=
  List.filter_append s t

theorem visible_cons {c : Char} (hc : isBlank c = false) (s : Text) :
    visible (c :: s) = c :: visible s := by
  simp [visible, hc]

/-- White space has no visible characters, and nothing else has none. -/
theorem visible_eq_nil_iff {s : Text} : visible s = [] ↔ IsBlankText s := by
  simp [visible, IsBlankText]

/-- Whether the character that stands at an offset of a body stands at a place of the indented body:
there it has the same visible characters in front of it. -/
def MovesTo (indent body : Text) (offset place : Nat) : Prop :=
  ∃ front behind front' behind' c, isBlank c = false ∧ body = front ++ c :: behind ∧
    Text.size front = offset ∧ indentBody indent body = front' ++ c :: behind' ∧
    Text.size front' = place ∧ visible front' = visible front

/-- A visible character is found behind visible characters in one way. -/
theorem eq_of_visible_eq {front front' behind behind' : Text} {c d : Char}
    (hc : isBlank c = false) (hd : isBlank d = false)
    (h : front ++ c :: behind = front' ++ d :: behind')
    (hvisible : visible front = visible front') : front = front' := by
  rcases List.append_eq_append_iff.mp h with ⟨inside, rfl, hinside⟩ | ⟨inside, rfl, hinside⟩
  · cases inside with
    | nil => simp
    | cons e inside =>
      obtain ⟨rfl, -⟩ : c = e ∧ behind = inside ++ d :: behind' := by simpa using hinside
      simp [visible_append, visible_cons hc] at hvisible
  · cases inside with
    | nil => simp
    | cons e inside =>
      obtain ⟨rfl, -⟩ : d = e ∧ behind' = inside ++ c :: behind := by simpa using hinside
      simp [visible_append, visible_cons hd] at hvisible

/-- A character stands at one place of the indented body. -/
theorem MovesTo.unique {indent body : Text} {offset place place' : Nat}
    (h : MovesTo indent body offset place) (h' : MovesTo indent body offset place') :
    place = place' := by
  obtain ⟨front, behind, moved, movedBehind, c, hc, hbody, hsize, hindented, rfl, hvisible⟩ := h
  obtain ⟨front', behind', moved', movedBehind', d, hd, hbody', hsize', hindented', rfl,
    hvisible'⟩ := h'
  obtain ⟨rfl, -⟩ := eq_of_append_eq (hbody.symm.trans hbody') (hsize.trans hsize'.symm)
  rw [eq_of_visible_eq hc hd (hindented.symm.trans hindented') (hvisible.trans hvisible'.symm)]

/-- Respaced texts have the same visible characters. -/
theorem Respaced.visible_eq {fixed : Nat → Bool} {offset : Nat} {s t : Text}
    (h : Respaced fixed offset s t) : visible s = visible t := by
  have hnone : ∀ {b : Text}, IsBlankText b → b.filter (!isBlank ·) = [] := visible_eq_nil_iff.mpr
  induction h with
  | nil => rfl
  | cons c _ ih =>
    rw [visible, visible, List.filter_cons, List.filter_cons, ← visible, ← visible, ih]
  | gap _ hbefore hafter _ _ ih =>
    rw [visible, visible, List.filter_cons, List.filter_cons, List.filter_append,
      List.filter_append, hnone hbefore, hnone hafter, List.nil_append, List.nil_append, ← visible,
      ← visible, ih]

/-! ### The first token of an indented body -/

/-- A line feed in front of trivia. -/
theorem scanTrivia_lineFeed (s : Text) :
    (scanTrivia ('\n' :: s)).taken = '\n' :: (scanTrivia s).taken ∧
      (scanTrivia ('\n' :: s)).rest = (scanTrivia s).rest := by
  rw [scanTrivia_cons (not_startsComment_of_ne (by decide)), if_pos (by decide)]
  exact ⟨rfl, rfl⟩

/-- The first token of a body stands where its first character is moved to. -/
theorem exists_lexeme?_indentBody {indent body rest : Text} {l : Lexeme} {other : LexState}
    (hblank : IsBlankText indent) (hfeed : '\n' ∉ indent)
    (hfirst : lexeme? other body = some (l, rest)) (state : LexState) :
    ∃ m rest', lexeme? state (indentBody indent body) = some (m, rest') ∧
      MovesTo indent body (Text.size l.gap) (Text.size m.gap) := by
  obtain ⟨hrest, hgap⟩ := exists_lexeme?_iff.mp ⟨l, rest, hfirst, rfl⟩
  obtain ⟨c, tail, htail⟩ := List.exists_cons_of_ne_nil hrest
  obtain ⟨hspacing, -⟩ := scanTrivia_rest_start htail
  have hc : isBlank c = false := by
    rw [← Bool.not_eq_true]
    exact fun h => by simp [isSpacing_of_isBlank h] at hspacing
  have hrespaced := indentBody_respaced hblank hfeed body
  have htight := (scanTrivia_respaced hrespaced).2.tight rfl
  rw [(scanTrivia_lineFeed body).2, (scanTrivia_lineFeed (indentBody indent body)).2, htail]
    at htight
  obtain ⟨tail', htail', htails⟩ := htight.cons_of_ne (ne_of_isBlank (by decide) hc).symm
  have hne : (scanTrivia (indentBody indent body)).rest ≠ [] := by simp [htail']
  obtain ⟨m, rest', hm, hmgap⟩ : ∃ m rest', lexeme? state (indentBody indent body) =
      some (m, rest') ∧ m.gap = _ := exists_lexeme?_iff.mpr ⟨hne, rfl⟩
  have hbody : body = l.gap ++ c :: tail := by
    rw [← hgap, ← htail, scanTrivia_taken_append_rest]
  have hindented : indentBody indent body = m.gap ++ c :: tail' := by
    rw [hmgap, ← htail', scanTrivia_taken_append_rest]
  refine ⟨m, rest', hm, l.gap, tail, m.gap, tail', c, hc, hbody, rfl, hindented, rfl, ?_⟩
  have hvisible : visible (['\n'] ++ body) = visible (['\n'] ++ indentBody indent body) :=
    hrespaced.visible_eq
  rw [hindented, visible_append, visible_append, List.append_cancel_left_eq, hbody, visible_append,
    visible_append, visible_cons hc, visible_cons hc, htails.visible_eq,
    List.append_cancel_right_eq] at hvisible
  exact hvisible.symm

/-! ### Modules of a document -/

/-- What stands in a document **in front of the body** of a module, `parts` being the parts of the
modules before it. -/
def textBefore (style : DocumentStyle) (header : Text) (parts : List Text) (m : ModuleRecord) :
    Text :=
  Text.joinLines ([header, [], wrapperOpen, style.indent ++ strictDirective] ++ parts ++
    [[], style.indent ++ ['/', '/', ' '] ++ m.relativePath.toList])

variable {style : DocumentStyle} {modules earlier later : List ModuleRecord} {m : ModuleRecord}

/-- The parts of modules are those of the first ones and those of the others. -/
theorem allModuleParts_append {parts : List Text}
    (h : allModuleParts style (earlier ++ later) = .ok parts) :
    ∃ front behind, allModuleParts style earlier = .ok front ∧
      allModuleParts style later = .ok behind ∧ parts = front ++ behind := by
  induction earlier generalizing parts with
  | nil => exact ⟨[], parts, rfl, h, rfl⟩
  | cons m earlier ih =>
    rw [List.cons_append, allModuleParts] at h
    cases hown : moduleParts style m with
    | error e => simp [hown] at h
    | ok own =>
      simp only [hown] at h
      obtain ⟨others, hothers, rfl⟩ := map_eq_ok_iff.mp h
      obtain ⟨front, behind, hfront, hbehind, rfl⟩ := ih hothers
      refine ⟨own ++ front, behind, ?_, hbehind, (List.append_assoc ..).symm⟩
      rw [allModuleParts, hown, hfront]
      rfl

/-- A body that is not empty stands in the document on lines of its own. -/
theorem documentText_around (header : Text) {body : Text} {parts front : List Text}
    (hparts : allModuleParts style (earlier ++ m :: later) = .ok parts)
    (hfront : allModuleParts style earlier = .ok front)
    (hbody : moduleBody m.content = .ok body) (hne : body ≠ []) :
    ∃ behind, allModuleParts style later = .ok behind ∧
      documentText style header parts = textBefore style header front m ++ '\n' ::
        (indentBody style.indent body ++ '\n' ::
          (Text.joinLines (behind ++ [wrapperClose]) ++ ['\n'])) := by
  obtain ⟨front', behind', hfront', hbehind', rfl⟩ := allModuleParts_append hparts
  obtain rfl : front = front' := by simpa [hfront] using hfront'
  have hempty : body.isEmpty = false := by simpa using hne
  rw [allModuleParts] at hbehind'
  simp only [moduleParts, hbody, hempty, Bool.false_eq_true, if_false] at hbehind'
  obtain ⟨behind, hbehind, rfl⟩ := map_eq_ok_iff.mp hbehind'
  refine ⟨behind, hbehind, ?_⟩
  have hlines : [header, [], wrapperOpen, style.indent ++ strictDirective] ++
      (front ++ ([[], style.indent ++ ['/', '/', ' '] ++ m.relativePath.toList] ++
        [indentBody style.indent body] ++ behind)) ++ [wrapperClose] =
      [header, [], wrapperOpen, style.indent ++ strictDirective] ++ front ++
        [[], style.indent ++ ['/', '/', ' '] ++ m.relativePath.toList] ++
          indentBody style.indent body :: (behind ++ [wrapperClose]) := by
    simp
  rw [documentText, hlines, joinLines_around (by simp) (by simp), ← textBefore]
  simp

/-- In an accepted document nothing is open in front of a module if all modules before it keep to
themselves. -/
theorem endsCleanly_textBefore {context : BuildContext} {header : Text} {parts front : List Text}
    {bodies : ModuleRecord → Text} (hheader : (headerOf style modules context).outcome = .ok header)
    (hparts : allModuleParts style (earlier ++ m :: later) = .ok parts)
    (hfront : allModuleParts style earlier = .ok front)
    (hclosed : ∀ l ∈ lexemes .initial (documentText style header parts), l.kind ≠ .unterminated)
    (hpaths : ∀ e ∈ earlier ++ [m], '\n' ∉ e.relativePath.toList)
    (hbodies : ∀ e ∈ earlier, moduleBody e.content = .ok (bodies e) ∧ KeepsToItself (bodies e)) :
    EndsCleanly .initial (textBefore style header front m) := by
  obtain ⟨front', behind, hfront', hbehind, rfl⟩ := allModuleParts_append hparts
  obtain rfl : front = front' := by simpa [hfront] using hfront'
  obtain ⟨more, rfl⟩ : ∃ more, behind = [] :: more := by
    rcases allModuleParts_cases hbehind with rfl | hmore
    · rw [allModuleParts] at hbehind
      cases hown : moduleParts style m with
      | error e => simp [hown] at hbehind
      | ok own =>
        simp only [hown] at hbehind
        obtain ⟨_, -, hnil⟩ := map_eq_ok_iff.mp hbehind
        have hown' : own = [] := (List.append_eq_nil_iff.mp hnil).1
        rw [moduleParts] at hown
        split at hown <;> simp [hown'] at hown
    · exact hmore
  have hopening := readsLines_opening hheader
  have hpaths' : ∀ e ∈ earlier, '\n' ∉ e.relativePath.toList := fun e he => hpaths e (by simp [he])
  have hline : ClosesNothing [] := by simp [ClosesNothing]
  have hwhole := closed_of_document hopening hfront hpaths' hbodies hline (more ++ [wrapperClose])
    (by simpa [documentText] using hclosed)
  obtain ⟨parts, stop, hparts', hreads⟩ := readsLines_of_keepsToItself style hpaths' hbodies hwhole
    (LexState.initial.behind (wrapperOpening.map Prod.fst))
  obtain rfl : front = parts := by simpa [hfront] using hparts'
  have hname := readsLines_name style (hpaths m (by simp)) stop
  exact ((hopening.append hreads).append hname).joinLines.ends

/-- **Which modules are reached.** In an accepted document, the first token of a body is a token
where the body is put if nothing is open in front of the body; and only then, unless a comment of
the body stands between. Nothing is open there if all modules before it keep to themselves. -/
theorem startsAt_of_concatenate {accepts : Text → Bool} (haccepts : RefusesUnterminated accepts)
    {context : BuildContext} {document body : Text} {first : Token}
    (hdocument : (concatenate accepts style modules context).outcome = .ok document)
    (hsplit : emittedModules style modules = earlier ++ m :: later)
    (hbody : moduleBody m.content = .ok body) (hhashbang : hashbang body = [])
    (hfirst : (tokenize body).head? = some first) :
    ∃ header front place, (headerOf style modules context).outcome = .ok header ∧
      allModuleParts style earlier = .ok front ∧
      textBefore style header front m ++ '\n' :: indentBody style.indent body <+: document ∧
      MovesTo style.indent body first.start place ∧
      (EndsCleanly .initial (textBefore style header front m) →
        StartsAt document (Text.size (textBefore style header front m) + 1 + place)) ∧
      (first.start = 0 →
        StartsAt document (Text.size (textBefore style header front m) + 1 + place) →
          EndsCleanly .initial (textBefore style header front m)) ∧
      ((∀ e ∈ earlier ++ [m], '\n' ∉ e.relativePath.toList) →
        ∀ bodies : ModuleRecord → Text,
          (∀ e ∈ earlier, moduleBody e.content = .ok (bodies e) ∧ KeepsToItself (bodies e)) →
            EndsCleanly .initial (textBefore style header front m)) := by
  obtain ⟨header, parts, hheader, hparts, rfl, hscript⟩ := concatenate_eq_ok_iff.mp hdocument
  rw [hsplit] at hparts
  have hdocumentHashbang := hashbang_documentText hheader parts
  have hclosed := haccepts.closed hdocumentHashbang hscript
  obtain ⟨front, _, hfront, -, -⟩ := allModuleParts_append hparts
  obtain ⟨l, rest, hlexeme, hstart⟩ : ∃ l rest, lexeme? .initial body = some (l, rest) ∧
      first.start = Text.size l.gap := by
    cases hnone : lexeme? .initial body with
    | none =>
      simp [tokenize_of_hashbang hhashbang, (lexemes_of_none hnone).1, Token.place] at hfirst
    | some found =>
      obtain ⟨l, rest⟩ := found
      rw [head?_tokenize hhashbang hnone, Option.some.injEq] at hfirst
      exact ⟨l, rest, rfl, by rw [← hfirst]⟩
  have hne : body ≠ [] := by
    rintro rfl
    simp at hlexeme
  obtain ⟨behind, -, hwhole⟩ := documentText_around header hparts hfront hbody hne
  obtain ⟨hblank, hfeed⟩ := isBlankText_indent style
  obtain ⟨moved, _, -, hmoves⟩ := exists_lexeme?_indentBody hblank hfeed hlexeme .initial
  rw [← hstart] at hmoves
  refine ⟨header, front, Text.size moved.gap, hheader, hfront, ?_, hmoves, ?_, ?_, ?_⟩
  · rw [hwhole, ← List.cons_append, ← List.append_assoc]
    exact List.prefix_append _ _
  · intro hends
    obtain ⟨own, _, hown, hownMoves⟩ := exists_lexeme?_indentBody hblank hfeed hlexeme
      (LexState.initial.behind
        ((lexemes .initial (textBefore style header front m)).map Lexeme.kind))
    obtain ⟨found, _, hfound, hgap⟩ := exists_lexeme?_append hown
      (Text.joinLines (behind ++ [wrapperClose]) ++ ['\n'])
    rw [← hstart] at hownMoves
    rw [hwhole] at hdocumentHashbang ⊢
    rw [hmoves.unique hownMoves, ← hgap]
    exact startsAt_of_endsCleanly hdocumentHashbang hends hfound
  · intro hzero hstarts
    obtain ⟨none, _, gap, tail, c, -, -, hnone, hindented, hgap, hvisible⟩ := hmoves
    obtain rfl : none = [] := Text.size_eq_zero_iff.mp (hnone.trans hzero)
    rw [hwhole, hindented, List.append_assoc] at hdocumentHashbang hstarts hclosed
    rw [← hgap] at hstarts
    exact endsCleanly_of_startsAt hdocumentHashbang hclosed (visible_eq_nil_iff.mp hvisible) hstarts
  · intro hpaths bodies hbodies
    exact endsCleanly_textBefore hheader hparts hfront hclosed hpaths hbodies

/-! ### A hidden module -/

/-- A module that leaves a comment open. -/
def openModule : ModuleRecord :=
  { path := ⟨"/a.js".toList⟩, relativePath := "a.js", content := "/*".toList }

/-- A module with a name, which is hidden in a comment. -/
def hiddenModule : ModuleRecord :=
  { path := ⟨"/b.js".toList⟩, relativePath := "b.js", content := "b".toList }

/-- A module with a comment, which also closes one before it. -/
def closingModule : ModuleRecord :=
  { path := ⟨"/c.js".toList⟩, relativePath := "c.js", content := "/**/".toList }

/-- The modules of a script in which one is hidden. -/
def hidingModules : List ModuleRecord := [namedModule, openModule, hiddenModule, closingModule]

/-- The parts of the module that leaves a comment open. -/
def openParts : List Text := [[], " // a.js".toList, " /*".toList]

/-- The parts of all modules of the script. -/
def hidingParts : List Text :=
  openParts ++ [[], " // b.js".toList, " b".toList, [], " // c.js".toList, " /**/".toList]

theorem headerOf_hidingModules :
    (headerOf ⟨"m.js", 1⟩ hidingModules plainContext).outcome = .ok plainHeader := by
  simp only [headerOf, hidingModules, namedModule, openModule, hiddenModule, closingModule,
    MetadataReading.ofSource, Cursor.ofSource, tokenize_eq_upTo]
  cbv

theorem moduleBody_openModule : moduleBody openModule.content = .ok "/*".toList := by
  simp only [openModule, moduleBody, strip, Interface.read, Cursor.ofSource, tokenize_eq_upTo]
  cbv

theorem moduleBody_hiddenModule : moduleBody hiddenModule.content = .ok "b".toList := by
  simp only [hiddenModule, moduleBody, strip, Interface.read, Cursor.ofSource, tokenize_eq_upTo]
  cbv

theorem moduleBody_closingModule : moduleBody closingModule.content = .ok "/**/".toList := by
  simp only [closingModule, moduleBody, strip, Interface.read, Cursor.ofSource, tokenize_eq_upTo]
  cbv

theorem allModuleParts_openModule : allModuleParts ⟨"m.js", 1⟩ [openModule] = .ok openParts := by
  simp only [allModuleParts, moduleParts, moduleBody_openModule, indentBody, literalSpans,
    tokenize_eq_upTo]
  cbv

theorem allModuleParts_hidingModules :
    allModuleParts ⟨"m.js", 1⟩ [openModule, hiddenModule, closingModule] = .ok hidingParts := by
  simp only [allModuleParts, moduleParts, moduleBody_openModule, moduleBody_hiddenModule,
    moduleBody_closingModule, indentBody, literalSpans, tokenize_eq_upTo]
  cbv

/-- The script is accepted: the hidden module stands in the gap in front of the wrapper's end. -/
theorem isScript_hidingParts :
    isScript (documentText ⟨"m.js", 1⟩ plainHeader hidingParts) = true := by
  simp only [isScript, tokenize_eq_upTo]
  cbv

/-- In front of the hidden module a comment is open. -/
theorem not_endsCleanly_openParts :
    ¬EndsCleanly .initial (textBefore ⟨"m.js", 1⟩ plainHeader openParts hiddenModule) := by
  intro hends
  have hopen : leavesCommentOpen (lexemesUpTo
      (textBefore ⟨"m.js", 1⟩ plainHeader openParts hiddenModule).length .initial
      (textBefore ⟨"m.js", 1⟩ plainHeader openParts hiddenModule)).2 = true := by
    cbv
  rw [lexemesUpTo_eq (Nat.le_refl _), hends.comments] at hopen
  simp at hopen

/-- A script is accepted in which a module is not reached. -/
theorem startsAt_of_concatenate_of_hidden :
    ∃ document place,
      (concatenate isScript ⟨"m.js", 1⟩ hidingModules plainContext).outcome = .ok document ∧
      moduleBody hiddenModule.content = .ok hiddenModule.content ∧
      MovesTo [' '] hiddenModule.content 0 place ∧
      ¬StartsAt document (Text.size (textBefore ⟨"m.js", 1⟩ plainHeader openParts hiddenModule) +
        1 + place) := by
  have hemitted : emittedModules ⟨"m.js", 1⟩ hidingModules =
      [openModule] ++ hiddenModule :: [closingModule] := by
    decide
  have hdocument := concatenate_eq_ok_iff.mpr ⟨_, _, headerOf_hidingModules,
    hemitted ▸ allModuleParts_hidingModules, rfl, isScript_hidingParts⟩
  have hfirst : (tokenize hiddenModule.content).head? =
      some ⟨⟨[], ['b'], .identifier "b", false⟩, 0⟩ := by
    rw [tokenize_eq_upTo]
    cbv
  obtain ⟨header, front, place, hheader, hfront, -, hmoves, -, honly, -⟩ :=
    startsAt_of_concatenate refusesUnterminated_isScript hdocument hemitted
      moduleBody_hiddenModule rfl hfirst
  obtain rfl : plainHeader = header := by simpa [headerOf_hidingModules] using hheader
  obtain rfl : openParts = front := by simpa [allModuleParts_openModule] using hfront
  exact ⟨_, place, hdocument, moduleBody_hiddenModule, hmoves,
    mt (honly rfl) not_endsCleanly_openParts⟩

end ScriptBundle
