import ScriptBundle.Proofs.Document.Composition
import ScriptBundle.Proofs.Token.Open

/-!
# Integrity of the Wrapper

Documents are judged as a whole. A module that keeps to itself cannot make up for another one: what
it leaves open is still open behind it. So a document of such modules is accepted only if each of
them is whole by itself, and then the wrapper around them is closed where it is meant to be.

## Main statements

* `closed_of_document`: in an accepted document all literals of such modules are closed;
* `eq_nil_of_wrapperClosing`: the wrapper closes its own brackets and no others;
* `whole_of_concatenate`: in an accepted document such modules are whole.
-/

namespace ScriptBundle

/-! ### Bodies that leave a literal open -/

/-- What a body leaves open in a text it also leaves open if it is moved to the right. -/
theorem exists_unterminated_indentBody {indent body u : Text} (hblank : IsBlankText indent)
    (hfeed : '\n' ∉ indent) {state : LexState}
    (h : ∃ l ∈ lexemes state (body ++ u), l.kind = .unterminated) :
    ∃ l ∈ lexemes state (indentBody indent body ++ u), l.kind = .unterminated := by
  have hrespaced := (indentBody_respaced hblank hfeed body).append_right u
  have hshapes := shapes_respaced hrespaced.loosely (.refl state)
  rw [List.cons_append, List.cons_append, lexemes_lineFeed, lexemes_lineFeed,
    map_behindLine fun _ _ => rfl, map_behindLine fun _ _ => rfl] at hshapes
  have hshape : ∀ kind : TokenKind, kind.shape = .unterminated ↔ kind = .unterminated := by
    intro kind
    cases kind <;> simp [TokenKind.shape]
  obtain ⟨l, hl, hkind⟩ := h
  have hmem := List.mem_map_of_mem (f := (·.kind.shape)) hl
  rw [← hshapes] at hmem
  obtain ⟨m, hm, hmatch⟩ := List.mem_map.mp hmem
  exact ⟨m, hm, (hshape _).mp (hmatch.trans ((hshape _).mpr hkind))⟩

/-- A body that keeps to itself and leaves a literal open does so in a document, whatever lines
stand in front of it and as long as the line behind it closes nothing. -/
theorem KeepsToItself.exists_unterminated {source body : Text} (h : KeepsToItself body)
    (hbody : moduleBody source = .ok body) (hopen : ∃ t ∈ tokenize body, t.kind = .unterminated)
    (style : DocumentStyle) {line : Text} (hline : ClosesNothing line) (v : Text)
    (state : LexState) :
    ∃ l ∈ lexemes state (indentBody style.indent body ++ '\n' :: (line ++ '\n' :: v)),
      l.kind = .unterminated := by
  obtain ⟨hblank, hfeed⟩ := isBlankText_indent style
  refine exists_unterminated_indentBody hblank hfeed ?_
  have hsame := (h.lexemes_moduleBody hbody state).1
  refine exists_unterminated_append hline v ?_ ?_
  · rw [hsame]
    intro l hl
    obtain ⟨t, ht, rfl⟩ := exists_token_of_mem h.hashbang hl
    exact h.templates t ht
  · rw [hsame]
    obtain ⟨t, ht, hkind⟩ := hopen
    refine ⟨t.toLexeme, ?_, hkind⟩
    have hmem := List.mem_map_of_mem (f := Token.toLexeme) ht
    rwa [tokenize_map_toLexeme, afterHashbang_eq_self h.hashbang] at hmem

/-! ### Modules of a document -/

/-- The first of several lines comes to its end at a line feed. -/
theorem exists_joinLines_cons (line : Text) (rest : List Text) :
    ∃ v, Text.joinLines (line :: rest) ++ ['\n'] = line ++ '\n' :: v := by
  rw [joinLines_cons, List.append_assoc]
  cases rest with
  | nil => exact ⟨[], rfl⟩
  | cons next rest => exact ⟨next ++ rest.flatMap ('\n' :: ·) ++ ['\n'], by simp⟩

/-- The parts of modules start with an empty line. -/
theorem allModuleParts_cases {style : DocumentStyle} {modules : List ModuleRecord}
    {parts : List Text} (h : allModuleParts style modules = .ok parts) :
    parts = [] ∨ ∃ rest, parts = [] :: rest := by
  cases modules with
  | nil =>
    obtain rfl : [] = parts := by simpa [allModuleParts] using h
    exact .inl rfl
  | cons m modules =>
    right
    rw [allModuleParts, moduleParts] at h
    cases hbody : moduleBody m.content with
    | error e => simp [hbody] at h
    | ok body =>
      simp only [hbody] at h
      obtain ⟨others, -, rfl⟩ := map_eq_ok_iff.mp h
      exact ⟨_, rfl⟩

/-- Behind the parts of modules stands a line that closes nothing. -/
theorem exists_closesNothing {style : DocumentStyle} {modules : List ModuleRecord}
    {parts : List Text} (hparts : allModuleParts style modules = .ok parts) {line : Text}
    (hline : ClosesNothing line) (more : List Text) :
    ∃ next v, ClosesNothing next ∧
      Text.joinLines (parts ++ line :: more) ++ ['\n'] = next ++ '\n' :: v := by
  rcases allModuleParts_cases hparts with rfl | ⟨rest, rfl⟩
  · obtain ⟨v, hv⟩ := exists_joinLines_cons line more
    exact ⟨line, v, hline, hv⟩
  · obtain ⟨v, hv⟩ := exists_joinLines_cons [] (rest ++ line :: more)
    exact ⟨[], v, by simp [ClosesNothing], hv⟩

section

variable {style : DocumentStyle} {modules : List ModuleRecord} {bodies : ModuleRecord → Text}
  {parts : List Text}

/-- In a document without open literals, a body that keeps to itself leaves none open. -/
theorem KeepsToItself.closed_of_lines {source body : Text} (h : KeepsToItself body)
    (hbody : moduleBody source = .ok body) {front : List Text} (hfront : front ≠ [])
    (hends : EndsCleanly .initial (Text.joinLines front))
    (hparts : allModuleParts style modules = .ok parts) {line : Text} (hline : ClosesNothing line)
    (more : List Text)
    (hdocument : ∀ l ∈ lexemes .initial (Text.joinLines
      (front ++ indentBody style.indent body :: (parts ++ line :: more)) ++ ['\n']),
      l.kind ≠ .unterminated) :
    ∀ t ∈ tokenize body, t.kind ≠ .unterminated := by
  intro t ht hkind
  obtain ⟨next, v, hnext, htail⟩ := exists_closesNothing hparts hline more
  rw [joinLines_around hfront (by simp), List.append_assoc, List.cons_append, List.append_assoc,
    List.cons_append, htail, lexemes_append hends] at hdocument
  obtain ⟨l, hl, hlkind⟩ := h.exists_unterminated hbody ⟨t, ht, hkind⟩ style hnext v
    (LexState.initial.behind ((lexemes .initial (Text.joinLines front)).map Lexeme.kind))
  have hmem := List.mem_map_of_mem (f := Lexeme.kind) hl
  rw [← map_behindLine (fun _ _ => rfl)] at hmem
  obtain ⟨l', hl', hmatch⟩ := List.mem_map.mp hmem
  exact hdocument l' (List.mem_append_right _ hl') (hmatch.trans hlkind)

/-- In a document without open literals, modules that keep to themselves leave none open. -/
theorem closed_of_document {front : List Text} {xs : List (TokenKind × Option Text)}
    {state : LexState} (hfront : ReadsLines .initial front xs state)
    (hparts : allModuleParts style modules = .ok parts)
    (hpaths : ∀ m ∈ modules, '\n' ∉ m.relativePath.toList)
    (hbodies : ∀ m ∈ modules, moduleBody m.content = .ok (bodies m) ∧ KeepsToItself (bodies m))
    {line : Text} (hline : ClosesNothing line) (more : List Text)
    (hdocument : ∀ l ∈ lexemes .initial
      (Text.joinLines (front ++ parts ++ line :: more) ++ ['\n']), l.kind ≠ .unterminated) :
    ∀ m ∈ modules, ∀ t ∈ tokenize (bodies m), t.kind ≠ .unterminated := by
  induction modules generalizing front parts xs state with
  | nil => simp
  | cons m rest ih =>
    obtain ⟨hbody, hkeeps⟩ := hbodies m (by simp)
    have hpath := hpaths m (by simp)
    rw [allModuleParts] at hparts
    have hclosed : ∀ t ∈ tokenize (bodies m), t.kind ≠ .unterminated := by
      cases hempty : (bodies m).isEmpty with
      | true =>
        rw [List.isEmpty_iff.mp hempty]
        simp [tokenize, afterHashbang, Token.place]
      | false =>
        simp only [moduleParts, hbody, hempty, Bool.false_eq_true, if_false] at hparts
        obtain ⟨others, hothers, rfl⟩ := map_eq_ok_iff.mp hparts
        refine hkeeps.closed_of_lines hbody (by simp)
          (hfront.append (readsLines_name style hpath state)).joinLines.ends hothers hline more ?_
        simpa using hdocument
    obtain ⟨own, stop, hown, hreads⟩ :=
      readsLines_moduleParts style hpath hbody hkeeps hclosed state
    simp only [hown] at hparts
    obtain ⟨others, hothers, rfl⟩ := map_eq_ok_iff.mp hparts
    rw [← List.append_assoc] at hdocument
    have hrest := ih (hfront.append hreads) hothers (fun m' hm' => hpaths m' (by simp [hm']))
      (fun m' hm' => hbodies m' (by simp [hm'])) hdocument
    intro m' hm'
    rcases List.mem_cons.mp hm' with rfl | hm'
    · exact hclosed
    · exact hrest m' hm'

/-! ### Brackets of a document -/

/-- Modules that close only brackets of their own may open some, and are balanced if none of them
does. -/
theorem exists_dueAfter_bodies
    (hnested : ∀ m ∈ modules, (dueAfter [] ((tokenize (bodies m)).map (·.kind))).isSome = true)
    (outer : List Char) (rest : List TokenKind) :
    ∃ opened, dueAfter outer
        ((modules.flatMap fun m => tokenContents (bodies m)).map Prod.fst ++ rest) =
          dueAfter (opened ++ outer) rest ∧
      (opened = [] → ∀ m ∈ modules, isBalanced [] ((tokenize (bodies m)).map (·.kind)) = true) := by
  induction modules generalizing outer with
  | nil => exact ⟨[], rfl, by simp⟩
  | cons m others ih =>
    obtain ⟨own, hown⟩ := Option.isSome_iff_exists.mp (hnested m (by simp))
    obtain ⟨opened, hopened, hwhole⟩ := ih (fun m' hm' => hnested m' (by simp [hm'])) (own ++ outer)
    have hkinds : (tokenContents (bodies m)).map Prod.fst = (tokenize (bodies m)).map (·.kind) := by
      rw [tokenContents, List.map_map]
      rfl
    refine ⟨opened ++ own, ?_, ?_⟩
    · rw [List.flatMap_cons, List.map_append, List.append_assoc, hkinds, List.append_assoc,
        ← hopened]
      exact dueAfter_append hown outer _
    · intro hnil
      obtain ⟨rfl, rfl⟩ := List.append_eq_nil_iff.mp hnil
      intro m' hm'
      rcases List.mem_cons.mp hm' with rfl | hm'
      · exact isBalanced_iff.mpr hown
      · exact hwhole rfl m' hm'

/-- The end of the wrapper closes the two brackets that its head has opened, and no others. -/
theorem eq_nil_of_wrapperClosing {opened : List Char}
    (h : dueAfter (opened ++ ['\x7d', ')']) (wrapperClosing.map Prod.fst) = some []) :
    opened = [] := by
  obtain ⟨inner, hbrace, h⟩ := exists_dueAfter h
  obtain ⟨others, hcall, h⟩ := exists_dueAfter h
  have hlength := congrArg List.length (expectedAfter_of_closing (.inr (.inr rfl)) hbrace)
  rw [expectedAfter_of_closing (.inl rfl) hcall] at hlength
  obtain rfl : others = [] := by simpa [dueAfter_cons, expectedAfter, closingOf] using h
  simpa using hlength

/-! ### Documents -/

/-- Whether a check **refuses unterminated literals**: it accepts no text in which one is left
open. -/
def RefusesUnterminated (accepts : Text → Bool) : Prop :=
  ∀ s, accepts s = true → ∀ t ∈ tokenize s, t.kind ≠ .unterminated

/-- The rule of literals and brackets refuses unterminated literals. -/
theorem refusesUnterminated_isScript : RefusesUnterminated isScript := by
  intro s h t ht hkind
  rw [isScript, Bool.and_eq_true, Bool.not_eq_true'] at h
  have hmem := List.mem_map_of_mem (f := (·.kind)) ht
  rw [hkind, ← List.contains_iff_mem, h.1] at hmem
  simp at hmem

/-- In a text that such a check accepts every literal is closed. -/
theorem RefusesUnterminated.closed {accepts : Text → Bool} (h : RefusesUnterminated accepts)
    {s : Text} (hhashbang : hashbang s = []) (hs : accepts s = true) :
    ∀ l ∈ lexemes .initial s, l.kind ≠ .unterminated := by
  intro l hl hkind
  have hmem := List.mem_map_of_mem (f := Lexeme.kind) hl
  rw [← tokenize_map_kind hhashbang, hkind] at hmem
  obtain ⟨t, ht, hopen⟩ := List.mem_map.mp hmem
  exact h s hs t ht hopen

/-- **Integrity of the wrapper.** If a document is accepted and its modules keep to themselves, then
each of its bodies is whole: alone, all of its literals are closed and its brackets close one
another. The wrapper is closed behind all of them. -/
theorem whole_of_concatenate {context : BuildContext} {document : Text}
    (bodies : ModuleRecord → Text)
    (hdocument : (concatenate isScript style modules context).outcome = .ok document)
    (hpaths : ∀ m ∈ emittedModules style modules, '\n' ∉ m.relativePath.toList)
    (hbodies : ∀ m ∈ emittedModules style modules,
      moduleBody m.content = .ok (bodies m) ∧ KeepsToItself (bodies m)) :
    (∀ m ∈ emittedModules style modules, (∀ t ∈ tokenize (bodies m), t.kind ≠ .unterminated) ∧
      isBalanced [] ((tokenize (bodies m)).map (·.kind)) = true) ∧
    tokenContents document = wrapperOpening ++
      (emittedModules style modules).flatMap (fun m => tokenContents (bodies m)) ++
      wrapperClosing := by
  obtain ⟨header, parts, hheader, hparts, rfl, hscript⟩ := concatenate_eq_ok_iff.mp hdocument
  have hhashbang := hashbang_documentText hheader parts
  have hliterals := refusesUnterminated_isScript.closed hhashbang hscript
  have hdue : dueAfter [] ((lexemes .initial (documentText style header parts)).map Lexeme.kind) =
      some [] := by
    rw [isScript, Bool.and_eq_true, tokenize_map_kind hhashbang] at hscript
    exact isBalanced_iff.mp hscript.2
  have hopening := readsLines_opening hheader
  have hline : ClosesNothing wrapperClose := by simp [ClosesNothing, wrapperClose]
  have hclosed := closed_of_document hopening hparts hpaths hbodies hline [] hliterals
  obtain ⟨parts', stop, hparts', hreads⟩ := readsLines_of_keepsToItself style hpaths hbodies hclosed
    (LexState.initial.behind (wrapperOpening.map Prod.fst))
  obtain rfl : parts = parts' := by simpa [hparts] using hparts'
  have hwhole : Reads .initial (documentText style header parts) (wrapperOpening ++
      (emittedModules style modules).flatMap (fun m => tokenContents (bodies m)) ++
      wrapperClosing) := by
    have hlines := (hopening.append hreads).append (.single (reads_wrapperClose stop))
    simpa [documentText] using hlines.joinLines.append (Reads.nil _)
  refine ⟨?_, by rw [tokenContents, tokenize_map_content hhashbang, hwhole.contents]⟩
  rw [hwhole.kinds, List.map_append, List.map_append, List.append_assoc] at hdue
  have hnested := fun m hm => (hbodies m hm).2.nested
  obtain ⟨opened, hopened, hbalanced⟩ := exists_dueAfter_bodies hnested ['\x7d', ')']
    (wrapperClosing.map Prod.fst)
  have hinside : dueAfter ['\x7d', ')']
      (((emittedModules style modules).flatMap fun m => tokenContents (bodies m)).map Prod.fst ++
        wrapperClosing.map Prod.fst) = some [] := hdue
  rw [hopened] at hinside
  exact fun m hm => ⟨hclosed m hm, hbalanced (eq_nil_of_wrapperClosing hinside) m hm⟩

end

/-- The setting of a build. -/
def plainContext : BuildContext := ⟨"1", "main", ⟨"/o.js".toList⟩, ⟨0, false⟩, [], none, none⟩

/-- The header of a script that has a name and nothing else. -/
def plainHeader : Text := "// ==UserScript==\n// @name        x\n// ==/UserScript==".toList

/-- A module that calls a function. -/
def callModule : ModuleRecord :=
  { path := ⟨"/a.js".toList⟩, relativePath := "a.js", content := "f(1)".toList }

/-- The bodies of two modules, of which the second one starts with a bracket. -/
def calledBody (m : ModuleRecord) : Text :=
  if m.relativePath = "a.js" then "f(1)".toList else ";\n(g)".toList

/-- A document with the call of a function and a group: each of them is whole, and both stand inside
of the wrapper. -/
theorem whole_of_concatenate_of_call :
    ∃ document, (concatenate isScript ⟨"m.js", 1⟩ [namedModule, callModule, groupModule]
        plainContext).outcome = .ok document ∧
      isBalanced [] ((tokenize "f(1)".toList).map (·.kind)) = true ∧
      isBalanced [] ((tokenize ";\n(g)".toList).map (·.kind)) = true ∧
      tokenContents document = wrapperOpening ++
        [(.identifier "f", none), (.punctuator '(', none), (.number, none), (.punctuator ')', none),
          (.punctuator ';', none), (.punctuator '(', none), (.identifier "g", none),
          (.punctuator ')', none)] ++ wrapperClosing := by
  have hcall : moduleBody callModule.content = .ok (calledBody callModule) := by
    simp only [callModule, moduleBody, strip, Interface.read, Cursor.ofSource, tokenize_eq_upTo]
    cbv
  have hgroup : moduleBody groupModule.content = .ok (calledBody groupModule) := by
    simp only [groupModule, moduleBody, strip, Interface.read, Cursor.ofSource, tokenize_eq_upTo]
    cbv
  have hcallStands : StandsAlone (calledBody callModule) :=
    standsAlone_of_lexemesUpTo
      [⟨[], ['f'], .identifier "f", false⟩, ⟨[], ['('], .punctuator '(', false⟩,
        ⟨[], ['1'], .number, false⟩, ⟨[], [')'], .punctuator ')', false⟩] [] (by cbv) (by decide)
      (by decide) (by cbv) rfl (by decide)
  have hgroupStands : StandsAlone (calledBody groupModule) :=
    standsAlone_of_lexemesUpTo
      [⟨[], [';'], .punctuator ';', false⟩, ⟨['\n'], ['('], .punctuator '(', true⟩,
        ⟨[], ['g'], .identifier "g", false⟩, ⟨[], [')'], .punctuator ')', false⟩] [] (by cbv)
      (by decide) (by decide) (by cbv) rfl (by decide)
  have hcalls : tokenContents "f(1)".toList =
      [(.identifier "f", none), (.punctuator '(', none), (.number, none),
        (.punctuator ')', none)] := by
    simp only [tokenContents, tokenize_eq_upTo]
    cbv
  have hgroups : tokenContents ";\n(g)".toList =
      [(.punctuator ';', none), (.punctuator '(', none), (.identifier "g", none),
        (.punctuator ')', none)] := by
    simp only [tokenContents, tokenize_eq_upTo]
    cbv
  have hheader : (headerOf ⟨"m.js", 1⟩ [namedModule, callModule, groupModule]
      plainContext).outcome = .ok plainHeader := by
    simp only [headerOf, namedModule, callModule, groupModule, MetadataReading.ofSource,
      Cursor.ofSource, tokenize_eq_upTo]
    cbv
  have hemitted : emittedModules ⟨"m.js", 1⟩ [namedModule, callModule, groupModule] =
      [callModule, groupModule] := by
    decide
  have hparts : allModuleParts ⟨"m.js", 1⟩
      (emittedModules ⟨"m.js", 1⟩ [namedModule, callModule, groupModule]) =
        .ok [[], " // a.js".toList, " f(1)".toList, [], " // b.js".toList, " ;\n (g)".toList] := by
    simp only [hemitted, allModuleParts, moduleParts, hcall, hgroup, indentBody, literalSpans,
      tokenize_eq_upTo]
    cbv
  have hscript : isScript (documentText ⟨"m.js", 1⟩ plainHeader
      [[], " // a.js".toList, " f(1)".toList, [], " // b.js".toList, " ;\n (g)".toList]) =
      true := by
    simp only [isScript, tokenize_eq_upTo]
    cbv
  have hdocument := concatenate_eq_ok_iff.mpr ⟨_, _, hheader, hparts, rfl, hscript⟩
  have hbodies : ∀ m ∈ emittedModules ⟨"m.js", 1⟩ [namedModule, callModule, groupModule],
      moduleBody m.content = .ok (calledBody m) ∧ KeepsToItself (calledBody m) := by
    rw [hemitted]
    simp only [List.forall_mem_cons, List.not_mem_nil, false_implies, implies_true, and_true]
    exact ⟨⟨hcall, hcallStands.keepsToItself⟩, hgroup, hgroupStands.keepsToItself⟩
  obtain ⟨hwhole, htokens⟩ := whole_of_concatenate calledBody hdocument (by decide) hbodies
  have hcalled : calledBody callModule = "f(1)".toList := if_pos rfl
  have hgrouped : calledBody groupModule = ";\n(g)".toList := if_neg (by decide)
  simp only [hemitted, List.forall_mem_cons, hcalled, hgrouped] at hwhole htokens
  refine ⟨_, hdocument, hwhole.1.2, hwhole.2.1.2, ?_⟩
  rw [htokens, List.flatMap_cons, List.flatMap_cons, hcalled, hgrouped, hcalls, hgroups]
  rfl

end ScriptBundle
