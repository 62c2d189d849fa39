import ScriptBundle.Proofs.Document.Isolation
import ScriptBundle.Proofs.Text.Trimming
import ScriptBundle.Proofs.Token.Bounded

/-!
# Composition of Documents

A document holds the tokens of its bodies, one body behind the other, inside of the tokens of the
wrapper. Each body is read as it is read alone: the header and the comments contribute nothing, the
indentation changes no token, and a body starts with a token that is the same in every state.

## Main definitions

* `StandsAlone`: whether a body is complete by itself;
* `wrapperOpening`, `wrapperClosing`: the tokens around the bodies.

## Main statements

* `readsLines_allModuleParts`: modules that stand alone contribute the tokens of their bodies;
* `concatenate_contents`: the tokens of a document.
-/

namespace ScriptBundle

/-! ### The wrapper -/

/-- The tokens in front of the bodies: the head of the function and its directive. -/
def wrapperOpening : List (TokenKind × Option Text) :=
  [(.punctuator '(', none), (.identifier "function", none), (.punctuator '(', none),
    (.punctuator ')', none), (.punctuator '\x7b', none),
    (.string "use strict", some "'use strict'".toList), (.punctuator ';', none)]

/-- The tokens behind the bodies: the end of the function and its call. -/
def wrapperClosing : List (TokenKind × Option Text) :=
  [(.punctuator '\x7d', none), (.punctuator ')', none), (.punctuator '(', none),
    (.punctuator ')', none), (.punctuator ';', none)]

/-- A text without a slash is read in every state as it is read first. -/
theorem reads_of_no_slash {s : Text} {xs : List (TokenKind × Option Text)} (h : '/' ∉ s)
    (hxs : Reads .initial s xs) (state : LexState) : Reads state s xs := by
  obtain ⟨hlexemes, htrivia⟩ := lexemes_eq_of_no_slash h state .initial
  refine ⟨⟨?_, ?_⟩, ?_⟩
  · rw [hlexemes]
    exact hxs.ends.literals
  · rw [htrivia, hxs.ends.comments]
  · rw [hlexemes, hxs.contents]

/-- What is read in a given text can be computed. -/
theorem reads_of_lexemesUpTo {state : LexState} {s : Text} (ls : List Lexeme) (trailing : Text)
    (h : lexemesUpTo s.length state s = (ls, trailing))
    (hkinds : ls.all (·.kind != .unterminated) = true)
    (htrailing : leavesCommentOpen trailing = false) : Reads state s (ls.map Lexeme.content) := by
  rw [lexemesUpTo_eq (Nat.le_refl _), Prod.mk.injEq] at h
  obtain ⟨rfl, rfl⟩ := h
  refine ⟨⟨?_, htrailing⟩, rfl⟩
  intro l hl
  simpa using List.all_eq_true.mp hkinds l hl

/-- The line that opens the function is read as such in every state. -/
theorem reads_wrapperOpen (state : LexState) :
    Reads state wrapperOpen (wrapperOpening.take 5) := by
  refine reads_of_no_slash (by decide) ?_ state
  exact reads_of_lexemesUpTo
    [⟨[], ['('], .punctuator '(', false⟩,
      ⟨[], "function".toList, .identifier "function", false⟩,
      ⟨[' '], ['('], .punctuator '(', false⟩, ⟨[], [')'], .punctuator ')', false⟩,
      ⟨[' '], ['\x7b'], .punctuator '\x7b', false⟩] [] (by cbv) (by decide) (by cbv)

/-- The directive is read as such in every state. -/
theorem reads_strictDirective (state : LexState) :
    Reads state strictDirective (wrapperOpening.drop 5) := by
  refine reads_of_no_slash (by decide) ?_ state
  exact reads_of_lexemesUpTo
    [⟨[], "'use strict'".toList, .string "use strict", false⟩, ⟨[], [';'], .punctuator ';', false⟩]
    [] (by cbv) (by decide) (by cbv)

/-- The line that closes the function is read as such in every state. -/
theorem reads_wrapperClose (state : LexState) : Reads state wrapperClose wrapperClosing := by
  refine reads_of_no_slash (by decide) ?_ state
  exact reads_of_lexemesUpTo
    [⟨[], ['\x7d'], .punctuator '\x7d', false⟩, ⟨[], [')'], .punctuator ')', false⟩,
      ⟨[], ['('], .punctuator '(', false⟩, ⟨[], [')'], .punctuator ')', false⟩,
      ⟨[], [';'], .punctuator ';', false⟩] [] (by cbv) (by decide) (by cbv)

/-! ### The header -/

/-- A header is that of metadata of which every field keeps to its line. -/
theorem metadata_of_headerOf {style : DocumentStyle} {modules : List ModuleRecord}
    {context : BuildContext} {header : Text}
    (h : (headerOf style modules context).outcome = .ok header) :
    ∃ metadata : Metadata, metadata.unsafeField? = none ∧ header = metadata.header := by
  unfold headerOf at h
  cases hfind : modules.find? (·.relativePath == style.metadataModule) with
  | none => simp [hfind] at h
  | some m =>
    simp only [hfind, Report.bind_outcome_eq_ok_iff] at h
    obtain ⟨_, -, declared, -, h⟩ := h
    split at h
    · simp [Report.bind_outcome_eq_ok_iff] at h
    · simp only [Report.bind_outcome_eq_ok_iff] at h
      obtain ⟨_, -, h⟩ := h
      split at h
      · simp at h
      · next hsafe =>
        refine ⟨_, hsafe, ?_⟩
        simpa using h.symm

/-- The line of a key and a text, without spaces at its end. -/
def headerLine (key item : String) : Text := Text.trimEndOf ' ' (headerEntry key item)

/-- A line of the header is a comment, of which spaces at the end are left out. -/
theorem headerLine_eq (key item : String) : headerLine key item =
    '/' :: '/' :: Text.trimEndOf ' ' (' ' :: padRight keyWidth ('@' :: key.toList) ++
      ' ' :: item.toList) := by
  rw [headerLine, ← trimEndOf_cons (by decide), ← trimEndOf_cons (by decide)]
  rfl

/-- Trimming all of a header behind an entry trims the line of the entry alone, since that is never
left without a character. -/
theorem pushEntry_eq (header : Text) (line : String × String) :
    pushEntry header line = header ++ headerLine line.1 line.2 ++ ['\n'] := by
  have hne : headerLine line.1 line.2 ≠ [] := by
    rw [headerLine_eq]
    exact List.cons_ne_nil _ _
  rw [pushEntry, trimEndOf_append, ← headerLine, if_neg hne]

/-- Entry by entry, the lines of a header come one below the other. -/
theorem foldl_pushEntry (front : Text) (lines : List (String × String)) :
    lines.foldl pushEntry (front ++ ['\n']) =
      front ++ (lines.flatMap fun line => '\n' :: headerLine line.1 line.2) ++ ['\n'] := by
  induction lines generalizing front with
  | nil => simp
  | cons line rest ih =>
    rw [List.foldl_cons, pushEntry_eq, ih]
    simp

/-- The **header** has a line for every text of every field between the two marker lines. -/
theorem Metadata.header_eq_joinLines (m : Metadata) :
    m.header = Text.joinLines (headerOpen ::
      (m.lines.map fun line => headerLine line.1 line.2) ++ [headerClose]) := by
  rw [Metadata.header, foldl_pushEntry, List.cons_append, joinLines_cons]
  simp [List.flatMap_map]

/-- A line of the header contributes nothing. -/
theorem reads_headerLine (state : LexState) {key item : String} (hkey : '\n' ∉ key.toList)
    (hitem : '\n' ∉ item.toList) : Reads state (headerLine key item) [] := by
  rw [headerLine_eq]
  refine reads_comment state fun hmem => ?_
  have hmem' := List.mem_reverse.mp ((List.dropWhile_sublist _).subset (List.mem_reverse.mp hmem))
  simp [padRight, hkey, hitem] at hmem'

/-- Lines that contribute nothing leave the state as it is. -/
theorem readsLines_of_nothing {state : LexState} {lines : List Text}
    (h : ∀ line ∈ lines, Reads state line []) : ReadsLines state lines [] state := by
  induction lines with
  | nil => exact .nil state
  | cons line rest ih =>
    exact .cons (h line (by simp)) (ih fun l hl => h l (by simp [hl]))

/-- The texts of safe metadata fit their lines, and so do their keys. -/
theorem fits_of_mem_lines {m : Metadata} (h : m.unsafeField? = none) {line : String × String}
    (hline : line ∈ m.lines) : fitsHeaderLine line.1 = true ∧ fitsHeaderLine line.2 = true := by
  obtain ⟨⟨key, value⟩, hfield, hvalue⟩ := List.mem_flatMap.mp hline
  obtain ⟨item, hitem, rfl⟩ := List.mem_map.mp hvalue
  rw [Metadata.unsafeField?, Option.map_eq_none_iff, List.find?_eq_none] at h
  have hsafe := h _ hfield
  simp only [Bool.or_eq_true, Bool.not_eq_true', not_or, Bool.not_eq_false,
    List.all_eq_true] at hsafe
  exact ⟨hsafe.1, hsafe.2 item hitem⟩

/-- A text that fits a line of the header ends none. -/
theorem endsHeaderLine_of_fits {item : String} (h : fitsHeaderLine item = true) :
    ∀ c ∈ item.toList, endsHeaderLine c = false := by
  rw [fitsHeaderLine, Bool.and_eq_true, Bool.not_eq_true'] at h
  simpa using h.1

/-- A header contributes nothing. -/
theorem reads_header {metadata : Metadata} (h : metadata.unsafeField? = none) (state : LexState) :
    Reads state metadata.header [] := by
  rw [metadata.header_eq_joinLines]
  refine (readsLines_of_nothing ?_).joinLines
  intro line hline
  simp only [List.cons_append, List.mem_cons, List.mem_append, List.mem_map, List.not_mem_nil,
    or_false] at hline
  rcases hline with rfl | ⟨⟨key, item⟩, hmem, rfl⟩ | rfl
  · exact reads_comment state (s := " ==UserScript==".toList) (by decide)
  · obtain ⟨hkey, hitem⟩ := fits_of_mem_lines h hmem
    have hunbroken : ∀ {s : String}, fitsHeaderLine s = true → '\n' ∉ s.toList := by
      intro s hs hmem
      exact absurd (endsHeaderLine_of_fits hs '\n' hmem) (by decide)
    exact reads_headerLine state (hunbroken hkey) (hunbroken hitem)
  · exact reads_comment state (s := " ==/UserScript==".toList) (by decide)

/-! ### Bodies -/

/-- Whether a body **stands alone**: read by itself, every literal, bracket and comment in it is
closed, and it starts neither with a line that no one reads nor with a brace. -/
structure StandsAlone (body : Text) : Prop where
  closed : ∀ t ∈ tokenize body, t.kind ≠ .unterminated
  balanced : isBalanced [] ((tokenize body).map (·.kind)) = true
  comments : leavesCommentOpen (trailingTrivia .initial body) = false
  hashbang : hashbang body = []
  brace : ∀ t, (tokenize body).head? = some t → t.kind ≠ .punctuator '\x7b'

/-- What is computed of a given body tells whether it stands alone. -/
theorem standsAlone_of_lexemesUpTo {body : Text} (ls : List Lexeme) (trailing : Text)
    (h : lexemesUpTo body.length .initial body = (ls, trailing))
    (hkinds : ls.all (·.kind != .unterminated) = true)
    (hbalanced : isBalanced [] (ls.map Lexeme.kind) = true)
    (htrailing : leavesCommentOpen trailing = false) (hhashbang : hashbang body = [])
    (hbrace : ls.head?.all (·.kind != .punctuator '\x7b') = true) : StandsAlone body := by
  rw [lexemesUpTo_eq (Nat.le_refl _), Prod.mk.injEq] at h
  obtain ⟨rfl, rfl⟩ := h
  refine ⟨?_, by rw [tokenize_map_kind hhashbang, hbalanced], htrailing, hhashbang, ?_⟩
  · intro t ht
    have hmem := List.mem_map_of_mem (f := Token.toLexeme) ht
    rw [tokenize_of_hashbang hhashbang, Token.place_map_toLexeme] at hmem
    simpa using List.all_eq_true.mp hkinds _ hmem
  · intro t ht
    rw [tokenize_of_hashbang hhashbang] at ht
    have hhead := congrArg (Option.map Token.toLexeme) ht
    rw [← List.head?_map, Token.place_map_toLexeme] at hhead
    simpa [hhead] using hbrace

/-- A body that stands alone keeps to itself. -/
theorem StandsAlone.keepsToItself {body : Text} (h : StandsAlone body) : KeepsToItself body where
  nested := by rw [isBalanced_iff.mp h.balanced, Option.isSome_some]
  templates := fun t ht hkind => absurd hkind (h.closed t ht)
  comments := h.comments
  hashbang := h.hashbang
  brace := h.brace
  slash := fun t ht hkind => absurd hkind (h.closed t (List.mem_of_head? ht))

/-! ### Modules -/

/-- The comment that names a module contributes nothing, if the name stays on its line. -/
theorem readsLines_name (style : DocumentStyle) {m : ModuleRecord}
    (hpath : '\n' ∉ m.relativePath.toList) (state : LexState) :
    ReadsLines state [[], style.indent ++ ['/', '/', ' '] ++ m.relativePath.toList] [] state := by
  refine readsLines_of_nothing fun line hline => ?_
  simp only [List.mem_cons, List.not_mem_nil, or_false] at hline
  rcases hline with rfl | rfl
  · exact Reads.nil state
  · rw [List.append_assoc]
    refine .of_blank (isBlankText_indent style).1 (reads_comment state ?_)
    simpa using hpath

/-- The parts of a module contribute the tokens of its body, if that keeps to itself and all of its
literals are closed. -/
theorem readsLines_moduleParts (style : DocumentStyle) {m : ModuleRecord} {body : Text}
    (hpath : '\n' ∉ m.relativePath.toList) (hbody : moduleBody m.content = .ok body)
    (hkeeps : KeepsToItself body) (hclosed : ∀ t ∈ tokenize body, t.kind ≠ .unterminated)
    (state : LexState) :
    ∃ parts stop, moduleParts style m = .ok parts ∧
      ReadsLines state parts (tokenContents body) stop := by
  have hfront := readsLines_name style hpath state
  cases hempty : body.isEmpty with
  | true =>
    obtain rfl : body = [] := List.isEmpty_iff.mp hempty
    refine ⟨_, state, by rw [moduleParts, hbody], ?_⟩
    simpa [tokenContents, tokenize, hashbang, afterHashbang, Token.place] using hfront
  | false =>
    have hlines := hfront.append (.single (hkeeps.reads hbody hclosed style state))
    refine ⟨_, state.behind ((tokenContents body).map Prod.fst),
      by rw [moduleParts, hbody], ?_⟩
    simpa [hempty] using hlines

variable {modules : List ModuleRecord} {bodies : ModuleRecord → Text}

/-- The parts of modules that keep to themselves contribute the tokens of their bodies, one body
behind the other. -/
theorem readsLines_of_keepsToItself (style : DocumentStyle)
    (hpaths : ∀ m ∈ modules, '\n' ∉ m.relativePath.toList)
    (hbodies : ∀ m ∈ modules, moduleBody m.content = .ok (bodies m) ∧ KeepsToItself (bodies m))
    (hclosed : ∀ m ∈ modules, ∀ t ∈ tokenize (bodies m), t.kind ≠ .unterminated)
    (state : LexState) :
    ∃ parts stop, allModuleParts style modules = .ok parts ∧
      ReadsLines state parts (modules.flatMap fun m => tokenContents (bodies m)) stop := by
  induction modules generalizing state with
  | nil => exact ⟨[], state, rfl, .nil state⟩
  | cons m rest ih =>
    obtain ⟨hbody, hkeeps⟩ := hbodies m (by simp)
    obtain ⟨parts, middle, hparts, hreads⟩ :=
      readsLines_moduleParts style (hpaths m (by simp)) hbody hkeeps (hclosed m (by simp)) state
    obtain ⟨others, stop, hothers, hreads'⟩ := ih (fun m' hm' => hpaths m' (by simp [hm']))
      (fun m' hm' => hbodies m' (by simp [hm'])) (fun m' hm' => hclosed m' (by simp [hm'])) middle
    refine ⟨parts ++ others, stop, ?_, hreads.append hreads'⟩
    rw [allModuleParts, hparts, hothers]
    rfl

/-- The parts of modules that stand alone contribute the tokens of their bodies. -/
theorem readsLines_allModuleParts (style : DocumentStyle)
    (hpaths : ∀ m ∈ modules, '\n' ∉ m.relativePath.toList)
    (hbodies : ∀ m ∈ modules, moduleBody m.content = .ok (bodies m) ∧ StandsAlone (bodies m))
    (state : LexState) :
    ∃ parts stop, allModuleParts style modules = .ok parts ∧
      ReadsLines state parts (modules.flatMap fun m => tokenContents (bodies m)) stop :=
  readsLines_of_keepsToItself style hpaths
    (fun m hm => (hbodies m hm).imp_right StandsAlone.keepsToItself)
    (fun m hm => (hbodies m hm).2.closed) state

/-! ### Documents -/

section

variable {style : DocumentStyle} {context : BuildContext}

/-- A document is made of a header and the parts of its modules, and is accepted. -/
theorem concatenate_eq_ok_iff {accepts : Text → Bool} {document : Text} :
    (concatenate accepts style modules context).outcome = .ok document ↔
      ∃ header parts, (headerOf style modules context).outcome = .ok header ∧
        allModuleParts style (emittedModules style modules) = .ok parts ∧
        documentText style header parts = document ∧ accepts document = true := by
  simp only [concatenate, Report.bind_outcome_eq_ok_iff, Report.outcome_ofExcept]
  refine exists_congr fun header => ?_
  constructor
  · rintro ⟨hheader, parts, hparts, hscript⟩
    split at hscript
    · next hs =>
      obtain rfl : documentText style header parts = document := by simpa using hscript
      exact ⟨parts, hheader, hparts, rfl, hs⟩
    · simp at hscript
  · rintro ⟨parts, hheader, hparts, rfl, hs⟩
    exact ⟨hheader, parts, hparts, by simp [hs]⟩

/-- The lines in front of the modules of a document contribute the head of the wrapper. -/
theorem readsLines_opening {header : Text}
    (h : (headerOf style modules context).outcome = .ok header) :
    ReadsLines .initial [header, [], wrapperOpen, style.indent ++ strictDirective] wrapperOpening
      (LexState.initial.behind (wrapperOpening.map Prod.fst)) := by
  obtain ⟨metadata, hsafe, rfl⟩ := metadata_of_headerOf h
  have hstrict : Reads (LexState.initial.behind ((wrapperOpening.take 5).map Prod.fst))
      (style.indent ++ strictDirective) (wrapperOpening.drop 5) :=
    .of_blank (isBlankText_indent style).1 (reads_strictDirective _)
  exact .cons (reads_header hsafe _) (.cons (Reads.nil _) (.cons (reads_wrapperOpen _)
    (.single hstrict)))

/-- A document starts with its header, which every reader reads. -/
theorem hashbang_documentText {header : Text}
    (h : (headerOf style modules context).outcome = .ok header) (parts : List Text) :
    hashbang (documentText style header parts) = [] := by
  obtain ⟨metadata, -, rfl⟩ := metadata_of_headerOf h
  rw [documentText, List.append_assoc, List.cons_append, joinLines_cons,
    Metadata.header_eq_joinLines, List.cons_append, joinLines_cons]
  rfl

/-- A text is accepted by its literals and brackets if it is read as balanced tokens. -/
theorem isScript_of_reads {s : Text} {xs : List (TokenKind × Option Text)}
    (hhashbang : hashbang s = []) (h : Reads .initial s xs)
    (hbalanced : isBalanced [] (xs.map Prod.fst) = true) : isScript s = true := by
  have hkinds : (tokenize s).map (·.kind) = xs.map Prod.fst := by
    rw [tokenize_map_kind hhashbang, h.kinds]
  have hclosed : (xs.map Prod.fst).contains .unterminated = false := by
    rw [← h.kinds, List.contains_eq_any_beq, List.any_eq_false]
    intro kind hkind
    obtain ⟨l, hl, rfl⟩ := List.mem_map.mp hkind
    simpa using (h.ends.literals l hl).symm
  simp only [isScript, hkinds, hclosed, hbalanced, Bool.not_false, Bool.and_self]

/-- Bodies that stand alone are balanced one behind the other. -/
theorem isBalanced_bodies (hbodies : ∀ m ∈ modules, StandsAlone (bodies m))
    (outer : List Char) (rest : List TokenKind) :
    isBalanced outer ((modules.flatMap fun m => tokenContents (bodies m)).map Prod.fst ++ rest) =
      isBalanced outer rest := by
  induction modules with
  | nil => rfl
  | cons m others ih =>
    have hkinds : (tokenContents (bodies m)).map Prod.fst =
        (tokenize (bodies m)).map (·.kind) := by
      rw [tokenContents, List.map_map]
      rfl
    rw [List.flatMap_cons, List.map_append, List.append_assoc, hkinds]
    have hskip := isBalanced_append (hbodies m (by simp)).balanced outer
    rw [List.nil_append] at hskip
    rw [hskip, ih fun m' hm' => hbodies m' (by simp [hm'])]

/-- The tokens of a document are those of the bodies of its modules inside of the wrapper. -/
theorem concatenate_contents {header : Text} (bodies : ModuleRecord → Text)
    (hheader : (headerOf style modules context).outcome = .ok header)
    (hpaths : ∀ m ∈ emittedModules style modules, '\n' ∉ m.relativePath.toList)
    (hbodies : ∀ m ∈ emittedModules style modules,
      moduleBody m.content = .ok (bodies m) ∧ StandsAlone (bodies m)) :
    ∃ document, (concatenate isScript style modules context).outcome = .ok document ∧
      tokenContents document = wrapperOpening ++
        (emittedModules style modules).flatMap (fun m => tokenContents (bodies m)) ++
        wrapperClosing := by
  obtain ⟨parts, stop, hparts, hreads⟩ := readsLines_allModuleParts style hpaths hbodies
    (LexState.initial.behind (wrapperOpening.map Prod.fst))
  have hdocument : Reads .initial (documentText style header parts)
      (wrapperOpening ++
        (emittedModules style modules).flatMap (fun m => tokenContents (bodies m)) ++
        wrapperClosing) := by
    have hlines := ((readsLines_opening hheader).append hreads).append
      (.single (reads_wrapperClose stop))
    simpa [documentText] using hlines.joinLines.append (Reads.nil _)
  have hhashbang := hashbang_documentText hheader parts
  have hscript : isScript (documentText style header parts) = true := by
    refine isScript_of_reads hhashbang hdocument ?_
    rw [List.map_append, List.map_append, List.append_assoc]
    exact isBalanced_bodies (fun m hm => (hbodies m hm).2) ['\x7d', ')']
      (wrapperClosing.map Prod.fst)
  refine ⟨documentText style header parts,
    concatenate_eq_ok_iff.mpr ⟨header, parts, hheader, hparts, rfl, hscript⟩, ?_⟩
  rw [tokenContents, tokenize_map_content hhashbang, hdocument.contents]

end

/-- A module that declares metadata. -/
def namedModule : ModuleRecord :=
  { path := ⟨"/m.js".toList⟩, relativePath := "m.js"
    content := "export default \x7b name: 'x' \x7d".toList }

/-- A module whose body would go on with the directive, and with a template over two lines. -/
def regexModule : ModuleRecord :=
  { path := ⟨"/a.js".toList⟩, relativePath := "a.js"
    content := "import 'm.js'\n/a/.test(\x60\n \x60)".toList }

/-- A module whose body would go on with the last statement of another one. -/
def groupModule : ModuleRecord :=
  { path := ⟨"/b.js".toList⟩, relativePath := "b.js", content := "import 'm.js'\n(g)".toList }

/-- The bodies of the two modules. -/
def joinedBody (m : ModuleRecord) : Text :=
  if m.relativePath = "a.js" then ";\n/a/.test(\x60\n \x60)".toList else ";\n(g)".toList

/-- Each body starts with a semicolon, so that the second one does not call what the first one
computes, and the template stays as it is. -/
theorem concatenate_contents_of_regex :
    ∃ document, (concatenate isScript ⟨"m.js", 2⟩ [namedModule, regexModule, groupModule]
        ⟨"1", "main", ⟨"/o.js".toList⟩, ⟨0, false⟩, [], none, none⟩).outcome = .ok document ∧
      tokenContents document = wrapperOpening ++
        [(.punctuator ';', none), (.regex, none), (.punctuator '.', none),
          (.identifier "test", none), (.punctuator '(', none),
          (.template, some "\x60\n \x60".toList), (.punctuator ')', none),
          (.punctuator ';', none), (.punctuator '(', none), (.identifier "g", none),
          (.punctuator ')', none)] ++ wrapperClosing := by
  have hreading : MetadataReading.ofSource namedModule.content =
      ⟨[("name", .scalar "x")], none⟩ := by
    simp only [MetadataReading.ofSource, Cursor.ofSource, tokenize_eq_upTo]
    cbv
  have hfind : [namedModule, regexModule, groupModule].find? (·.relativePath == "m.js") =
      some namedModule := by
    decide
  have hheader : (headerOf ⟨"m.js", 2⟩ [namedModule, regexModule, groupModule]
      ⟨"1", "main", ⟨"/o.js".toList⟩, ⟨0, false⟩, [], none, none⟩).outcome =
        .ok "// ==UserScript==\n// @name        x\n// ==/UserScript==".toList := by
    simp only [headerOf, hfind, hreading]
    cbv
  have hregex : moduleBody regexModule.content = .ok (joinedBody regexModule) := by
    simp only [moduleBody, strip, Interface.read, Cursor.ofSource, tokenize_eq_upTo]
    cbv
  have hgroup : moduleBody groupModule.content = .ok (joinedBody groupModule) := by
    simp only [moduleBody, strip, Interface.read, Cursor.ofSource, tokenize_eq_upTo]
    cbv
  have hregexStands : StandsAlone (joinedBody regexModule) :=
    standsAlone_of_lexemesUpTo
      [⟨[], [';'], .punctuator ';', false⟩, ⟨['\n'], "/a/".toList, .regex, true⟩,
        ⟨[], ['.'], .punctuator '.', false⟩, ⟨[], "test".toList, .identifier "test", false⟩,
        ⟨[], ['('], .punctuator '(', false⟩, ⟨[], "\x60\n \x60".toList, .template, false⟩,
        ⟨[], [')'], .punctuator ')', false⟩] [] (by cbv) (by decide) (by decide) (by cbv) rfl
      (by decide)
  have hgroupStands : StandsAlone (joinedBody groupModule) :=
    standsAlone_of_lexemesUpTo
      [⟨[], [';'], .punctuator ';', false⟩, ⟨['\n'], ['('], .punctuator '(', true⟩,
        ⟨[], ['g'], .identifier "g", false⟩, ⟨[], [')'], .punctuator ')', false⟩] [] (by cbv)
      (by decide) (by decide) (by cbv) rfl (by decide)
  have hemitted : emittedModules ⟨"m.js", 2⟩ [namedModule, regexModule, groupModule] =
      [regexModule, groupModule] := by
    decide
  have hbodies : ∀ m ∈ emittedModules ⟨"m.js", 2⟩ [namedModule, regexModule, groupModule],
      moduleBody m.content = .ok (joinedBody m) ∧ StandsAlone (joinedBody m) := by
    rw [hemitted]
    simp only [List.forall_mem_cons, List.not_mem_nil, false_implies, implies_true, and_true]
    exact ⟨⟨hregex, hregexStands⟩, hgroup, hgroupStands⟩
  obtain ⟨document, hdocument, hcontents⟩ :=
    concatenate_contents joinedBody hheader (by decide) hbodies
  refine ⟨document, hdocument, ?_⟩
  rw [hcontents, hemitted]
  simp only [List.flatMap_cons, List.flatMap_nil, tokenContents, tokenize_eq_upTo]
  cbv

end ScriptBundle
