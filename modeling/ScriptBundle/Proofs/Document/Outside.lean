import ScriptBundle.Proofs.Document.Reached
import ScriptBundle.Proofs.Token.Passed

/-!
# What Stands Outside of the Bodies

Besides the bodies of its modules a document holds a header, the wrapper, and a comment with the
name of each module. The header is made of comments, whatever the metadata are. The name of a module
is no code if it keeps to its line and closes nothing that the modules before it have left open.
Then the tokens outside of the bodies are those of the wrapper.

## Main definitions

* `nameLine`, `textUpTo`: the comment that names a module, and what stands in front of it;
* `StaysComment`: whether a name behind a text is no code;
* `InBody`: the places of a document that belong to a body.

## Main statements

* `starts_around_comment`: no token starts in a line comment that stays one;
* `inBody_of_start`: behind the head of the wrapper tokens start in bodies;
* `wrapper_of_outside`: the tokens of an accepted document that start outside of the bodies.
-/

namespace ScriptBundle

/-! ### Line comments -/

/-- Behind a token that a text leaves open no token starts in a line, if the line does not close the
token. -/
theorem starts_behind_open {state : LexState} {s rest line w : Text} {m : Lexeme}
    (hfirst : lexeme? state s = some (m, rest)) (hkind : m.kind = .unterminated)
    (htemplate : m.text.head? = some '\x60' → '\x60' ∉ line)
    (hclosed : ∀ l ∈ lexemes state (s ++ '\n' :: ([] ++ '\n' :: (line ++ '\n' :: w))),
      l.kind ≠ .unterminated)
    {front behind : List Lexeme} {l : Lexeme}
    (h : lexemes state (s ++ '\n' :: ([] ++ '\n' :: (line ++ '\n' :: w))) = front ++ l :: behind) :
    Text.size (writeLexemes front ++ l.gap) < Text.size s ∨
      Text.size (s ++ '\n' :: '\n' :: line) + 1 ≤ Text.size (writeLexemes front ++ l.gap) := by
  have hempty : ClosesNothing [] := by simp [ClosesNothing]
  obtain ⟨m', rest', hm', hgap, hreach⟩ := lexeme?_open hfirst hkind hempty (line ++ '\n' :: w)
  rw [(lexemes_of_some hm').1] at h hclosed
  obtain ⟨htick, taken, htaken, hlast, hrest'⟩ := hreach.resolve_left (hclosed m' (by simp))
  cases front with
  | nil =>
    obtain ⟨rfl, -⟩ : m' = l ∧ _ = behind := by simpa using h
    left
    rw [hgap]
    exact start_lt ((lexemes_of_some hfirst).1.trans (List.nil_append _).symm)
  | cons first front =>
    -- The template goes on over the line, and the next token comes behind it.
    obtain ⟨rfl, -⟩ : m' = first ∧ _ = front ++ l :: behind := by simpa using h
    have hnone := htemplate htick
    have hlines : taken ++ rest' = '\n' :: '\n' :: (line ++ ['\n']) ++ w := by
      simpa using hrest'
    obtain ⟨more, rfl⟩ := exists_of_getLast? hlines hlast (by simpa using hnone)
    right
    have hsize := congrArg Text.size htaken
    simp only [writeLexemes, List.flatMap_cons, Text.size_append, Text.size_cons,
      List.cons_append, utf8Size_lineFeed, Text.size_nil] at hsize ⊢
    omega

section

variable {state : LexState} {s line w : Text} (hline : ∀ state, Reads state line [])
include hline

/-- Behind trivia no token starts in a line comment, if it does not close a comment that the trivia
have left open. -/
theorem starts_behind_trivia (hnone : lexeme? state s = none)
    (hcomment : leavesCommentOpen s = true → ¬['*', '/'] <:+: line)
    {front behind : List Lexeme} {l : Lexeme}
    (h : lexemes state (s ++ '\n' :: ([] ++ '\n' :: (line ++ '\n' :: w))) = front ++ l :: behind) :
    Text.size (s ++ '\n' :: '\n' :: line) + 1 ≤ Text.size (writeLexemes front ++ l.gap) := by
  obtain ⟨hnil, htrailing⟩ := lexemes_of_none hnone
  by_cases hopen : leavesCommentOpen s = true
  · have hlines : ¬['*', '/'] <:+: '\n' :: line := fun hinside =>
      (List.infix_cons_iff.mp hinside).elim (by simp) (hcomment hopen)
    obtain ⟨more, hmore⟩ := scanTrivia_reaches (scanTrivia_rest_of_none hnone) hopen hlines w
    obtain ⟨m, ms, hm⟩ : ∃ m ms, m :: ms = front ++ l :: behind := by
      cases front with
      | nil => exact ⟨l, behind, rfl⟩
      | cons m front => exact ⟨m, front ++ l :: behind, rfl⟩
    obtain ⟨rest, hfound, -⟩ := lexeme?_of_lexemes_cons (h.trans hm.symm)
    have hle := size_gap_le hm
    rw [← (exists_lexeme?_iff.mp ⟨m, rest, hfound, rfl⟩).2, List.nil_append, ← List.cons_append,
      hmore] at hle
    simp only [Text.size_append, Text.size_cons, List.cons_append, utf8Size_lineFeed] at hle ⊢
    omega
  · have hs : Reads state s [] :=
      ⟨⟨by simp [hnil], by rw [htrailing]; simpa using hopen⟩, by simp [hnil]⟩
    have hreads : Reads state (s ++ '\n' :: ([] ++ '\n' :: line)) [] :=
      hs.append ((Reads.nil _).append (hline _))
    have hsplit : s ++ '\n' :: ([] ++ '\n' :: (line ++ '\n' :: w)) =
        s ++ '\n' :: ([] ++ '\n' :: line) ++ '\n' :: w := by
      simp
    rw [hsplit] at h
    refine (start_cases hreads.ends h).resolve_left ?_
    rintro ⟨others, hothers⟩
    have hcontents := hreads.contents
    rw [List.nil_append] at hothers hcontents
    simp [hothers] at hcontents

/-- **No token starts in a line comment** behind an empty line, if the comment does not close what
is open in front of it. -/
theorem starts_around_comment
    (hcomment : leavesCommentOpen (trailingTrivia state s) = true → ¬['*', '/'] <:+: line)
    (htemplate : ∀ l ∈ lexemes state s, l.kind = .unterminated → l.text.head? = some '\x60' →
      '\x60' ∉ line)
    (hclosed : ∀ l ∈ lexemes state (s ++ '\n' :: ([] ++ '\n' :: (line ++ '\n' :: w))),
      l.kind ≠ .unterminated)
    {front behind : List Lexeme} {l : Lexeme}
    (h : lexemes state (s ++ '\n' :: ([] ++ '\n' :: (line ++ '\n' :: w))) = front ++ l :: behind) :
    Text.size (writeLexemes front ++ l.gap) < Text.size s ∨
      Text.size (s ++ '\n' :: '\n' :: line) + 1 ≤ Text.size (writeLexemes front ++ l.gap) := by
  induction hlength : s.length using Nat.strongRecOn generalizing state s front with
  | _ n ih =>
    cases hfirst : lexeme? state s with
    | none =>
      rw [(lexemes_of_none hfirst).2] at hcomment
      exact .inr (starts_behind_trivia hline hfirst hcomment h)
    | some found =>
      obtain ⟨m, rest⟩ := found
      obtain ⟨hlexemes, htrailing⟩ := lexemes_of_some hfirst
      by_cases hkind : m.kind = .unterminated
      · exact starts_behind_open hfirst hkind (htemplate m (by simp [hlexemes]) hkind) hclosed h
      · rw [(lexemes_of_some (lexeme?_append hfirst hkind _)).1] at h hclosed
        cases front with
        | nil =>
          obtain ⟨rfl, -⟩ : m = l ∧ _ = behind := by simpa using h
          exact .inl (start_lt (hlexemes.trans (List.nil_append _).symm))
        | cons first front =>
          obtain ⟨rfl, hothers⟩ : m = first ∧ lexemes (state.next m.kind)
              (rest ++ '\n' :: ([] ++ '\n' :: (line ++ '\n' :: w))) = front ++ l :: behind := by
            simpa using h
          have hsize := congrArg Text.size (lexeme?_gap_append_text hfirst)
          have hrest := ih rest.length (hlength ▸ lexeme?_length hfirst)
            (fun hopen => hcomment (htrailing ▸ hopen))
            (fun l hl => htemplate l (by simp [hlexemes, hl]))
            (fun l hl => hclosed l (List.mem_cons_of_mem _ hl)) hothers rfl
          simp only [writeLexemes, List.flatMap_cons, Text.size_append, Text.size_cons]
            at hsize hrest ⊢
          omega

end

/-! ### The parts of a document -/

/-- The comment that names a module. -/
def nameLine (style : DocumentStyle) (m : ModuleRecord) : Text :=
  style.indent ++ ['/', '/', ' '] ++ m.relativePath.toList

/-- A document up to the parts of some of its modules, `parts` being those of all before them. -/
def textUpTo (style : DocumentStyle) (header : Text) (parts : List Text) : Text :=
  Text.joinLines ([header, [], wrapperOpen, style.indent ++ strictDirective] ++ parts)

/-- Whether a name that is put into a comment behind a text **stays a comment**: it keeps to its
line, and holds nothing that would close a comment or a template which the text leaves open. -/
structure StaysComment (front name : Text) : Prop where
  line : '\n' ∉ name
  comment : leavesCommentOpen (trailingTrivia .initial front) = true → ¬['*', '/'] <:+: name
  template : ∀ l ∈ lexemes .initial front, l.kind = .unterminated → l.text.head? = some '\x60' →
    '\x60' ∉ name

/-- A name without line feeds, asterisks and backquotes stays a comment behind every text. -/
theorem StaysComment.of_plain {front name : Text}
    (h : ∀ c ∈ name, c ≠ '\n' ∧ c ≠ '*' ∧ c ≠ '\x60') : StaysComment front name where
  line := fun hmem => (h _ hmem).1 rfl
  comment := fun _ hinside => (h '*' (hinside.subset (by simp))).2.1 rfl
  template := fun _ _ _ _ hmem => (h _ hmem).2.2 rfl

/-- Whether an offset of a document lies **in the body** of a module. -/
def InBody (style : DocumentStyle) (header : Text) (modules : List ModuleRecord) (offset : Nat) :
    Prop :=
  ∃ earlier m later front body, modules = earlier ++ m :: later ∧
    allModuleParts style earlier = .ok front ∧ moduleBody m.content = .ok body ∧
    Text.size (textBefore style header front m) < offset ∧
    offset ≤ Text.size (textBefore style header front m) + Text.size (indentBody style.indent body)

variable {style : DocumentStyle} {modules earlier later : List ModuleRecord} {m : ModuleRecord}

/-- Parts stand on lines of their own behind those before them. -/
theorem textUpTo_append (style : DocumentStyle) (header : Text) (front behind : List Text) :
    textUpTo style header (front ++ behind) =
      textUpTo style header front ++ behind.flatMap ('\n' :: ·) := by
  have hlines : ∀ parts, textUpTo style header parts =
      header ++ ([[], wrapperOpen, style.indent ++ strictDirective] ++ parts).flatMap ('\n' :: ·) :=
    fun parts => joinLines_cons header _
  rw [hlines, hlines, ← List.append_assoc, List.flatMap_append, List.append_assoc]

/-- In front of the body of a module stands the comment with its name, behind an empty line. -/
theorem textBefore_eq (style : DocumentStyle) (header : Text) (parts : List Text)
    (m : ModuleRecord) : textBefore style header parts m =
      textUpTo style header parts ++ '\n' :: '\n' :: nameLine style m := by
  have hlines : textBefore style header parts m =
      textUpTo style header (parts ++ [[], nameLine style m]) := by
    rw [textBefore, textUpTo, nameLine, List.append_assoc]
  rw [hlines, textUpTo_append]
  simp

/-- Behind the parts of a document comes the end of the wrapper. -/
theorem documentText_eq (style : DocumentStyle) (header : Text) (parts : List Text) :
    documentText style header parts =
      textUpTo style header parts ++ '\n' :: (wrapperClose ++ ['\n']) := by
  have hlines : documentText style header parts =
      textUpTo style header (parts ++ [wrapperClose]) ++ ['\n'] := by
    rw [documentText, textUpTo, List.append_assoc]
  rw [hlines, textUpTo_append]
  simp

/-- The parts of a module are its name and its body, and the other parts come behind. -/
theorem allModuleParts_cons {parts : List Text}
    (h : allModuleParts style (m :: later) = .ok parts) :
    ∃ body others, moduleBody m.content = .ok body ∧ allModuleParts style later = .ok others ∧
      parts = [[], nameLine style m] ++ (if body.isEmpty then [] else
        [indentBody style.indent body]) ++ others := by
  rw [allModuleParts, moduleParts] at h
  cases hbody : moduleBody m.content with
  | error e => simp [hbody] at h
  | ok body =>
    simp only [hbody] at h
    obtain ⟨others, hothers, rfl⟩ := map_eq_ok_iff.mp h
    exact ⟨body, others, rfl, hothers, rfl⟩

/-- The parts of a module come behind those of the modules before it. -/
theorem allModuleParts_snoc {front : List Text} {body : Text}
    (hfront : allModuleParts style earlier = .ok front) (hbody : moduleBody m.content = .ok body) :
    allModuleParts style (earlier ++ [m]) = .ok (front ++ ([[], nameLine style m] ++
      (if body.isEmpty then [] else [indentBody style.indent body]))) := by
  induction earlier generalizing front with
  | nil =>
    obtain rfl : [] = front := by simpa [allModuleParts] using hfront
    simp [allModuleParts, moduleParts, hbody, nameLine, Except.map]
  | cons first earlier ih =>
    rw [allModuleParts] at hfront
    rw [List.cons_append, allModuleParts]
    cases hown : moduleParts style first with
    | error e => simp [hown] at hfront
    | ok own =>
      simp only [hown] at hfront
      obtain ⟨others, hothers, rfl⟩ := map_eq_ok_iff.mp hfront
      simp only [ih hothers, Except.map, List.append_assoc]

/-- The name of a module stands in a document between line feeds, behind an empty line. -/
theorem documentText_name (style : DocumentStyle) (header : Text) (front others : List Text)
    (m : ModuleRecord) :
    ∃ w, documentText style header (front ++ ([[], nameLine style m] ++ others)) =
      textUpTo style header front ++ '\n' :: ([] ++ '\n' :: (nameLine style m ++ '\n' :: w)) := by
  refine ⟨Text.joinLines (others ++ [wrapperClose]) ++ ['\n'], ?_⟩
  have hlines : documentText style header (front ++ ([[], nameLine style m] ++ others)) =
      textUpTo style header (front ++ ([[], nameLine style m] ++ (others ++ [wrapperClose]))) ++
        ['\n'] := by
    simp [documentText, textUpTo]
  have hothers := lineFeed_joinLines (List.append_ne_nil_of_right_ne_nil others
    (List.cons_ne_nil wrapperClose []))
  rw [hlines, textUpTo_append, List.flatMap_append, ← hothers]
  simp

/-- Where the parts of a module end in a document. -/
theorem size_textUpTo_module (style : DocumentStyle) (header : Text) (parts : List Text)
    (m : ModuleRecord) (body : Text) :
    Text.size (textUpTo style header (parts ++ ([[], nameLine style m] ++
        (if body.isEmpty then [] else [indentBody style.indent body])))) =
      Text.size (textBefore style header parts m) +
        if body.isEmpty then 0 else 1 + Text.size (indentBody style.indent body) := by
  rw [textBefore_eq, textUpTo_append]
  split
  · simp
  · simp [utf8Size_lineFeed]
    omega

/-! ### Tokens in bodies -/

/-- What starts with a character that is not in a text stands behind that text. -/
theorem infix_of_not_mem {front behind inside : Text} {c : Char} (hc : c ∉ front)
    (h : c :: inside <:+: front ++ behind) : c :: inside <:+: behind := by
  obtain ⟨before, after, h⟩ := h
  rw [List.append_assoc] at h
  rcases List.append_eq_append_iff.mp h with ⟨middle, rfl, hbehind⟩ | ⟨middle, -, rfl⟩
  · cases middle with
    | nil => exact ⟨[], after, by simpa using hbehind⟩
    | cons d middle =>
      obtain ⟨rfl, -⟩ : c = d ∧ inside ++ after = middle ++ behind := by simpa using hbehind
      simp at hc
  · exact ⟨middle, after, by simp⟩

/-- The name of a module is no code if it stays a comment. -/
theorem StaysComment.nameLine {front : Text} (h : StaysComment front m.relativePath.toList)
    (style : DocumentStyle) :
    (∀ state, Reads state (nameLine style m) []) ∧
      (leavesCommentOpen (trailingTrivia .initial front) = true →
        ¬['*', '/'] <:+: ScriptBundle.nameLine style m) ∧
      (∀ l ∈ lexemes .initial front, l.kind = .unterminated → l.text.head? = some '\x60' →
        '\x60' ∉ ScriptBundle.nameLine style m) := by
  obtain ⟨hblank, -⟩ := isBlankText_indent style
  have hspaces : ∀ c ∈ style.indent, c = ' ' := fun c hc => List.eq_of_mem_replicate hc
  refine ⟨fun state => ?_, fun hopen hinside => h.comment hopen ?_, fun l hl hkind hhead hmem => ?_⟩
  · rw [ScriptBundle.nameLine, List.append_assoc]
    refine .of_blank hblank (reads_comment state ?_)
    simpa using h.line
  · refine infix_of_not_mem (fun hmem => ?_) hinside
    rcases List.mem_append.mp hmem with hmem | hmem
    · exact absurd (hspaces _ hmem) (by decide)
    · simp at hmem
  · refine h.template l hl hkind hhead ?_
    rw [ScriptBundle.nameLine] at hmem
    rcases List.mem_append.mp hmem with hmem | hmem
    · rcases List.mem_append.mp hmem with hmem | hmem
      · exact absurd (hspaces _ hmem) (by decide)
      · simp at hmem
    · exact hmem

/-- Behind the head of the wrapper and in front of its end, tokens start in bodies. -/
theorem inBody_of_start {header : Text} {parts front : List Text}
    (hparts : allModuleParts style modules = .ok parts)
    (hclosed : ∀ l ∈ lexemes .initial (documentText style header parts), l.kind ≠ .unterminated)
    (hnames : ∀ earlier m later front, modules = earlier ++ m :: later →
      allModuleParts style earlier = .ok front →
      StaysComment (textUpTo style header front) m.relativePath.toList)
    {ls others : List Lexeme} {l : Lexeme}
    (hls : lexemes .initial (documentText style header parts) = ls ++ l :: others)
    (hend : Text.size (writeLexemes ls ++ l.gap) < Text.size (textUpTo style header parts))
    (hsplit : modules = earlier ++ later) (hfront : allModuleParts style earlier = .ok front)
    (hstart : Text.size (textUpTo style header front) ≤ Text.size (writeLexemes ls ++ l.gap)) :
    InBody style header modules (Text.size (writeLexemes ls ++ l.gap)) := by
  induction later generalizing earlier front with
  | nil =>
    rw [List.append_nil] at hsplit
    obtain rfl : parts = front := by simpa [hsplit, hfront] using hparts.symm
    omega
  | cons m later ih =>
    obtain ⟨front', behind, hfront', hbehind, rfl⟩ := allModuleParts_append (hsplit ▸ hparts)
    obtain rfl : front = front' := by simpa [hfront] using hfront'
    obtain ⟨body, rest, hbody, hrest, rfl⟩ := allModuleParts_cons hbehind
    obtain ⟨hline, hcomment, htemplate⟩ := (hnames _ _ _ _ hsplit hfront).nameLine style
    obtain ⟨w, hdocument⟩ := documentText_name style header front
      ((if body.isEmpty then [] else [indentBody style.indent body]) ++ rest) m
    rw [← List.append_assoc [[], nameLine style m]] at hdocument
    rw [hdocument] at hclosed hls
    have hbehind := (starts_around_comment hline hcomment htemplate hclosed hls).resolve_left
      (by omega)
    rw [← textBefore_eq] at hbehind
    have hnext := allModuleParts_snoc hfront hbody
    have hsize := size_textUpTo_module style header front m body
    rcases Nat.lt_or_ge (Text.size (writeLexemes ls ++ l.gap)) (Text.size (textUpTo style header
      (front ++ ([[], nameLine style m] ++
        (if body.isEmpty then [] else [indentBody style.indent body]))))) with hlt | hge
    · refine ⟨earlier, m, later, front, body, hsplit, hfront, hbody, hbehind, ?_⟩
      rw [hsize] at hlt
      split at hlt <;> omega
    · exact ih (by simpa using hsplit) hnext hge

/-- Bodies stand behind the head of the wrapper and in front of its end. -/
theorem InBody.bounds {header : Text} {parts : List Text} {offset : Nat}
    (h : InBody style header modules offset) (hparts : allModuleParts style modules = .ok parts) :
    Text.size (textUpTo style header []) ≤ offset ∧
      offset ≤ Text.size (textUpTo style header parts) := by
  obtain ⟨earlier, m, later, front, body, rfl, hfront, hbody, hstart, hend⟩ := h
  obtain ⟨front', behind, hfront', hbehind, rfl⟩ := allModuleParts_append hparts
  obtain rfl : front = front' := by simpa [hfront] using hfront'
  obtain ⟨body', rest, hbody', -, rfl⟩ := allModuleParts_cons hbehind
  obtain rfl : body = body' := by simpa [hbody] using hbody'
  have hsize := size_textUpTo_module style header front m body
  have hopening := congrArg Text.size (textUpTo_append style header [] front)
  have hclosing := congrArg Text.size
    (textUpTo_append style header (front ++ ([[], nameLine style m] ++
      (if body.isEmpty then [] else [indentBody style.indent body]))) rest)
  rw [List.nil_append, Text.size_append] at hopening
  rw [Text.size_append, hsize] at hclosing
  rw [textBefore_eq] at hstart hend hclosing
  rw [← List.append_assoc front, hclosing]
  simp only [Text.size_append] at hstart hend ⊢
  refine ⟨by omega, ?_⟩
  split
  · next hempty =>
    rw [List.isEmpty_iff.mp hempty] at hend
    rw [indentBody_nil, Text.size_nil] at hend
    omega
  · omega

/-! ### Tokens of the wrapper -/

/-- Tokens are placed one list behind the other. -/
theorem place_append (offset : Nat) (front behind : List Lexeme) :
    Token.place offset (front ++ behind) = Token.place offset front ++
      Token.place (offset + Text.size (writeLexemes front)) behind := by
  induction front generalizing offset with
  | nil => simp [Token.place, writeLexemes]
  | cons l front ih =>
    rw [List.cons_append, Token.place, Token.place, ih, List.cons_append]
    simp only [writeLexemes, List.flatMap_cons, Text.size_append, Nat.add_assoc]

/-- Placing tokens does not change what they are. -/
theorem map_content_place (offset : Nat) (ls : List Lexeme) :
    (Token.place offset ls).map (·.content) = ls.map Lexeme.content := by
  have hplaced := congrArg (List.map Lexeme.content) (Token.place_map_toLexeme offset ls)
  rwa [List.map_map] at hplaced

/-- The end of the wrapper is read as such unless a comment is open in front of it. -/
theorem lexemes_wrapperClose {s : Text}
    (hclosed : ∀ l ∈ lexemes .initial (s ++ '\n' :: (wrapperClose ++ ['\n'])),
      l.kind ≠ .unterminated) :
    ∃ ls, lexemes .initial (s ++ '\n' :: (wrapperClose ++ ['\n'])) = lexemes .initial s ++ ls ∧
      ls.map Lexeme.content =
        (if leavesCommentOpen (trailingTrivia .initial s) then [] else wrapperClosing) ∧
      ∀ front l behind, ls = front ++ l :: behind →
        Text.size s < Text.size (writeLexemes (lexemes .initial s ++ front) ++ l.gap) := by
  have hliterals : ∀ l ∈ lexemes .initial s, l.kind ≠ .unterminated := by
    intro l hl hkind
    have hcloses : ClosesNothing wrapperClose := by simp [ClosesNothing, wrapperClose]
    have htick : '\x60' ∉ '\n' :: (wrapperClose ++ '\n' :: []) := by decide
    obtain ⟨m, hm, hmkind⟩ := exists_unterminated_behind hcloses htick ⟨l, hl, hkind⟩
    exact hclosed m hm hmkind
  cases hopen : leavesCommentOpen (trailingTrivia .initial s) with
  | true =>
    refine ⟨[], ?_, rfl, by simp⟩
    rw [lexemes_of_open hliterals hopen (by decide), List.append_nil]
  | false =>
    have hends : EndsCleanly .initial s := ⟨hliterals, hopen⟩
    refine ⟨_, lexemes_append hends _, ?_, ?_⟩
    · rw [map_behindLine fun _ _ => rfl]
      have hreads := (reads_wrapperClose
        (LexState.initial.behind ((lexemes .initial s).map Lexeme.kind))).append (Reads.nil _)
      simpa using hreads.contents
    · intro front l behind hls
      exact start_behind hends (hls ▸ lexemes_append hends _)

/-- The head of the wrapper is read as such, whatever parts stand behind it. -/
theorem lexemes_wrapperOpen {context : BuildContext} {header : Text}
    (hheader : (headerOf style modules context).outcome = .ok header) (parts : List Text) :
    ∃ opening inner, lexemes .initial (textUpTo style header parts) = opening ++ inner ∧
      opening.map Lexeme.content = wrapperOpening ∧
      (∀ front l behind, opening = front ++ l :: behind →
        Text.size (writeLexemes front ++ l.gap) < Text.size (textUpTo style header [])) ∧
      ∀ front l behind, inner = front ++ l :: behind →
        Text.size (textUpTo style header []) <
          Text.size (writeLexemes (opening ++ front) ++ l.gap) := by
  have hreads : Reads .initial (textUpTo style header []) wrapperOpening :=
    (readsLines_opening hheader).joinLines
  have hopening : ∀ front l behind,
      lexemes .initial (textUpTo style header []) = front ++ l :: behind →
      Text.size (writeLexemes front ++ l.gap) < Text.size (textUpTo style header []) :=
    fun _ _ _ hls => start_lt hls
  have happend := textUpTo_append style header [] parts
  rw [List.nil_append] at happend
  cases parts with
  | nil => exact ⟨_, [], (List.append_nil _).symm, hreads.contents, hopening, by simp⟩
  | cons part parts =>
    rw [List.flatMap_cons, List.cons_append] at happend
    rw [happend]
    refine ⟨_, _, lexemes_append hreads.ends _, hreads.contents, hopening, ?_⟩
    intro front l behind hls
    exact start_behind hreads.ends (hls ▸ lexemes_append hreads.ends _)

/-! ### Documents -/

/-- **Only bodies contribute code.** In an accepted document, if the names of all modules stay
comments, then each token starts in the body of a module or is one of the wrapper, whose end is
there unless a comment is open in front of it. -/
theorem outside_of_concatenate {accepts : Text → Bool} (haccepts : RefusesUnterminated accepts)
    {context : BuildContext} {header document : Text}
    (hdocument : (concatenate accepts style modules context).outcome = .ok document)
    (hheader : (headerOf style modules context).outcome = .ok header)
    (hnames : ∀ earlier m later front, emittedModules style modules = earlier ++ m :: later →
      allModuleParts style earlier = .ok front →
      StaysComment (textUpTo style header front) m.relativePath.toList) :
    ∃ parts opening inner closing,
      allModuleParts style (emittedModules style modules) = .ok parts ∧
      tokenize document = opening ++ inner ++ closing ∧
      (∀ t ∈ inner, InBody style header (emittedModules style modules) t.start) ∧
      (∀ t ∈ opening ++ closing, ¬InBody style header (emittedModules style modules) t.start) ∧
      opening.map (·.content) = wrapperOpening ∧
      closing.map (·.content) =
        if leavesCommentOpen (trailingTrivia .initial (textUpTo style header parts)) then []
        else wrapperClosing := by
  obtain ⟨header', parts, hheader', hparts, rfl, hscript⟩ := concatenate_eq_ok_iff.mp hdocument
  obtain rfl : header = header' := by simpa [hheader] using hheader'
  have hhashbang := hashbang_documentText hheader parts
  have hclosed := haccepts.closed hhashbang hscript
  obtain ⟨opening, inner, hfront, hopening, hopeningStart, hinnerStart⟩ :=
    lexemes_wrapperOpen hheader parts
  obtain ⟨closing, hwhole, hclosing, hclosingStart⟩ :=
    lexemes_wrapperClose (documentText_eq style header parts ▸ hclosed)
  rw [← documentText_eq, hfront] at hwhole
  refine ⟨parts, Token.place 0 opening, Token.place (Text.size (writeLexemes opening)) inner,
    Token.place (Text.size (writeLexemes (opening ++ inner))) closing, hparts, ?_, ?_, ?_, ?_, ?_⟩
  · rw [tokenize_of_hashbang hhashbang, hwhole, place_append, place_append, Nat.zero_add,
      Nat.zero_add]
  · intro t ht
    obtain ⟨front, behind, rfl, hstart⟩ := mem_place_iff.mp ht
    have hplace : t.start = Text.size (writeLexemes (opening ++ front) ++ t.gap) := by
      rw [hstart]
      simp [writeLexemes]
    rw [hplace]
    have hls : lexemes .initial (documentText style header parts) =
        (opening ++ front) ++ t.toLexeme :: (behind ++ closing) := by
      rw [hwhole]
      simp
    have hin := start_lt (l := t.toLexeme) (hfront.trans (List.append_assoc ..).symm)
    exact inBody_of_start hparts hclosed hnames hls hin (List.nil_append _).symm rfl
      (Nat.le_of_lt (hinnerStart front _ behind rfl))
  · intro t ht hbody
    obtain ⟨hlower, hupper⟩ := hbody.bounds hparts
    rcases List.mem_append.mp ht with ht | ht
    · obtain ⟨front, behind, rfl, hstart⟩ := mem_place_iff.mp ht
      have hlt := hopeningStart front _ behind rfl
      omega
    · obtain ⟨front, behind, rfl, hstart⟩ := mem_place_iff.mp ht
      have hlt := hclosingStart front _ behind rfl
      rw [hfront] at hlt
      simp only [writeLexemes, List.flatMap_append, Text.size_append] at hstart hlt
      omega
  · rw [map_content_place, hopening]
  · rw [map_content_place, hclosing]

/-- The tokens outside of the bodies, if the first of three modules leaves a comment open that goes
on over the names of the others. -/
theorem outside_of_concatenate_of_hiding :
    ∃ document opening inner closing,
      (concatenate isScript ⟨"m.js", 1⟩ hidingModules plainContext).outcome = .ok document ∧
      tokenize document = opening ++ inner ++ closing ∧
      (∀ t ∈ inner, InBody ⟨"m.js", 1⟩ plainHeader
        (emittedModules ⟨"m.js", 1⟩ hidingModules) t.start) ∧
      opening.map (·.content) = wrapperOpening ∧ closing.map (·.content) = wrapperClosing := by
  have hemitted : emittedModules ⟨"m.js", 1⟩ hidingModules =
      [openModule, hiddenModule, closingModule] := by
    decide
  have hdocument := concatenate_eq_ok_iff.mpr ⟨_, _, headerOf_hidingModules,
    hemitted ▸ allModuleParts_hidingModules, rfl, isScript_hidingParts⟩
  have hnames : ∀ m ∈ [openModule, hiddenModule, closingModule],
      ∀ c ∈ m.relativePath.toList, c ≠ '\n' ∧ c ≠ '*' ∧ c ≠ '\x60' := by
    simp [openModule, hiddenModule, closingModule]
  obtain ⟨parts, opening, inner, closing, hparts, htokens, hinner, -, hopening, hclosing⟩ :=
    outside_of_concatenate refusesUnterminated_isScript hdocument headerOf_hidingModules
      fun earlier m later front hsplit _ => .of_plain (hnames m (by rw [← hemitted, hsplit]; simp))
  refine ⟨_, opening, inner, closing, hdocument, htokens, hinner, hopening, ?_⟩
  obtain rfl : hidingParts = parts := by simpa [hemitted, allModuleParts_hidingModules] using hparts
  have hopen : leavesCommentOpen (lexemesUpTo
      (textUpTo ⟨"m.js", 1⟩ plainHeader hidingParts).length .initial
      (textUpTo ⟨"m.js", 1⟩ plainHeader hidingParts)).2 = false := by
    cbv
  rw [lexemesUpTo_eq (Nat.le_refl _)] at hopen
  rw [hclosing, if_neg (by simpa using hopen)]

end ScriptBundle
