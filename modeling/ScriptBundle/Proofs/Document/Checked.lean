import ScriptBundle.Document.Body
import ScriptBundle.Metadata.Reader
import ScriptBundle.Proofs.Module.Edits
import ScriptBundle.Proofs.Module.Operands
import ScriptBundle.Proofs.Text.Position
import ScriptBundle.Proofs.Token.Tiling

/-!
# Checked Reading

Parts of a source are taken out of it by their offsets, and brackets are counted up and down. Each
of these is compared here with a form that fails where there is no such part, or where a count of
zero is to be counted down. None of them ever fails, whatever the source is like: offsets are those
of tokens, edits are in order, and where a bracket closes that is not open, either the reader stops
in front of it or the count is left alone.

## Main definitions

* `countDown?`, `depthAfter?`, `behindCode?`: counts that fail below zero;
* `skipBalanced?`, `skipInitialiser?`: readers that count so;
* `interfaceFrom?`, `seekObject?`: readers that count so outside of statements;
* `applyEdits?`, `strip?`, `moduleBody?`: edits by slices of the whole source;
* `ReadsSafely`: whether nothing of this fails for a source.

## Main statements

* `skipBalanced?_eq`, `skipExpression?_eq`: no bracket is counted down that is not open;
* `interfaceFrom?_eq`, `seekObject?_eq`: nor is one outside of statements;
* `allOpen_of_templateMoves`: each substitution that a template's scanner is in has its brace open;
* `applyEdits?_eq`: edits in order take slices that are there;
* `readsSafely`: all of it, for every source.
-/

namespace ScriptBundle

/-! ### Counted brackets -/

/-- Counts down. There is nothing below zero. -/
def countDown? : Nat → Option Nat
  | 0 => none
  | n + 1 => some n

/-- The number of brackets open behind a token, where a bracket that closes must be open. -/
def depthAfter? (depth : Nat) (kind : TokenKind) : Option Nat :=
  if kind.isOpening then some (depth + 1)
  else if kind.isClosing then countDown? depth
  else some depth

theorem countDown?_of_pos {n : Nat} (h : 0 < n) : countDown? n = some (n - 1) := by
  cases n with
  | zero => exact absurd h (Nat.lt_irrefl 0)
  | succ n => rfl

/-- A count is as it is checked if a bracket is open or none closes. -/
theorem depthAfter?_eq {depth : Nat} {kind : TokenKind} (h : 0 < depth ∨ kind.isClosing = false) :
    depthAfter? depth kind = some (depthAfter depth kind) := by
  unfold depthAfter? depthAfter
  split
  · rfl
  · split
    · next hclosing =>
      have hpos : 0 < depth := h.resolve_right (by simp [hclosing])
      exact countDown?_of_pos hpos
    · rfl

/-- Passes tokens as `skipBalanced` does, with a checked count. -/
def skipBalanced? (depth : Nat) (previous : Option Token) : List Token → Option Cursor
  | [] => some ⟨previous, []⟩
  | t :: rest => do
    let inside ← depthAfter? depth t.kind
    if inside = 0 then return ⟨some t, rest⟩ else skipBalanced? inside (some t) rest

/-- Passes an expression as `skipExpression` does, with a checked count. -/
def skipExpression? (inStatement : Bool) (depth : Nat) (previous : Option Token) :
    List Token → Option Cursor
  | [] => some ⟨previous, []⟩
  | t :: rest =>
    if depth = 0 ∧ endsBefore inStatement previous t then some ⟨previous, t :: rest⟩
    else do
      let inside ← depthAfter? depth t.kind
      skipExpression? inStatement inside (some t) rest

/-- Passes an initialiser as `skipInitialiser` does, with a checked count. -/
def skipInitialiser? (inStatement : Bool) (c : Cursor) : Option Cursor :=
  match c.eatPunctuator '=' with
  | some a => skipExpression? inStatement 0 a.cursor.previous a.cursor.rest
  | none => some c

/-- Inside of a bracket the count is positive, and it is over when it comes to zero. -/
theorem skipBalanced?_eq {depth : Nat} (h : 0 < depth) (previous : Option Token) (ts : List Token) :
    skipBalanced? depth previous ts = some (skipBalanced depth previous ts) := by
  fun_induction skipBalanced depth previous ts with
  | case1 => rfl
  | case2 depth previous t rest inside hinside =>
    rw [skipBalanced?, depthAfter?_eq (.inl h), Option.bind_eq_bind, Option.bind_some,
      if_pos hinside]
    rfl
  | case3 depth previous t rest inside hinside ih =>
    rw [skipBalanced?, depthAfter?_eq (.inl h), Option.bind_eq_bind, Option.bind_some,
      if_neg hinside, ih (Nat.pos_of_ne_zero hinside)]

/-- An expression **ends in front of** a bracket that closes and is not open. -/
theorem skipExpression?_eq (inStatement : Bool) (depth : Nat) (previous : Option Token)
    (ts : List Token) : skipExpression? inStatement depth previous ts =
      some (skipExpression inStatement depth previous ts) := by
  fun_induction skipExpression inStatement depth previous ts with
  | case1 => rfl
  | case2 depth previous t rest hends => rw [skipExpression?, if_pos hends]
  | case3 depth previous t rest hends ih =>
    have hopen : 0 < depth ∨ t.kind.isClosing = false := by
      rcases Nat.eq_zero_or_pos depth with hzero | hpos
      · refine .inr (Bool.eq_false_iff.mpr fun hclosing => hends ⟨hzero, ?_⟩)
        simp [endsBefore, hclosing]
      · exact .inl hpos
    rw [skipExpression?, if_neg hends, depthAfter?_eq hopen, Option.bind_eq_bind, Option.bind_some,
      ih]

theorem skipInitialiser?_eq (inStatement : Bool) (c : Cursor) :
    skipInitialiser? inStatement c = some (skipInitialiser inStatement c) := by
  rw [skipInitialiser?, skipInitialiser]
  cases c.eatPunctuator '=' with
  | some a => exact skipExpression?_eq _ _ _ _
  | none => rfl

/-! ### Counts outside of statements -/

/-- The number of brackets open behind a token outside of statements, where a bracket that closes
and is not open is **not counted**. -/
def depthOutside? (depth : Nat) (kind : TokenKind) : Option Nat :=
  if depth = 0 ∧ kind.isClosing then some 0 else depthAfter? depth kind

/-- Reads what tokens declare as `interfaceFrom` does, with a checked count. -/
def interfaceFrom? (depth : Nat) (c : Cursor) : Option (Except SyntaxError Interface) :=
  match moduleStatement depth c with
  | .error e => some (.error e)
  | .ok (some statement) =>
    have := statement.shorter
    (interfaceFrom? depth statement.cursor).map (Except.map (statement.value ++ ·))
  | .ok none =>
    match c.bump with
    | none => some (.ok .empty)
    | some a =>
      have := a.shorter
      (depthOutside? depth a.value.kind).bind fun inside => interfaceFrom? inside a.cursor
termination_by c.rest.length

/-- Looks for the exported object as `seekObject` does, with a checked count. -/
def seekObject? (depth : Nat) (notObject : Option Nat) (c : Cursor) :
    Option (Except SyntaxError Cursor) :=
  match c.bump with
  | none =>
    match notObject with
    | some offset => some (.error ⟨.metadataNotObject, offset⟩)
    | none => some (.error ⟨.metadataNotFound, 0⟩)
  | some a =>
    have := a.shorter
    if depth = 0 ∧ a.value.isName "export" then
      let found := exportedValue a.cursor
      have := exportedValue_length a.cursor
      if found.1 then
        if found.2.atPunctuator '\x7b' then some (.ok found.2)
        else seekObject? 0 (notObject <|> some found.2.offset) found.2
      else seekObject? 0 notObject found.2
    else
      (depthOutside? depth a.value.kind).bind fun inside => seekObject? inside notObject a.cursor
termination_by c.rest.length

/-- A count outside of statements is as it is checked, and stays at zero where nothing is open. -/
theorem depthOutside?_eq (depth : Nat) (kind : TokenKind) :
    depthOutside? depth kind = some (depthAfter depth kind) := by
  rw [depthOutside?]
  split
  · next hunopened =>
    obtain ⟨rfl, hclosing⟩ := hunopened
    obtain ⟨closing, rfl, hcases⟩ := TokenKind.eq_of_isClosing hclosing
    rcases hcases with rfl | rfl | rfl <;> rfl
  · next hopen =>
    refine depthAfter?_eq ?_
    rcases Nat.eq_zero_or_pos depth with hzero | hpos
    · exact .inr (Bool.eq_false_iff.mpr fun hclosing => hopen ⟨hzero, hclosing⟩)
    · exact .inl hpos

/-- The reader of modules counts no bracket down that is not open. -/
theorem interfaceFrom?_eq (depth : Nat) (c : Cursor) :
    interfaceFrom? depth c = some (interfaceFrom depth c) := by
  fun_induction interfaceFrom depth c with
  | case1 depth c e hstatement => rw [interfaceFrom?, hstatement]
  | case2 depth c statement hstatement _ ih =>
    rw [interfaceFrom?, hstatement]
    simp only [ih, Option.map_some]
  | case3 depth c hstatement hbump =>
    rw [interfaceFrom?, hstatement]
    simp only [hbump]
  | case4 depth c hstatement a hbump _ ih =>
    rw [interfaceFrom?, hstatement]
    simp only [hbump, depthOutside?_eq, Option.bind_some, ih]

/-- The search for the metadata counts no bracket down that is not open. -/
theorem seekObject?_eq (depth : Nat) (notObject : Option Nat) (c : Cursor) :
    seekObject? depth notObject c = some (seekObject depth notObject c) := by
  fun_induction seekObject depth notObject c with
  | case1 depth c hbump => simp [seekObject?, hbump]
  | case2 depth c hbump => simp [seekObject?, hbump]
  | case3 depth notObject c word hbump _ hexport found _ hvalue hobject =>
    unfold seekObject?
    simp only [hbump, if_pos hexport]
    exact (if_pos hvalue).trans (if_pos hobject)
  | case4 depth notObject c word hbump _ hexport found _ hvalue hobject ih =>
    unfold seekObject?
    simp only [hbump, if_pos hexport]
    exact (if_pos hvalue).trans ((if_neg hobject).trans ih)
  | case5 depth notObject c word hbump _ hexport found _ hvalue ih =>
    unfold seekObject?
    simp only [hbump, if_pos hexport]
    exact (if_neg hvalue).trans ih
  | case6 depth notObject c word hbump _ hexport ih =>
    unfold seekObject?
    simp only [hbump, if_neg hexport, depthOutside?_eq, Option.bind_some, ih]

/-! ### Substitutions -/

/-- Where the scanner of a template stands behind a character of a substitution, with a checked
count of braces. -/
def behindCode? (depth : Nat) (outer : List Nat) (c : Char) : Option TemplateState :=
  if c = '\x7b' then some (.code (depth + 1) outer)
  else if c = '\x7d' then
    (countDown? depth).map fun inside => if inside = 0 then .text outer else .code inside outer
  else some (.code depth outer)

/-- The numbers of braces that are open in the substitutions around a place. -/
def TemplateState.depths : TemplateState → List Nat
  | text outer => outer
  | code depth outer => depth :: outer

/-- Whether **each substitution** around a place has a brace open, its own one. -/
def TemplateState.AllOpen (state : TemplateState) : Prop := ∀ depth ∈ state.depths, 0 < depth

theorem behindCode?_eq {depth : Nat} (h : 0 < depth) (outer : List Nat) (c : Char) :
    behindCode? depth outer c = some (behindCode depth outer c) := by
  unfold behindCode? behindCode
  split
  · rfl
  · split
    · rw [countDown?_of_pos h, Option.map_some]
      have hlast : depth - 1 = 0 ↔ depth ≤ 1 := by omega
      simp only [hlast]
    · rfl

/-- No step leaves a substitution without its brace. -/
theorem TemplateStep.allOpen {state next : TemplateState} {s front rest : Text} {crosses : Bool}
    (hstep : TemplateStep state s front crosses next rest) (h : state.AllOpen) : next.AllOpen := by
  cases hstep with
  | outward | escape | character | inward | lineComment | blockComment | quoted => exact h
  | substitution outer => exact List.forall_mem_cons.mpr ⟨Nat.one_pos, h⟩
  | @code depth outer c =>
    obtain ⟨hdepth, houter⟩ := List.forall_mem_cons.mp h
    unfold behindCode
    split
    · exact List.forall_mem_cons.mpr ⟨Nat.succ_pos depth, houter⟩
    · split
      · split
        · exact houter
        · next hnested => exact List.forall_mem_cons.mpr ⟨by omega, houter⟩
      · exact h

/-- **Each substitution** that the scanner of a template is in has its brace open. -/
theorem allOpen_of_templateMoves {s rest : Text} {state : TemplateState}
    (h : Relation.ReflTransGen TemplateMove (.text [], s) (state, rest)) : state.AllOpen := by
  generalize hplace : (state, rest) = place at h
  induction h generalizing state rest with
  | refl =>
    obtain ⟨rfl, -⟩ := Prod.mk.inj hplace
    exact fun depth hdepth => absurd hdepth List.not_mem_nil
  | tail _ hmove ih =>
    obtain ⟨front, crosses, hstep⟩ := hmove
    subst hplace
    exact hstep.allOpen (ih rfl)

/-! ### Edits by slices -/

/-- Carries out edits by slices of the whole source: what stands between one edit and the next, and
what stands behind the last one. `offset` is where the edit before ends. -/
def applyEdits? (source : Text) (offset : Nat) : List Edit → Option Text
  | [] => source.slice? offset (Text.size source)
  | edit :: others => do
    let front ← source.slice? offset edit.span.start
    let behind ← applyEdits? source edit.span.stop others
    return front ++ (edit.replacement.text ++ behind)

/-- The source of a module without module syntax, by slices. -/
def strip? (source : Text) : Except SyntaxError (Option Text) :=
  (Interface.read source).map fun found => applyEdits? source 0 found.edits

/-- The body of a module, by slices. -/
def moduleBody? (source : Text) : Except SyntaxError (Option Text) :=
  (strip? (withLineFeeds source)).map <| Option.map fun stripped =>
    guarded (Text.trim (collapseBlankLines stripped))

/-- Whether a span starts and ends at places of a source, **in this order**. -/
structure Span.Fits (span : Span) (source : Text) : Prop where
  start : source.IsPlace span.start
  stop : source.IsPlace span.stop
  ordered : span.start ≤ span.stop

/-- Edits that are in order and fit a source take **slices that are there**. -/
theorem applyEdits?_eq {edits : List Edit} (before rest : Text)
    (hfits : ∀ edit ∈ edits, edit.span.Fits (before ++ rest))
    (hordered : edits.Pairwise fun a b => a.span.stop ≤ b.span.start)
    (hbehind : ∀ edit ∈ edits, Text.size before ≤ edit.span.start) :
    applyEdits? (before ++ rest) (Text.size before) edits =
      some (applyEdits (Text.size before) rest edits) := by
  induction edits generalizing before rest with
  | nil =>
    rw [applyEdits?, applyEdits_nil]
    simpa using Text.slice?_append before rest []
  | cons edit others ih =>
    obtain ⟨hfirst, hothers⟩ := List.pairwise_cons.mp hordered
    have hfit := hfits edit List.mem_cons_self
    obtain ⟨front, tail, rfl, hstart⟩ := hfit.start.exists_behind (hbehind edit List.mem_cons_self)
    have hsource : before ++ (front ++ tail) = (before ++ front) ++ tail := by simp
    have hstop := hfit.stop
    rw [hsource] at hstop
    obtain ⟨taken, behind, rfl, hend⟩ :=
      hstop.exists_behind (by rw [Text.size_append, ← hstart]; exact hfit.ordered)
    rw [Text.size_append, ← hstart] at hend
    have hsplit : before ++ (front ++ (taken ++ behind)) =
        (before ++ (front ++ taken)) ++ behind := by
      simp
    have hsize : Text.size (before ++ (front ++ taken)) = edit.span.stop := by
      rw [Text.size_append, Text.size_append]
      omega
    have hnext := ih (before ++ (front ++ taken)) behind
      (fun other hother => hsplit ▸ hfits other (List.mem_cons_of_mem _ hother)) hothers
      (fun other hother => hsize ▸ hfirst other hother)
    rw [hsize] at hnext
    have hslice : (before ++ (front ++ (taken ++ behind))).slice? (Text.size before)
        edit.span.start = some front := by
      rw [hstart]
      exact Text.slice?_append before front (taken ++ behind)
    rw [applyEdits?, hslice, hsplit, hnext, applyEdits_cut hstart hend]
    rfl

/-! ### Sources -/

section

variable {source : Text} {t : Token} (ht : t ∈ tokenize source)
include ht

/-- A token is the **slice of its source** between the offsets where it starts and stops. -/
theorem slice?_of_mem_tokenize : source.slice? t.start t.stop = some t.text := by
  obtain ⟨front, behind, hsource, hstart⟩ := exists_around_of_mem_tokenize ht
  rw [hsource, Token.stop, hstart]
  exact Text.slice?_append front t.text behind

/-- A token starts and stops at places of its source. -/
theorem fits_of_mem_tokenize : t.span.Fits source := by
  obtain ⟨front, behind, rfl, hstart⟩ := exists_around_of_mem_tokenize ht
  refine ⟨⟨front, _, rfl, hstart.symm⟩, ⟨front ++ t.text, behind, by simp, ?_⟩,
    Nat.le_add_right _ _⟩
  rw [Text.size_append, ← hstart]
  rfl

/-- The characters of a template **between its backquotes** are a slice, one byte further inside. -/
theorem slice?_of_template (hkind : t.kind = .template) :
    source.slice? (t.start + 1) (t.stop - 1) = some (templateInner t.text) := by
  obtain ⟨inside, htext⟩ : ∃ inside, t.text = '\x60' :: (inside ++ ['\x60']) :=
    forall_mem_lexemes exists_of_template _ (toLexeme_mem_lexemes ht) hkind
  obtain ⟨front, behind, hsource, hstart⟩ := exists_around_of_mem_tokenize ht
  have htick : '\x60'.utf8Size = 1 := by decide
  have hbegin : t.start + 1 = Text.size (front ++ ['\x60']) := by simp [hstart, htick]
  have hend : t.stop - 1 = Text.size (front ++ ['\x60']) + Text.size inside := by
    simp only [Token.stop, htext, hstart, Text.size_cons, Text.size_append, Text.size_nil, htick]
    omega
  have hsplit : source = (front ++ ['\x60']) ++ (inside ++ ('\x60' :: behind)) := by
    simp [hsource, htext]
  have hinner : templateInner t.text = inside := by simp [templateInner, htext]
  rw [hinner, hbegin, hend, hsplit]
  exact Text.slice?_append _ inside _

end

/-- The edits of a module are in order and fit its source. -/
theorem fits_of_read {source : Text} {found : Interface} (h : Interface.read source = .ok found) :
    (∀ edit ∈ found.edits, edit.span.Fits source) ∧
      found.edits.Pairwise fun a b => a.span.stop ≤ b.span.start := by
  have hpairwise := pairwise_tokenize source
  have htext : ∀ t ∈ tokenize source, t.start < t.stop := start_lt_stop_of_mem_tokenize
  obtain ⟨pieces, hcut⟩ : ∃ pieces, CutInto (tokenize source) found.edits pieces := exists_cutInto h
  refine ⟨fun edit hedit => ?_, hcut.pairwise hpairwise htext⟩
  obtain ⟨front, run, behind, hrest, htakes⟩ := interfaceFrom_takesOut h edit hedit
  have htokens : tokenize source = front ++ (run ++ behind) := hrest
  rw [htokens] at hpairwise
  have hsplits := htakes.splits hpairwise fun t ht =>
    htext t (htokens ▸ List.mem_append_right _ ht)
  obtain ⟨first, hfirst, hstart⟩ := htakes.start
  have hfirstFits : first.span.Fits source :=
    fits_of_mem_tokenize (by simp [htokens, List.mem_of_mem_head? hfirst])
  refine ⟨hstart ▸ hfirstFits.start, ?_, Nat.le_of_lt hsplits.positive⟩
  rcases htakes.stop with ⟨last, hlast, hstop⟩ | ⟨next, hnext, hstop⟩
  · have hfits : last.span.Fits source :=
      fits_of_mem_tokenize (by simp [htokens, List.mem_of_getLast? hlast])
    exact hstop ▸ hfits.stop
  · have hfits : next.span.Fits source :=
      fits_of_mem_tokenize (by simp [htokens, List.mem_of_mem_head? hnext])
    exact hstop ▸ hfits.start

/-- Stripping takes **slices that are there**. -/
theorem strip?_eq (source : Text) : strip? source = (strip source).map some := by
  rw [strip?, strip]
  cases h : Interface.read source with
  | error e => rfl
  | ok found =>
    obtain ⟨hfits, hordered⟩ := fits_of_read h
    have hall := applyEdits?_eq [] source hfits hordered fun _ _ => Nat.zero_le _
    exact congrArg Except.ok hall

theorem moduleBody?_eq (source : Text) : moduleBody? source = (moduleBody source).map some := by
  rw [moduleBody?, moduleBody, strip?_eq]
  cases strip (withLineFeeds source) <;> rfl

/-- Whether a source **is read safely**: every slice that is taken of it is there, and no count of
brackets is counted down from zero. -/
structure ReadsSafely (source : Text) : Prop where
  tokens : ∀ t ∈ tokenize source, source.slice? t.start t.stop = some t.text
  /-- A name is the slice that its characters are. -/
  names : ∀ t ∈ tokenize source, ∀ name, t.kind = .identifier name →
    source.slice? t.start t.stop = some name.toList
  /-- The metadata take a template without its backquotes. -/
  templates : ∀ t ∈ tokenize source, t.kind = .template →
    source.slice? (t.start + 1) (t.stop - 1) = some (templateInner t.text)
  strips : strip? source = (strip source).map some
  bodies : moduleBody? source = (moduleBody source).map some
  /-- The braces of the substitutions in a template, from behind its backquote on. -/
  substitutions : ∀ front behind, source = front ++ '\x60' :: behind → ∀ depth outer c rest,
    Relation.ReflTransGen TemplateMove (.text [], behind) (.code depth outer, c :: rest) →
      behindCode? depth outer c = some (behindCode depth outer c)
  /-- A computed key, from behind its opening bracket on. -/
  keys : ∀ c : Cursor, c.rest <:+ tokenize source →
    skipBalanced? 1 c.previous c.rest = some (skipBalanced 1 c.previous c.rest)
  initialisers : ∀ inStatement, ∀ c : Cursor, c.rest <:+ tokenize source →
    skipInitialiser? inStatement c = some (skipInitialiser inStatement c)
  /-- Outside of statements a bracket that closes and is not open is not counted. -/
  statements : interfaceFrom? 0 (.ofSource source) = some (Interface.read source)
  /-- The same holds of the search for the metadata. -/
  objects : seekObject? 0 none (.ofSource source) = some (seekObject 0 none (.ofSource source))

/-- **Every source is read safely**, be its brackets balanced or not and its literals closed or not,
and whatever characters it is made of. -/
theorem readsSafely (source : Text) : ReadsSafely source where
  tokens _ ht := slice?_of_mem_tokenize ht
  names t ht name hkind := by
    rw [slice?_of_mem_tokenize ht, text_of_mem_lexemes _ (toLexeme_mem_lexemes ht) hkind]
  templates _ ht := slice?_of_template ht
  strips := strip?_eq source
  bodies := moduleBody?_eq source
  substitutions _ _ _ depth outer c rest hmoves :=
    behindCode?_eq (allOpen_of_templateMoves hmoves depth List.mem_cons_self) outer c
  keys c _ := skipBalanced?_eq Nat.one_pos c.previous c.rest
  initialisers inStatement c _ := skipInitialiser?_eq inStatement c
  statements := interfaceFrom?_eq 0 (.ofSource source)
  objects := seekObject?_eq 0 none (.ofSource source)

end ScriptBundle
