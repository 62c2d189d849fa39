import ScriptBundle.Proofs.Module.Remaining
import ScriptBundle.Proofs.Token.Bounded

/-!
# Edits of a Module

The edits of a module take out module syntax and nothing else. They stand in order and apart from
each other, each one covers the tokens of one form of module syntax, and all tokens that none of
them covers are found again in the stripped source.

## Main definitions

* `keptTokens`: the tokens that no edit covers;
* `Edit.TakesOut`: whether an edit takes out given tokens between others;
* `Edit.Replaces`: whether it also leaves what the form of these tokens says;
* `Edit.IsExact`: whether the tokens that an edit covers are module syntax;
* `InOrder`: whether texts stand one behind the other in a text.

## Main statements

* `moduleStatement_replaces`, `interfaceFrom_replaces`: what the edits of a statement and those of a
  whole module take out and leave;
* `exists_statement_of_edit`: every edit is of a statement that the reader gets to;
* `edits_exact`: the edits of a source are in order, apart and exact, and spare all other tokens.
-/

namespace ScriptBundle

/-! ### Tokens and spans -/

/-- Whether a span covers a token. -/
def Span.covers (span : Span) (t : Token) : Bool := span.start ≤ t.start && t.stop ≤ span.stop

/-- The tokens that a span covers. -/
def Span.tokens (span : Span) (ts : List Token) : List Token := ts.filter span.covers

/-- The tokens behind a span. -/
def Span.tokensBehind (span : Span) (ts : List Token) : List Token :=
  ts.filter fun t => span.stop ≤ t.start

/-- The tokens that are **kept**: those that no edit covers. -/
def keptTokens (edits : List Edit) (ts : List Token) : List Token :=
  ts.filter fun t => !edits.any (·.span.covers t)

/-- Tokens at their places stand one behind the other. -/
theorem Placed.pairwise {offset : Nat} {ts : List Token} (h : Placed offset ts) :
    ts.Pairwise fun t u => t.stop ≤ u.start := by
  induction ts generalizing offset with
  | nil => exact .nil
  | cons t ts ih => exact .cons (h.2.le_start) (ih h.2)

/-- Tokens end within the text that they are written to. -/
theorem Placed.stop_le {offset : Nat} {ts : List Token} (h : Placed offset ts) :
    ∀ t ∈ ts, t.stop ≤ offset + Text.size (writeTokens ts) := by
  induction ts generalizing offset with
  | nil => simp
  | cons first rest ih =>
    obtain ⟨hfirst, hrest⟩ := h
    have hsize : offset + Text.size (writeTokens (first :: rest)) =
        first.stop + Text.size (writeTokens rest) := by
      rw [writeTokens_cons, Text.size_append, Text.size_append, Token.stop, hfirst]
      omega
    rw [hsize]
    intro t ht
    rcases List.mem_cons.mp ht with rfl | ht
    · omega
    · exact ih hrest t ht

/-- The tokens of a source end within it. -/
theorem stop_le_size {s : Text} : ∀ t ∈ tokenize s, t.stop ≤ Text.size s := by
  intro t ht
  have hplaced := placed_place (Text.size (hashbang s)) (lexemes .initial (afterHashbang s))
  have hstop := hplaced.stop_le t ht
  have hwritten := congrArg Text.size (writeTokens_tokenize s)
  have hwhole := congrArg Text.size (hashbang_append_afterHashbang s)
  rw [Text.size_append] at hwritten hwhole
  change t.stop ≤ Text.size (hashbang s) + Text.size (writeTokens (tokenize s)) at hstop
  omega

/-- The tokens of a source stand one behind the other. -/
theorem pairwise_tokenize (source : Text) :
    (tokenize source).Pairwise fun t u => t.stop ≤ u.start :=
  (placed_place _ _).pairwise

/-- No token of a source ends where it starts. -/
theorem start_lt_stop_of_mem_tokenize {source : Text} :
    ∀ t ∈ tokenize source, t.start < t.stop :=
  fun t ht => Token.start_lt_stop (text_ne_nil_of_mem_tokenize t ht)

/-! ### What an edit takes out -/

/-- Whether an edit **reaches** over the tokens of `run`, which stand in front of the tokens
`behind`: from the first one of them to the end of the last one or to the token behind. -/
structure Edit.Reaches (edit : Edit) (run behind : List Token) : Prop where
  start : ∃ first ∈ run.head?, first.start = edit.span.start
  stop : (∃ last ∈ run.getLast?, last.stop = edit.span.stop) ∨
    ∃ next ∈ behind.head?, next.start = edit.span.stop

/-- An edit may reach to the end of a run. -/
theorem Edit.Reaches.toEnd (first : Token) (others behind : List Token)
    (replacement : Replacement) :
    Edit.Reaches ⟨⟨first.start, (others.getLastD first).stop⟩, replacement⟩ (first :: others)
      behind := by
  refine ⟨⟨first, rfl, rfl⟩, .inl ⟨others.getLastD first, ?_, rfl⟩⟩
  rw [List.getLast?_cons, List.getLastD_eq_getLast?]
  rfl

/-- An edit may reach to the token behind a run. -/
theorem Edit.Reaches.toNext (first next : Token) (others behind : List Token)
    (replacement : Replacement) :
    Edit.Reaches ⟨⟨first.start, next.start⟩, replacement⟩ (first :: others) (next :: behind) :=
  ⟨⟨first, rfl, rfl⟩, .inr ⟨next, rfl, rfl⟩⟩

/-- Whether an edit **takes out** the tokens of `run`, which stand in front of the tokens `behind`
and are module syntax. -/
structure Edit.TakesOut (edit : Edit) (run behind : List Token) : Prop
    extends edit.Reaches run behind where
  keyword : ∃ first ∈ run.head?, first.isModuleKeyword = true
  form : ∃ form : SyntaxForm, form.Matches (run.map (·.kind)) (behind.map (·.kind))

/-- What is left where tokens of a form stood in front of the tokens `behind`. -/
def SyntaxForm.replacement (form : SyntaxForm) (behind : List Token) : Replacement :=
  match form with
  | importDeclaration | exportList =>
    if behind.head?.any (·.kind.continuesPreviousLine) then .semicolon else .nothing
  | exportKeyword => .nothing
  | exportDefault => defaultReplacement ⟨none, behind⟩

/-- Whether an edit **replaces** the tokens of `run`: it takes them out and leaves what their form
says. -/
structure Edit.Replaces (edit : Edit) (run behind : List Token) : Prop
    extends edit.TakesOut run behind where
  leaves : ∀ form : SyntaxForm, form.Matches (run.map (·.kind)) (behind.map (·.kind)) →
    edit.replacement = form.replacement behind

/-- A statement that is taken out as a whole is an import declaration or an export list. -/
theorem SyntaxForm.Matches.isWhole {form : SyntaxForm} {first : Token} {others : List Token}
    {behind : List TokenKind} (h : form.Matches ((first :: others).map (·.kind)) behind)
    (hwhole : first.isName "import" = true ∨ others.head?.any (·.isPunctuator '{') = true) :
    form = .importDeclaration ∨ form = .exportList := by
  -- The words in front of a declaration or a value are `export`, and no brace is behind them.
  have hwords : ∀ {kinds : List TokenKind},
      (first :: others).map (·.kind) = .identifier "export" :: kinds →
      kinds.head? = some (.punctuator '{') := by
    intro kinds hkinds
    obtain ⟨hfirst, rfl⟩ := List.cons.inj hkinds
    rcases hwhole with himport | hbrace
    · simp [Token.isName, hfirst] at himport
    · obtain ⟨brace, hbrace, hkind⟩ := (Option.any_eq_true _ _).mp hbrace
      have hopens : brace.kind = .punctuator '{' := by simpa [Token.isPunctuator] using hkind
      rw [List.head?_map, hbrace, Option.map_some, hopens]
  cases form with
  | importDeclaration => exact .inl rfl
  | exportList => exact .inr rfl
  | exportKeyword => simpa using hwords h.1
  | exportDefault => simpa using hwords h.1

/-- The edits of a statement replace the tokens in front of it. -/
theorem StatementCut.replaces {c behind : Cursor} {found : Interface}
    (h : StatementCut c found behind) :
    ∀ edit ∈ found.edits, ∃ run others, c.rest = run ++ others ∧ edit.Replaces run others := by
  cases h with
  | dynamic passes word next empty => simp [empty, Interface.empty]
  | @whole first others passes keyword form member edits matching =>
    intro edit hedit
    obtain rfl : edit = removal first.start (others.getLastD first).stop behind := by
      simpa [edits] using hedit
    refine ⟨first :: others, behind.rest, passes.rest,
      ⟨.toEnd _ _ _ _, ⟨first, rfl, keyword⟩, matching⟩, fun other hother => ?_⟩
    rcases hother.isWhole form with rfl | rfl
    · rfl
    · rfl
  | @defaultValue first second value passes keyword word next edits =>
    intro edit hedit
    obtain rfl : edit = ⟨⟨first.start, value.start⟩, defaultReplacement behind⟩ := by
      simpa [edits] using hedit
    have hfirst : first.kind = .identifier "export" := Token.kind_of_isName keyword
    have hsecond : second.kind = .identifier "default" := Token.kind_of_isName word
    obtain ⟨tail, htail⟩ := List.head?_eq_some_iff.mp next
    have hmatches : SyntaxForm.exportDefault.Matches ([first, second].map (·.kind))
        (behind.rest.map (·.kind)) := ⟨by simp [hfirst, hsecond], by simp [htail]⟩
    refine ⟨[first, second], behind.rest, passes.rest,
      ⟨?_, ⟨first, rfl, Token.isModuleKeyword_of_export keyword⟩, _, hmatches⟩,
      fun form hform => ?_⟩
    · rw [htail]
      exact .toNext _ _ _ _ _
    · rw [hform.unique hmatches]
      rfl
  | @declaration first next between kept names passes closes keyword word among declared opens =>
    intro edit hedit
    obtain rfl : edit = keywordRemoval first.start next.start := by
      simpa [declared, ScriptBundle.declared] using hedit
    have hfirst : first.kind = .identifier "export" := Token.kind_of_isName keyword
    have hmatches : SyntaxForm.exportKeyword.Matches ([first].map (·.kind))
        ((next :: between.rest).map (·.kind)) := ⟨by simp [hfirst], opens⟩
    refine ⟨[first], next :: between.rest, passes.rest,
      ⟨.toNext _ _ _ _ _, ⟨first, rfl, Token.isModuleKeyword_of_export keyword⟩, _, hmatches⟩,
      fun form hform => ?_⟩
    rw [hform.unique hmatches]
    rfl

/-- The edits of a statement replace the tokens at its front. -/
theorem moduleStatement_replaces {depth : Nat} {c : Cursor} {a : Advance c Interface}
    (h : moduleStatement depth c = .ok (some a)) :
    ∀ edit ∈ a.value.edits, ∃ run others, c.rest = run ++ others ∧ edit.Replaces run others :=
  (moduleStatement_cut h).2.2.replaces

/-- The edits of a module replace tokens between others. -/
theorem interfaceFrom_replaces {depth : Nat} {c : Cursor} {found : Interface}
    (h : interfaceFrom depth c = .ok found) :
    ∀ edit ∈ found.edits, ∃ front run others, c.rest = front ++ (run ++ others) ∧
      edit.Replaces run others := by
  intro edit hedit
  obtain ⟨c', a, hreads, hstatement, hmem⟩ := exists_readsTo_of_edit h edit hedit
  obtain ⟨front, -, -, hfront, -⟩ := hreads.exists_front h
  obtain ⟨run, others, hrest, hreplaces⟩ := moduleStatement_replaces hstatement edit hmem
  exact ⟨front, run, others, by rw [hfront, hrest], hreplaces⟩

/-- The edits of a module take out tokens between others. -/
theorem interfaceFrom_takesOut {depth : Nat} {c : Cursor} {found : Interface}
    (h : interfaceFrom depth c = .ok found) :
    ∀ edit ∈ found.edits, ∃ front run others, c.rest = front ++ (run ++ others) ∧
      edit.TakesOut run others := by
  intro edit hedit
  obtain ⟨front, run, others, hrest, hreplaces⟩ := interfaceFrom_replaces h edit hedit
  exact ⟨front, run, others, hrest, hreplaces.toTakesOut⟩

/-! ### Exact edits -/

/-- Whether the tokens of a source that an edit covers are module syntax, of exactly one form, from
a word on that module statements start with. -/
structure Edit.IsExact (edit : Edit) (ts : List Token) : Prop where
  keyword : ∃ t ∈ ts, t.isModuleKeyword = true ∧ t.start = edit.span.start
  form : ∃! form : SyntaxForm,
    form.Matches ((edit.span.tokens ts).map (·.kind)) ((edit.span.tokensBehind ts).map (·.kind))

section

variable {edit : Edit} {front run behind : List Token}

/-- Where tokens stand of which an edit takes out those in the middle. -/
structure Edit.Splits (edit : Edit) (front run behind : List Token) : Prop where
  positive : edit.span.start < edit.span.stop
  front : ∀ t ∈ front, t.stop ≤ edit.span.start
  run : ∀ t ∈ run, edit.span.start ≤ t.start ∧ t.stop ≤ edit.span.stop
  behind : ∀ t ∈ behind, edit.span.stop ≤ t.start

/-- An edit splits the tokens between which it reaches over others. -/
theorem Edit.Reaches.splits (h : edit.Reaches run behind)
    (hpairwise : (front ++ (run ++ behind)).Pairwise fun t u => t.stop ≤ u.start)
    (htext : ∀ t ∈ run ++ behind, t.start < t.stop) : edit.Splits front run behind := by
  obtain ⟨-, hrest, hfront⟩ := List.pairwise_append.mp hpairwise
  obtain ⟨hrun, hbehind, hbetween⟩ := List.pairwise_append.mp hrest
  obtain ⟨first, hfirst, hstart⟩ := h.start
  obtain ⟨tail, rfl⟩ := List.head?_eq_some_iff.mp hfirst
  have hfirstText := htext first (by simp)
  have hstarts : ∀ t ∈ first :: tail, edit.span.start ≤ t.start := by
    intro t ht
    rcases List.mem_cons.mp ht with rfl | ht
    · exact Nat.le_of_eq hstart.symm
    · have hle := List.rel_of_pairwise_cons hrun ht
      omega
  have hends : (∀ t ∈ first :: tail, t.stop ≤ edit.span.stop) ∧
      ∀ t ∈ behind, edit.span.stop ≤ t.start := by
    rcases h.stop with ⟨last, hlast, hstop⟩ | ⟨next, hnext, hstop⟩
    · refine ⟨fun t ht => ?_, fun t ht => hstop ▸ hbetween last (List.mem_of_getLast? hlast) t ht⟩
      obtain ⟨init, hinit⟩ := List.getLast?_eq_some_iff.mp hlast
      rw [hinit] at ht hrun
      rcases List.mem_append.mp ht with ht | ht
      · have hle := (List.pairwise_append.mp hrun).2.2 t ht last (by simp)
        have hlt := htext last (by simp [hinit])
        omega
      · obtain rfl := List.mem_singleton.mp ht
        exact Nat.le_of_eq hstop
    · obtain ⟨others, rfl⟩ := List.head?_eq_some_iff.mp hnext
      refine ⟨fun t ht => hstop ▸ hbetween t ht next (by simp), fun t ht => ?_⟩
      rcases List.mem_cons.mp ht with rfl | ht
      · exact Nat.le_of_eq hstop.symm
      · have hle := List.rel_of_pairwise_cons hbehind ht
        have hlt := htext next (by simp)
        omega
  have hfirstEnd := hends.1 first (by simp)
  exact ⟨by omega, fun t ht => hstart ▸ hfront t ht first (by simp),
    fun t ht => ⟨hstarts t ht, hends.1 t ht⟩, hends.2⟩

/-- The tokens that an edit covers are those in the middle. -/
theorem Edit.Splits.tokens_eq (h : edit.Splits front run behind)
    (htext : ∀ t ∈ front ++ (run ++ behind), t.start < t.stop) :
    edit.span.tokens (front ++ (run ++ behind)) = run := by
  have hfront : front.filter edit.span.covers = [] := by
    refine List.filter_eq_nil_iff.mpr fun t ht => ?_
    have hle := h.front t ht
    have hlt := htext t (by simp [ht])
    simp only [Span.covers, Bool.and_eq_true, decide_eq_true_eq]
    omega
  have hrun : run.filter edit.span.covers = run := by
    refine List.filter_eq_self.mpr fun t ht => ?_
    simpa [Span.covers] using h.run t ht
  have hbehind : behind.filter edit.span.covers = [] := by
    refine List.filter_eq_nil_iff.mpr fun t ht => ?_
    have hle := h.behind t ht
    have hlt := htext t (by simp [ht])
    simp only [Span.covers, Bool.and_eq_true, decide_eq_true_eq]
    omega
  rw [Span.tokens, List.filter_append, List.filter_append, hfront, hrun, hbehind, List.nil_append,
    List.append_nil]

/-- The tokens behind an edit are those behind the middle. -/
theorem Edit.Splits.tokensBehind_eq (h : edit.Splits front run behind)
    (htext : ∀ t ∈ front ++ (run ++ behind), t.start < t.stop) :
    edit.span.tokensBehind (front ++ (run ++ behind)) = behind := by
  let isBehind : Token → Bool := fun t => edit.span.stop ≤ t.start
  have hpositive := h.positive
  have hfront : front.filter isBehind = [] := by
    refine List.filter_eq_nil_iff.mpr fun t ht => ?_
    have hle := h.front t ht
    have hlt := htext t (by simp [ht])
    simp only [isBehind, decide_eq_true_eq]
    omega
  have hrun : run.filter isBehind = [] := by
    refine List.filter_eq_nil_iff.mpr fun t ht => ?_
    have hle := h.run t ht
    have hlt := htext t (by simp [ht])
    simp only [isBehind, decide_eq_true_eq]
    omega
  have hbehind : behind.filter isBehind = behind :=
    List.filter_eq_self.mpr fun t ht => decide_eq_true (h.behind t ht)
  change (front ++ (run ++ behind)).filter isBehind = behind
  rw [List.filter_append, List.filter_append, hfront, hrun, hbehind, List.nil_append,
    List.nil_append]

/-- An edit that takes out tokens between others is exact. -/
theorem Edit.TakesOut.isExact (h : edit.TakesOut run behind)
    (hsplits : edit.Splits front run behind)
    (htext : ∀ t ∈ front ++ (run ++ behind), t.start < t.stop) :
    edit.IsExact (front ++ (run ++ behind)) := by
  obtain ⟨first, hfirst, hstart⟩ := h.start
  have hmem := List.mem_of_mem_head? hfirst
  have hkeyword : first.isModuleKeyword = true := by
    obtain ⟨other, hother, hkeyword⟩ := h.keyword
    rwa [Option.mem_unique hfirst hother]
  obtain ⟨form, hform⟩ := h.form
  refine ⟨⟨first, by simp [hmem], hkeyword, hstart⟩, ?_⟩
  rw [hsplits.tokens_eq htext, hsplits.tokensBehind_eq htext]
  exact ⟨form, hform, fun other hother => hother.unique hform⟩

end

/-! ### Order of edits -/

namespace CutInto

variable {ts : List Token} {edits : List Edit} {pieces : List Piece}

/-- Every edit starts where a token starts. -/
theorem exists_start (h : CutInto ts edits pieces) :
    ∀ edit ∈ edits, ∃ t ∈ ts, t.start = edit.span.start := by
  induction h with
  | nil => simp
  | kept t _ ih =>
    intro edit hedit
    obtain ⟨u, hu, hstart⟩ := ih edit hedit
    exact ⟨u, List.mem_cons_of_mem _ hu, hstart⟩
  | @whole first others replacement ts edits pieces keyword _ ih =>
    refine List.forall_mem_cons.mpr ⟨⟨first, by simp, rfl⟩, fun edit hedit => ?_⟩
    obtain ⟨u, hu, hstart⟩ := ih edit hedit
    exact ⟨u, List.mem_append_right _ hu, hstart⟩
  | @front first next others replacement ts edits pieces keyword _ ih =>
    refine List.forall_mem_cons.mpr ⟨⟨first, by simp, rfl⟩, fun edit hedit => ?_⟩
    obtain ⟨u, hu, hstart⟩ := ih edit hedit
    exact ⟨u, List.mem_append_right _ hu, hstart⟩

/-- The edits stand in order and apart from each other. -/
theorem pairwise (h : CutInto ts edits pieces)
    (hpairwise : ts.Pairwise fun t u => t.stop ≤ u.start) (htext : ∀ t ∈ ts, t.start < t.stop) :
    edits.Pairwise fun a b => a.span.stop ≤ b.span.start := by
  -- An edit that reaches over a run ends in front of the tokens behind, where the others start.
  have first : ∀ {edit : Edit} {edits : List Edit} {run ts : List Token} {pieces : List Piece},
      edit.Reaches run ts → CutInto ts edits pieces →
      (run ++ ts).Pairwise (fun t u => t.stop ≤ u.start) → (∀ t ∈ run ++ ts, t.start < t.stop) →
      ∀ other ∈ edits, edit.span.stop ≤ other.span.start := by
    intro edit edits run ts pieces hreaches hcut hpairwise htext other hother
    obtain ⟨t, ht, hstart⟩ := hcut.exists_start other hother
    have hsplits : edit.Splits [] run ts := hreaches.splits hpairwise htext
    exact hstart ▸ hsplits.behind t ht
  induction h with
  | nil => exact .nil
  | kept t _ ih =>
    exact ih (List.pairwise_cons.mp hpairwise).2 fun t ht => htext t (List.mem_cons_of_mem _ ht)
  | whole others replacement keyword rest ih =>
    exact .cons (first (.toEnd _ _ _ _) rest hpairwise htext)
      (ih (List.pairwise_append.mp hpairwise).2.1 fun t ht => htext t (List.mem_append_right _ ht))
  | front others replacement keyword rest ih =>
    exact .cons (first (.toNext _ _ _ _ _) rest hpairwise htext)
      (ih (List.pairwise_append.mp hpairwise).2.1 fun t ht => htext t (List.mem_append_right _ ht))

end CutInto

/-! ### Kept tokens -/

/-- The token that a piece keeps. -/
def Piece.kept? : Piece → Option Token
  | kept t => some t
  | cut _ _ _ _ => none

/-- A token is kept if no edit covers it. -/
theorem keptTokens_cons {edits : List Edit} {t : Token} {ts : List Token}
    (h : ∀ edit ∈ edits, edit.span.covers t = false) :
    keptTokens edits (t :: ts) = t :: keptTokens edits ts := by
  have hnone : edits.any (·.span.covers t) = false :=
    List.any_eq_false.mpr fun edit hedit => by simp [h edit hedit]
  exact List.filter_cons_of_pos (by simp [hnone])

/-- Of a run that an edit reaches over no token is kept, and the edit covers no token behind it. -/
theorem Edit.Reaches.keptTokens_eq {edit : Edit} {run ts : List Token} (h : edit.Reaches run ts)
    (hpairwise : (run ++ ts).Pairwise fun t u => t.stop ≤ u.start)
    (htext : ∀ t ∈ run ++ ts, t.start < t.stop) (edits : List Edit) :
    keptTokens (edit :: edits) (run ++ ts) = keptTokens edits ts := by
  have hsplits : edit.Splits [] run ts := h.splits hpairwise htext
  have hrun : keptTokens (edit :: edits) run = [] := by
    refine List.filter_eq_nil_iff.mpr fun t ht => ?_
    have hcovers : edit.span.covers t = true := by simpa [Span.covers] using hsplits.run t ht
    simp [hcovers]
  have hbehind : keptTokens (edit :: edits) ts = keptTokens edits ts := by
    refine List.filter_congr fun t ht => ?_
    have hcovers : edit.span.covers t = false := by
      have hle := hsplits.behind t ht
      have hlt := htext t (List.mem_append_right _ ht)
      simp only [Span.covers, Bool.and_eq_false_iff, decide_eq_false_iff_not]
      omega
    rw [List.any_cons, hcovers, Bool.false_or]
  have happend : keptTokens (edit :: edits) (run ++ ts) =
      keptTokens (edit :: edits) run ++ keptTokens (edit :: edits) ts := List.filter_append _ _
  rw [happend, hrun, hbehind, List.nil_append]

/-- The tokens that are kept are those that the pieces keep. -/
theorem CutInto.keptTokens_eq {ts : List Token} {edits : List Edit} {pieces : List Piece}
    (h : CutInto ts edits pieces) (hpairwise : ts.Pairwise fun t u => t.stop ≤ u.start)
    (htext : ∀ t ∈ ts, t.start < t.stop) : keptTokens edits ts = pieces.filterMap Piece.kept? := by
  induction h with
  | nil => rfl
  | @kept t ts edits pieces rest ih =>
    obtain ⟨hfirst, hothers⟩ := List.pairwise_cons.mp hpairwise
    rw [keptTokens_cons, ih hothers fun t ht => htext t (List.mem_cons_of_mem _ ht)]
    · rfl
    · intro edit hedit
      obtain ⟨u, hu, hstart⟩ := rest.exists_start edit hedit
      have hle := hfirst u hu
      have hlt := htext t List.mem_cons_self
      simp only [Span.covers, Bool.and_eq_false_iff, decide_eq_false_iff_not]
      omega
  | whole others replacement keyword rest ih =>
    rw [(Edit.Reaches.toEnd _ _ _ _).keptTokens_eq hpairwise htext,
      ih (List.pairwise_append.mp hpairwise).2.1 fun t ht => htext t (List.mem_append_right _ ht)]
    rfl
  | front others replacement keyword rest ih =>
    rw [(Edit.Reaches.toNext _ _ _ _ _).keptTokens_eq hpairwise htext,
      ih (List.pairwise_append.mp hpairwise).2.1 fun t ht => htext t (List.mem_append_right _ ht)]
    rfl

/-- Whether texts stand one behind the other in a text. -/
def InOrder : List Text → Text → Prop
  | [], _ => True
  | u :: us, s => ∃ front behind, s = front ++ (u ++ behind) ∧ InOrder us behind

/-- Texts that stand in a text stand in it whatever is in front of it. -/
theorem InOrder.append_left {us : List Text} {s : Text} (h : InOrder us s) (front : Text) :
    InOrder us (front ++ s) := by
  cases us with
  | nil => trivial
  | cons u us =>
    obtain ⟨gap, behind, rfl, hrest⟩ := h
    exact ⟨front ++ gap, behind, (List.append_assoc _ _ _).symm, hrest⟩

/-- The tokens that pieces keep stand in the text that is written from them. -/
theorem inOrder_writePieces (bare : Bool) (pieces : List Piece) (trailing : Text) :
    InOrder ((pieces.filterMap Piece.kept?).map (·.text)) (writePieces bare pieces trailing) := by
  induction pieces generalizing bare with
  | nil => trivial
  | cons piece rest ih =>
    cases piece with
    | kept t => exact ⟨_, _, rfl, ih false⟩
    | cut first others replacement tight => exact ((ih tight).append_left _).append_left _

/-! ### The edits of a source -/

/-- Every edit is of a statement that the reader gets to, which starts with the tokens that the edit
covers. -/
theorem exists_statement_of_edit {source : Text} {found : Interface}
    (h : Interface.read source = .ok found) {edit : Edit} (hedit : edit ∈ found.edits) :
    ∃ (c : Cursor) (a : Advance c Interface), ReadsTo 0 (.ofSource source) 0 c ∧
      moduleStatement 0 c = .ok (some a) ∧ edit ∈ a.value.edits ∧
      c.rest = edit.span.tokens (tokenize source) ++ edit.span.tokensBehind (tokenize source) ∧
      edit.Replaces (edit.span.tokens (tokenize source))
        (edit.span.tokensBehind (tokenize source)) := by
  obtain ⟨c, a, hreads, hstatement, hmem⟩ := exists_readsTo_of_edit h edit hedit
  obtain ⟨front, -, -, hfront, -⟩ := hreads.exists_front h
  obtain ⟨run, behind, hrest, hreplaces⟩ := moduleStatement_replaces hstatement edit hmem
  have hpairwise := pairwise_tokenize source
  have htext : ∀ t ∈ tokenize source, t.start < t.stop := start_lt_stop_of_mem_tokenize
  have htokens : tokenize source = front ++ (run ++ behind) := by
    rw [← hrest]
    exact hfront
  rw [htokens] at hpairwise htext
  have hsplits := hreplaces.splits hpairwise fun t ht => htext t (List.mem_append_right _ ht)
  refine ⟨c, a, hreads, hstatement, hmem, ?_⟩
  rw [htokens, hsplits.tokens_eq htext, hsplits.tokensBehind_eq htext]
  exact ⟨hrest, hreplaces⟩

/-- The **edits of a source** are in order, apart from each other and exact: they take out module
syntax and nothing else. They cut the tokens into pieces, and the stripped source is written from
these: a token that is kept as it stands behind its gap, and of a run no more than its replacement.
So all tokens that are kept stand in the stripped source, in their order. -/
theorem edits_exact {source : Text} {found : Interface} (h : Interface.read source = .ok found) :
    found.edits.Pairwise (fun a b => a.span.stop ≤ b.span.start) ∧
      (∀ edit ∈ found.edits, edit.span.start < edit.span.stop ∧
        edit.span.stop ≤ Text.size source ∧ edit.IsExact (tokenize source)) ∧
      ∃ pieces, CutInto (tokenize source) found.edits pieces ∧
        pieces.filterMap Piece.kept? = keptTokens found.edits (tokenize source) ∧
        ∃ stripped, strip source = .ok stripped ∧
          stripped = hashbang source ++
            writePieces false pieces (trailingTrivia .initial (afterHashbang source)) ∧
          InOrder ((keptTokens found.edits (tokenize source)).map (·.text)) stripped := by
  have hplaced := placed_place (Text.size (hashbang source))
    (lexemes .initial (afterHashbang source))
  have hpairwise : (tokenize source).Pairwise fun t u => t.stop ≤ u.start := hplaced.pairwise
  have htext : ∀ t ∈ tokenize source, t.start < t.stop :=
    fun t ht => Token.start_lt_stop (text_ne_nil_of_mem_tokenize t ht)
  obtain ⟨pieces, hcut⟩ : ∃ pieces, CutInto (tokenize source) found.edits pieces := exists_cutInto h
  have hkept : pieces.filterMap Piece.kept? = keptTokens found.edits (tokenize source) :=
    (hcut.keptTokens_eq hpairwise htext).symm
  refine ⟨hcut.pairwise hpairwise htext, fun edit hedit => ?_, pieces, hcut, hkept,
    _, strip_eq_of_cutInto h hcut, rfl, ?_⟩
  · obtain ⟨front, run, behind, hrest, htakes⟩ := interfaceFrom_takesOut h edit hedit
    change tokenize source = front ++ (run ++ behind) at hrest
    rw [hrest] at hpairwise
    have hsplits := htakes.splits hpairwise fun t ht =>
      htext t (hrest ▸ List.mem_append_right _ ht)
    refine ⟨hsplits.positive, ?_, hrest ▸ htakes.isExact hsplits (hrest ▸ htext)⟩
    rcases htakes.stop with ⟨last, hlast, hstop⟩ | ⟨next, hnext, hstop⟩
    · exact hstop ▸ stop_le_size last (by simp [hrest, List.mem_of_getLast? hlast])
    · have hmem : next ∈ tokenize source := by simp [hrest, List.mem_of_mem_head? hnext]
      have hlt := htext next hmem
      have hle := stop_le_size next hmem
      omega
  · rw [← hkept]
    exact (inOrder_writePieces _ _ _).append_left _

/-- A source with an import, an exported declaration and a default value. -/
def mixedSource : Text := "import a from 'a';\nexport let b = a\nexport default b".toList

/-- The three edits of such a source. -/
theorem edits_exact_of_mixed :
    ∃ found, Interface.read mixedSource = .ok found ∧ found.edits.length = 3 ∧
      found.edits.Pairwise (fun a b => a.span.stop ≤ b.span.start) ∧
      (∀ edit ∈ found.edits, edit.span.start < edit.span.stop ∧
        edit.span.stop ≤ Text.size mixedSource ∧ edit.IsExact (tokenize mixedSource)) ∧
      ∃ pieces, CutInto (tokenize mixedSource) found.edits pieces ∧
        strip mixedSource = .ok "\nlet b = a\nb".toList ∧
        writePieces false pieces [] = "\nlet b = a\nb".toList := by
  have hread : Interface.read mixedSource = .ok
      { imports := [⟨.defaultExport "a", "a"⟩], exports := [.named "b", .defaultValue]
        edits := [⟨⟨0, 18⟩, .nothing⟩, ⟨⟨19, 26⟩, .nothing⟩, ⟨⟨36, 51⟩, .nothing⟩] } := by
    simp only [Interface.read, Cursor.ofSource, tokenize_eq_upTo]
    cbv
  obtain ⟨hordered, hexact, pieces, hcut, -, stripped, hstrip, hwritten, -⟩ := edits_exact hread
  have hresult : strip mixedSource = .ok "\nlet b = a\nb".toList := by
    rw [strip, hread]
    cbv
  have hhashbang : hashbang mixedSource = [] := rfl
  have htrailing : trailingTrivia .initial (afterHashbang mixedSource) = [] := by
    rw [trailingTrivia_eq_upTo]
    cbv
  refine ⟨_, hread, rfl, hordered, hexact, pieces, hcut, hresult, ?_⟩
  rw [hwritten, hhashbang, htrailing] at hstrip
  exact Except.ok.inj (hstrip.symm.trans hresult)

end ScriptBundle
