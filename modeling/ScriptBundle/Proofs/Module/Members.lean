import ScriptBundle.Proofs.Module.Edits
import ScriptBundle.Proofs.Module.Facing
import ScriptBundle.Proofs.Module.Swallowing
import ScriptBundle.Proofs.Token.Slash

/-!
# Names of Members

The word behind a point is the name of a member, whatever it is spelled like. Neither the lexer,
where a slash follows, nor the reader of initialisers, where a line ends, looks at the token before
a word: both go by its spelling.

## Main definitions

* `ComesToInitialiser`: whether the reader of declarators comes to an initialiser;
* `Initialises`: whether tokens are the initialiser of an exported variable.

## Main statements

* `ReadsTo.total`: of two places that the reader gets to, it gets to one of them from the other;
* `Initialises.readsTo_next`: whether an initialiser ends in front of the next line;
* `member_read`: what follows the name of a member.
-/

namespace ScriptBundle

/-! ### The reader of a module, step by step -/

/-- The reader gets from place to place. -/
theorem ReadsTo.trans {depth depth' depth'' : Nat} {c c' c'' : Cursor}
    (h : ReadsTo depth c depth' c') (h' : ReadsTo depth' c' depth'' c'') :
    ReadsTo depth c depth'' c'' := by
  induction h with
  | refl => exact h'
  | token none bump _ ih => exact .token none bump (ih h')
  | statement found _ ih => exact .statement found (ih h')

/-- The reader does not go back. -/
theorem ReadsTo.length_le {depth depth' : Nat} {c c' : Cursor} (h : ReadsTo depth c depth' c') :
    c'.rest.length ≤ c.rest.length := by
  induction h with
  | refl => exact Nat.le_refl _
  | @token _ _ _ _ a none bump _ ih => exact Nat.le_trans ih (Nat.le_of_lt a.shorter)
  | @statement _ _ _ _ a found _ ih => exact Nat.le_trans ih (Nat.le_of_lt a.shorter)

/-- Of two places that the reader gets to, it gets to one of them from the other. -/
theorem ReadsTo.total {depth depth₁ depth₂ : Nat} {c c₁ c₂ : Cursor}
    (h₁ : ReadsTo depth c depth₁ c₁) (h₂ : ReadsTo depth c depth₂ c₂) :
    ReadsTo depth₁ c₁ depth₂ c₂ ∨ ReadsTo depth₂ c₂ depth₁ c₁ := by
  induction h₁ with
  | refl => exact .inl h₂
  | token none bump further ih =>
    cases h₂ with
    | refl => exact .inr (.token none bump further)
    | token none' bump' further' =>
      obtain rfl := Option.some.inj (bump.symm.trans bump')
      exact ih further'
    | statement found => simp [none] at found
  | statement found further ih =>
    cases h₂ with
    | refl => exact .inr (.statement found further)
    | token none => simp [found] at none
    | statement found' further' =>
      obtain rfl := Option.some.inj (Except.ok.inj (found.symm.trans found'))
      exact ih further'

/-- What is declared behind a place that the reader gets to is the last part of what is declared. -/
theorem ReadsTo.exists_append {depth depth' : Nat} {c c' : Cursor} (h : ReadsTo depth c depth' c')
    {found : Interface} (hfound : interfaceFrom depth c = .ok found) :
    ∃ front further, interfaceFrom depth' c' = .ok further ∧ found = front ++ further := by
  induction h generalizing found with
  | refl => exact ⟨.empty, found, hfound, rfl⟩
  | token none bump _ ih =>
    rw [interfaceFrom_of_token none bump] at hfound
    exact ih hfound
  | @statement _ _ _ _ a statement _ ih =>
    rw [interfaceFrom_of_statement statement] at hfound
    obtain ⟨others, hothers, rfl⟩ := map_eq_ok_iff.mp hfound
    obtain ⟨front, further, hfurther, rfl⟩ := ih hothers
    exact ⟨a.value ++ front, further, hfurther, (a.value.append_assoc front further).symm⟩

/-- What a statement declares that the reader gets to is among what the module declares. -/
theorem ReadsTo.mem_found {depth : Nat} {c c' : Cursor} (h : ReadsTo depth c 0 c')
    {found : Interface} (hfound : interfaceFrom depth c = .ok found) {a : Advance c' Interface}
    (hstatement : moduleStatement 0 c' = .ok (some a)) :
    (∀ edit ∈ a.value.edits, edit ∈ found.edits) ∧
      ∀ declared ∈ a.value.exports, declared ∈ found.exports := by
  obtain ⟨front, further, hfurther, rfl⟩ := h.exists_append hfound
  rw [interfaceFrom_of_statement hstatement] at hfurther
  obtain ⟨others, -, rfl⟩ := map_eq_ok_iff.mp hfurther
  exact ⟨fun edit hedit => List.mem_append_right _ (List.mem_append_left _ hedit),
    fun declared hdeclared => List.mem_append_right _ (List.mem_append_left _ hdeclared)⟩

/-- Of tokens that stand one behind the other no two start at the same place. -/
theorem eq_of_start_eq {ts others rest : List Token} {t u : Token}
    (hpairwise : ts.Pairwise fun t u => t.stop ≤ u.start) (htext : ∀ t ∈ ts, t.start < t.stop)
    (h : t :: others <:+ ts) (h' : u :: rest <:+ ts) (hstart : t.start = u.start) :
    t :: others = u :: rest := by
  have hbehind {t u : Token} {others rest : List Token} (h : t :: others <:+ u :: rest)
      (h' : u :: rest <:+ ts) (hstart : t.start = u.start) : t :: others = u :: rest := by
    rcases List.suffix_cons_iff.mp h with heq | hlater
    · exact heq
    · exfalso
      have hle := (List.pairwise_cons.mp (hpairwise.sublist h'.sublist)).1 t (hlater.mem (by simp))
      have hlt := htext u (h'.mem (by simp))
      omega
  rcases List.suffix_or_suffix_of_suffix h h' with hsuffix | hsuffix
  · exact hbehind hsuffix h' hstart
  · exact (hbehind hsuffix h hstart.symm).symm

section

variable {source : Text} {found : Interface} (hfound : Interface.read source = .ok found)
  {t : Token} {rest : List Token}

include hfound

/-- A bare word that the reader gets to is taken out. -/
theorem exists_edit_of_readsTo {previous : Option Token}
    (hreads : ReadsTo 0 (.ofSource source) 0 ⟨previous, t :: rest⟩)
    (hbare : isBareWord 0 (previous.map (·.kind)) t.kind (rest.head?.map (·.kind)) = true) :
    ∃ edit ∈ found.edits, edit.span.start = t.start := by
  obtain ⟨-, -, further, -, hfurther, -⟩ := hreads.exists_front hfound
  rw [interfaceFrom] at hfurther
  cases hstatement : moduleStatement 0 ⟨previous, t :: rest⟩ with
  | error e => simp [hstatement] at hfurther
  | ok statement =>
    obtain ⟨a, rfl, hne⟩ := moduleStatement_of_bare rfl hbare hstatement
    obtain ⟨edit, hedit⟩ := List.exists_mem_of_ne_nil _ hne
    obtain ⟨run, behind, hrun, hreplaces⟩ := moduleStatement_replaces hstatement edit hedit
    obtain ⟨first, hfirst, hstart⟩ := hreplaces.start
    obtain ⟨others, rfl⟩ := List.head?_eq_some_iff.mp hfirst
    obtain ⟨rfl, -⟩ := List.cons_eq_cons.mp hrun
    exact ⟨edit, (hreads.mem_found hfound hstatement).1 edit hedit, hstart.symm⟩

/-- The reader gets to the first token of what is taken out, and finds a statement there. -/
theorem exists_readsTo_of_start (hsuffix : t :: rest <:+ tokenize source) {edit : Edit}
    (hedit : edit ∈ found.edits) (hstart : edit.span.start = t.start) :
    ∃ previous, ReadsTo 0 (.ofSource source) 0 ⟨previous, t :: rest⟩ ∧
      ∃ a, moduleStatement 0 ⟨previous, t :: rest⟩ = .ok (some a) := by
  obtain ⟨c, a, hreads, hstatement, -, hrest, hreplaces⟩ := exists_statement_of_edit hfound hedit
  obtain ⟨front, -, -, hfront, -⟩ := hreads.exists_front hfound
  obtain ⟨first, hfirst, hfirstStart⟩ := hreplaces.start
  obtain ⟨others, hothers⟩ := List.head?_eq_some_iff.mp hfirst
  rw [hothers, List.cons_append] at hrest
  have hfirstSuffix : c.rest <:+ tokenize source := ⟨front, hfront.symm⟩
  rw [hrest] at hfirstSuffix
  have hsame := eq_of_start_eq (pairwise_tokenize source) start_lt_stop_of_mem_tokenize
    hfirstSuffix hsuffix (hfirstStart.trans hstart)
  refine ⟨c.previous, ?_⟩
  rw [← hsame, ← hrest]
  exact ⟨hreads, a, hstatement⟩

end

/-! ### Initialisers -/

/-- Tokens that are passed over by themselves are passed over in front of others, too. -/
theorem skipExpression_passed {inStatement : Bool} {depth : Nat} {previous : Option Token}
    {ts : List Token} (h : (skipExpression inStatement depth previous ts).rest = [])
    (rest : List Token) :
    skipExpression inStatement depth previous (ts ++ rest) =
      skipExpression inStatement (depthBehind depth ts) (ts.getLast?.or previous) rest := by
  induction ts generalizing depth previous with
  | nil => rfl
  | cons t ts ih =>
    rw [skipExpression] at h
    split at h
    · simp at h
    · next hgoes =>
      have hlast : (t :: ts).getLast?.or previous = ts.getLast?.or (some t) := by
        rw [List.getLast?_cons]
        cases ts.getLast? <;> rfl
      rw [List.cons_append, skipExpression, if_neg hgoes, ih h, hlast]
      rfl

/-- Whether the reader of declarators **comes to an initialiser**: to the place behind its equals
sign. -/
inductive ComesToInitialiser : Cursor → Cursor → Prop
  | first {c : Cursor} {pattern : Advance c (List String)} {equals : Advance pattern.cursor Token}
      (hpattern : bindingPattern c = .ok pattern)
      (hequals : pattern.cursor.eatPunctuator '=' = some equals) :
      ComesToInitialiser c equals.cursor
  | further {c c' : Cursor} {pattern : Advance c (List String)}
      {comma : Advance (skipInitialiser true pattern.cursor) Token}
      (hpattern : bindingPattern c = .ok pattern)
      (hcomma : (skipInitialiser true pattern.cursor).eatPunctuator ',' = some comma)
      (h : ComesToInitialiser comma.cursor c') : ComesToInitialiser c c'

/-- An initialiser stands behind the start of its declarator. -/
theorem ComesToInitialiser.length_lt {c c' : Cursor} (h : ComesToInitialiser c c') :
    c'.rest.length < c.rest.length := by
  induction h with
  | @first c pattern equals hpattern hequals => exact Nat.lt_trans equals.shorter pattern.shorter
  | @further c c' pattern comma hpattern hcomma h ih =>
    have hskip := skipInitialiser_length true pattern.cursor
    have hcomma := comma.shorter
    have hpattern := pattern.shorter
    omega

/-- The tokens from an initialiser on are the last ones of its declarators. -/
theorem ComesToInitialiser.suffix {c c' : Cursor} (h : ComesToInitialiser c c') :
    c'.rest <:+ c.rest := by
  have hpasses {c : Cursor} {pattern : Advance c (List String)}
      (hpattern : bindingPattern c = .ok pattern) : pattern.cursor.rest <:+ c.rest := by
    obtain ⟨passed, hpassed, -⟩ := (patternsPass _).bindingPattern (Nat.le_refl _) hpattern
    exact ⟨passed, hpassed.rest.symm⟩
  induction h with
  | @first c pattern equals hpattern hequals =>
    have hbehind : equals.cursor.rest <:+ pattern.cursor.rest :=
      ⟨_, (eatPunctuator_passes hequals).rest.symm⟩
    exact hbehind.trans (hpasses hpattern)
  | @further c c' pattern comma hpattern hcomma h ih =>
    obtain ⟨skipped, hskipped⟩ := skipInitialiser_closes true pattern.cursor
    have hbehind : comma.cursor.rest <:+ pattern.cursor.rest :=
      .trans ⟨_, (eatPunctuator_passes hcomma).rest.symm⟩ ⟨skipped, hskipped.rest.symm⟩
    exact (ih.trans hbehind).trans (hpasses hpattern)

/-- The declarators end with an initialiser behind which there is no comma, and never before one. -/
theorem ComesToInitialiser.declaratorNames {c c' : Cursor} (h : ComesToInitialiser c c') :
    ((skipExpression true 0 c'.previous c'.rest).eatPunctuator ',' = none →
      ∃ a, declaratorNames c = .ok a ∧ a.cursor = skipExpression true 0 c'.previous c'.rest) ∧
    ∀ a, ScriptBundle.declaratorNames c = .ok a →
      a.cursor.rest.length ≤ (skipExpression true 0 c'.previous c'.rest).rest.length := by
  induction h with
  | @first c pattern equals hpattern hequals =>
    have hskip : skipInitialiser true pattern.cursor =
        skipExpression true 0 equals.cursor.previous equals.cursor.rest := by
      rw [skipInitialiser, hequals]
    rw [← hskip]
    refine ⟨fun hnone => ?_, fun a ha => ?_⟩
    · rw [ScriptBundle.declaratorNames, hpattern]
      simp only [Advance.moveTo_cursor, hnone]
      exact ⟨_, rfl, rfl⟩
    · rw [ScriptBundle.declaratorNames, hpattern] at ha
      simp only [Advance.moveTo_cursor] at ha
      split at ha
      · obtain rfl := Except.ok.inj ha
        exact Nat.le_refl _
      · next comma hcomma =>
        obtain ⟨others, -, rfl⟩ := map_eq_ok_iff.mp ha
        exact Nat.le_of_lt (Nat.lt_trans others.shorter comma.shorter)
  | @further c c' pattern comma hpattern hcomma h ih =>
    refine ⟨fun hnone => ?_, fun a ha => ?_⟩
    · obtain ⟨others, hothers, hbehind⟩ := ih.1 hnone
      rw [ScriptBundle.declaratorNames, hpattern]
      simp only [Advance.moveTo_cursor, hcomma, hothers]
      exact ⟨_, rfl, hbehind⟩
    · rw [ScriptBundle.declaratorNames, hpattern] at ha
      simp only [Advance.moveTo_cursor, hcomma] at ha
      obtain ⟨others, hothers, rfl⟩ := map_eq_ok_iff.mp ha
      exact ih.2 others hothers

/-- Whether tokens are the **initialiser** of an exported variable, as far as it stands in front of
others: the reader of the module gets to the word `export` at `c`, that of the declarators comes to
the initialiser at `c'`, and it passes over these tokens, which leave no bracket open. -/
structure Initialises (source : Text) (c c' : Cursor) (value behind : List Token) : Prop where
  reads : ReadsTo 0 (.ofSource source) 0 c
  member : isMember c.previous = false
  comes : ∃ keyword word rest, c.rest = keyword :: word :: rest ∧
    keyword.kind = .identifier "export" ∧
    (∃ name, (name = "const" ∨ name = "let" ∨ name = "var") ∧ word.kind = .identifier name) ∧
    ComesToInitialiser ⟨some word, rest⟩ c'
  tokens : c'.rest = value ++ behind
  passed : (skipExpression true 0 c'.previous value).rest = []
  closed : depthBehind 0 value = 0

section

variable {source : Text} {c c' : Cursor} {value behind : List Token} {last next : Token}

/-- Behind its last token an initialiser goes on or ends like any expression. -/
theorem Initialises.skip_eq (h : Initialises source c c' (value ++ [last]) behind) :
    skipExpression true 0 c'.previous c'.rest = skipExpression true 0 (some last) behind := by
  rw [h.tokens, skipExpression_passed h.passed, h.closed, List.getLast?_concat]
  rfl

/-- The statement at the word `export` is that of the declarators. -/
theorem Initialises.statement (h : Initialises source c c' value behind) :
    ((skipExpression true 0 c'.previous c'.rest).eatPunctuator ',' = none →
      ∃ a, moduleStatement 0 c = .ok (some a) ∧
        a.cursor = skipExpression true 0 c'.previous c'.rest) ∧
    moduleStatement 0 c ≠ .ok none ∧
    ∀ a, moduleStatement 0 c = .ok (some a) →
      a.cursor.rest.length ≤ (skipExpression true 0 c'.previous c'.rest).rest.length := by
  obtain ⟨keyword, word, rest, hrest, hkeyword, hword, hcomes⟩ := h.comes
  have hfaces : c.Faces (.identifier "export" :: (word :: rest).map (·.kind)) := by
    simp [Cursor.Faces, hrest, hkeyword]
  have hstatement := moduleStatement_export hfaces h.member
  have hnone := moduleStatement_ne_none hrest rfl h.member
    (Token.isModuleKeyword_of_export (by simp [Token.isName, hkeyword]))
  rw [hstatement] at hnone ⊢
  obtain ⟨previous, ts⟩ := c
  obtain rfl : ts = keyword :: word :: rest := hrest
  obtain ⟨hends, hlength⟩ := hcomes.declaratorNames
  obtain ⟨hread, hback⟩ := exportStatement_variables hword
  refine ⟨fun hcomma => ?_, hnone, fun a ha => ?_⟩
  · obtain ⟨names, hnames, hbehind⟩ := hends hcomma
    obtain ⟨a, ha, -, hcursor⟩ := hread names hnames
    exact ⟨a, ha, hcursor.trans hbehind⟩
  · obtain ⟨names, hnames, hcursor⟩ := hback a ha
    rw [hcursor]
    exact hlength names hnames

/-- An initialiser stands behind the word `export`. -/
theorem Initialises.length_lt (h : Initialises source c c' value behind) :
    behind.length < c.rest.length := by
  obtain ⟨keyword, word, rest, hrest, -, -, hcomes⟩ := h.comes
  have hlength := hcomes.length_lt
  have htokens := congrArg List.length h.tokens
  rw [List.length_append] at htokens
  rw [hrest, List.length_cons, List.length_cons]
  change c'.rest.length < rest.length at hlength
  omega

/-- **Where an initialiser ends.** The reader gets to a word on the next line if an expression may
end with the token in front of it. Otherwise it does not get there at all. -/
theorem Initialises.readsTo_next (h : Initialises source c c' (value ++ [last]) (next :: behind))
    (hline : next.newlineBefore = true) (hstarts : startsStatement next.kind = true) {name : String}
    (hnext : next.kind = .identifier name) :
    (endsExpression last.kind = true → ReadsTo 0 (.ofSource source) 0 ⟨some last, next :: behind⟩) ∧
      ∀ previous, ReadsTo 0 (.ofSource source) 0 ⟨previous, next :: behind⟩ →
        endsExpression last.kind = true := by
  obtain ⟨hends, hsome, hlength⟩ := h.statement
  have hbefore : endsBefore true (some last) next = endsExpression last.kind := by
    rw [hnext] at hstarts
    rw [Bool.eq_iff_iff]
    simp [endsBefore, hline, hstarts, hnext, TokenKind.isClosing, Token.isPunctuator]
  rw [h.skip_eq, skipExpression, hbefore] at hends hlength
  refine ⟨fun hlast => ?_, fun previous hreads => ?_⟩
  · rw [if_pos ⟨rfl, hlast⟩] at hends
    obtain ⟨a, ha, hcursor⟩ := hends (by
      simp [Cursor.eatPunctuator, Cursor.eat, Cursor.bump, Token.isPunctuator, hnext])
    rw [← hcursor]
    exact h.reads.trans (.statement ha (.refl 0 a.cursor))
  · by_contra hlast
    have hfront := h.length_lt
    have hpassed : ∀ a, moduleStatement 0 c = .ok (some a) →
        a.cursor.rest.length ≤ behind.length := by
      intro a ha
      have hle := hlength a ha
      rw [if_neg fun hand => hlast hand.2] at hle
      exact Nat.le_trans hle (skipExpression_length _ _ _ _)
    -- The place would lie behind the word `export` and in front of the end of its statement.
    rcases h.reads.total hreads with hbehind | hbehind
    · cases hbehind with
      | refl => exact absurd hfront (Nat.lt_irrefl _)
      | token none => exact hsome none
      | statement found further =>
        have hle := further.length_le
        have hshort := hpassed _ found
        simp only [List.length_cons] at hle
        omega
    · have hle := hbehind.length_le
      simp only at hle
      omega

/-- What stands behind an initialiser are the last tokens of the source. -/
theorem Initialises.suffix (h : Initialises source c c' value behind) {found : Interface}
    (hfound : Interface.read source = .ok found) : behind <:+ tokenize source := by
  obtain ⟨front, -, -, hfront, -⟩ := h.reads.exists_front hfound
  obtain ⟨keyword, word, rest, hrest, -, -, hcomes⟩ := h.comes
  have hbehind : behind <:+ c'.rest := ⟨value, h.tokens.symm⟩
  have hc : c.rest <:+ tokenize source := ⟨front, hfront.symm⟩
  rw [hrest] at hc
  exact ((hbehind.trans hcomes.suffix).trans ⟨[keyword, word], rfl⟩).trans hc

end

/-! ### Members -/

/-- **The name of a member is read like any other word.** A slash behind it divides unless it is
spelled like a word that an operand follows, and an initialiser ends with it in front of a word on
the next line unless it is spelled like a word that no expression ends with. Only where the
initialiser ends does the reader get to that word, and only then is the statement taken out that it
may start. -/
theorem member_read {source : Text} {dot member : Token} {name : String} :
    dot.kind = .punctuator '.' → member.kind = .identifier name →
    (∀ front slash behind, tokenize source = front ++ dot :: member :: slash :: behind →
      slash.text.head? = some '/' →
        (slash.kind = .punctuator '/' ↔ expectsOperand name = false) ∧
        (slash.IsRegexLike ↔ expectsOperand name = true)) ∧
    ∀ c c' value next behind word,
      Initialises source c c' (value ++ [dot, member]) (next :: behind) →
      next.newlineBefore = true → next.kind = .identifier word → word ∉ ["in", "instanceof", "of"] →
        (ReadsTo 0 (.ofSource source) 0 ⟨some member, next :: behind⟩ ↔
          endsExpression (.identifier name) = true) ∧
        ∀ found, Interface.read source = .ok found →
          isBareWord 0 (some member.kind) next.kind (behind.head?.map (·.kind)) = true →
            ((∃ edit ∈ found.edits, edit.span.start = next.start) ↔
              endsExpression (.identifier name) = true) := by
  intro _ hmember
  refine ⟨fun front slash behind htokens hslash => ?_,
    fun c c' value next behind word h hline hnext hword => ?_⟩
  · rw [List.append_cons] at htokens
    exact slash_behind_name htokens hmember hslash
  · rw [List.append_cons] at h
    have hstarts : startsStatement next.kind = true := by
      rw [hnext, startsStatement, Bool.not_eq_true', ← Bool.not_eq_true, List.contains_iff_mem]
      exact hword
    obtain ⟨hends, hgets⟩ := h.readsTo_next hline hstarts hnext
    rw [hmember] at hends hgets
    refine ⟨⟨hgets _, hends⟩, fun found hfound hbare => ⟨?_, fun hlast => ?_⟩⟩
    · rintro ⟨edit, hedit, hstart⟩
      obtain ⟨previous, hreads, -⟩ := exists_readsTo_of_start hfound (h.suffix hfound) hedit hstart
      exact hgets previous hreads
    · exact exists_edit_of_readsTo hfound (hends hlast) hbare

/-- A source whose initialiser ends with a member that is spelled like an operator. -/
def operatorMemberSource : Text := "export const a = b.in\nimport 'c'".toList

/-- The import behind such a member is taken for a part of the initialiser, and a slash for the
start of a regular expression. -/
theorem member_read_of_operator :
    let dot : Token := ⟨⟨[], ['.'], .punctuator '.', false⟩, 18⟩
    let member : Token := ⟨⟨[], "in".toList, .identifier "in", false⟩, 19⟩
    let next : Token := ⟨⟨['\n'], "import".toList, .identifier "import", true⟩, 22⟩
    let behind : List Token := [⟨⟨[' '], "'c'".toList, .string "c", false⟩, 29⟩]
    (∃ c c' value,
      Initialises operatorMemberSource c c' (value ++ [dot, member]) (next :: behind)) ∧
      (¬ReadsTo 0 (.ofSource operatorMemberSource) 0 ⟨some member, next :: behind⟩) ∧
      (∃ found, Interface.read operatorMemberSource = .ok found ∧
        ¬∃ edit ∈ found.edits, edit.span.start = next.start) ∧
      ∃ front slash, tokenize "a.in/b".toList =
          front ++ { dot with start := 1 } :: { member with start := 2 } :: slash :: [] ∧
        slash.text = "/b".toList ∧ slash.IsRegexLike := by
  intro dot member next behind
  let value : List Token := [⟨⟨[' '], ['b'], .identifier "b", false⟩, 17⟩]
  let pattern : Token := ⟨⟨[' '], ['a'], .identifier "a", false⟩, 13⟩
  let equals : Token := ⟨⟨[' '], ['='], .punctuator '=', false⟩, 15⟩
  have htokens : tokenize operatorMemberSource =
      ⟨⟨[], "export".toList, .identifier "export", false⟩, 0⟩ ::
        ⟨⟨[' '], "const".toList, .identifier "const", false⟩, 7⟩ ::
        pattern :: equals :: (value ++ [dot, member] ++ next :: behind) := by
    rw [tokenize_eq_upTo]
    cbv
  have hread : Interface.read operatorMemberSource =
      .ok { exports := [.named "a"], edits := [⟨⟨0, 7⟩, .nothing⟩] } := by
    simp only [Interface.read, Cursor.ofSource, tokenize_eq_upTo]
    cbv
  have hcomes (previous : Option Token) (rest : List Token) :
      ComesToInitialiser ⟨previous, pattern :: equals :: rest⟩ ⟨some equals, rest⟩ := by
    have hpattern : bindingPattern ⟨previous, pattern :: equals :: rest⟩ =
        .ok ⟨["a"], ⟨some pattern, equals :: rest⟩, Nat.lt_succ_self _⟩ := by
      rw [bindingPattern]
      rfl
    have hequals : (⟨some pattern, equals :: rest⟩ : Cursor).eatPunctuator '=' =
        some ⟨equals, ⟨some equals, rest⟩, Nat.lt_succ_self _⟩ := rfl
    exact .first hpattern hequals
  have hinitialises : Initialises operatorMemberSource (.ofSource operatorMemberSource)
      ⟨some equals, value ++ [dot, member] ++ next :: behind⟩ (value ++ [dot, member])
      (next :: behind) :=
    { reads := .refl 0 _
      member := rfl
      comes := ⟨_, _, _, htokens, rfl, ⟨"const", by simp, rfl⟩, hcomes _ _⟩
      tokens := rfl
      passed := by decide
      closed := rfl }
  have hslash : tokenize "a.in/b".toList = [⟨⟨[], ['a'], .identifier "a", false⟩, 0⟩] ++
      { dot with start := 1 } :: { member with start := 2 } ::
        ⟨⟨[], "/b".toList, .unterminated, false⟩, 4⟩ :: [] := by
    rw [tokenize_eq_upTo]
    cbv
  have hdot : dot.kind = .punctuator '.' := rfl
  have hmember : member.kind = .identifier "in" := rfl
  have hnot : endsExpression (.identifier "in") = false := rfl
  obtain ⟨hreads, hedits⟩ :=
    (member_read hdot hmember).2 _ _ _ _ _ _ hinitialises rfl rfl (by decide)
  rw [hnot] at hreads hedits
  refine ⟨⟨_, _, _, hinitialises⟩, fun h => Bool.false_ne_true (hreads.mp h),
    ⟨_, hread, fun h => Bool.false_ne_true ((hedits _ hread (by decide)).mp h)⟩, _, _, hslash, rfl,
    ?_⟩
  let nearDot : Token := { dot with start := 1 }
  let nearMember : Token := { member with start := 2 }
  have hdot' : nearDot.kind = .punctuator '.' := rfl
  have hmember' : nearMember.kind = .identifier "in" := rfl
  obtain ⟨-, hregex⟩ := (member_read hdot' hmember').1 _ _ _ hslash rfl
  exact hregex.mpr rfl

end ScriptBundle
