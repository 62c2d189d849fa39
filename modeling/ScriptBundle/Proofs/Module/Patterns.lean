import ScriptBundle.Proofs.Module.Facing
import ScriptBundle.Proofs.Module.Leftover
import ScriptBundle.Proofs.Module.Operands
import ScriptBundle.Proofs.Token.Bounded

/-!
# Binding Patterns

The grammar of binding patterns and of the declarators made from them, with the names that they
bind. The readers of patterns and of declarators give exactly these names: a key binds nothing
unless it is a name that no pattern follows, and computed keys, default values and initialisers are
passed over.

## Main definitions

* `Binds`: the names that the tokens of a pattern, or of a part of one, bind;
* `DeclaratorsOf`: the names that declarators bind.

## Main statements

* `Binds.reads`: a pattern is read as the names that it binds;
* `declaratorNames_reads`: so are declarators;
* `exports_of_declarators`: exported variables are exported by these names.
-/

namespace ScriptBundle

/-! ### Grammar -/

/-- The two **shapes** of a pattern that is no name. -/
inductive PatternShape where
  | object
  | array
  deriving DecidableEq, Repr

namespace PatternShape

/-- The character that such a pattern starts with. -/
def opening : PatternShape → Char
  | object => '{'
  | array => '['

/-- The character that such a pattern ends with. -/
def closing : PatternShape → Char
  | object => '}'
  | array => ']'

end PatternShape

/-- The **parts** of a pattern. -/
inductive PatternPart where
  /-- A whole pattern. -/
  | pattern
  /-- The rest of a pattern behind its opening bracket or behind a comma. -/
  | entries (shape : PatternShape)
  /-- One property or element, without its default value. -/
  | entry (shape : PatternShape)
  deriving DecidableEq, Repr

/-- The **key** of a property, with the name that it binds if no pattern follows. -/
inductive IsKey : List TokenKind → Option String → Prop
  | name (name : String) : IsKey [.identifier name] (some name)
  | string (value : String) : IsKey [.string value] none
  | number : IsKey [.number] none
  | computed {key : List TokenKind} (h : IsOperand key) :
      IsKey (.punctuator '[' :: (key ++ [.punctuator ']'])) none

/-- The **default value** of an entry, if it has one. -/
inductive IsDefault : List TokenKind → Prop
  | none : IsDefault []
  | value {operand : List TokenKind} (h : IsOperand operand) :
      IsDefault (.punctuator '=' :: operand)

/-- The names that the tokens of a part of a pattern **bind**, from left to right. -/
inductive Binds : PatternPart → List TokenKind → List String → Prop
  | name (name : String) : Binds .pattern [.identifier name] [name]
  | bracketed {shape : PatternShape} {list : List TokenKind} {names : List String}
      (h : Binds (.entries shape) list names) :
      Binds .pattern (.punctuator shape.opening :: list) names
  | closed (shape : PatternShape) : Binds (.entries shape) [.punctuator shape.closing] []
  | last {shape : PatternShape} {entry value : List TokenKind} {names : List String}
      (h : Binds (.entry shape) entry names) (hvalue : IsDefault value) :
      Binds (.entries shape) (entry ++ (value ++ [.punctuator shape.closing])) names
  | more {shape : PatternShape} {entry value list : List TokenKind} {names others : List String}
      (h : Binds (.entry shape) entry names) (hvalue : IsDefault value)
      (further : Binds (.entries shape) list others) :
      Binds (.entries shape) (entry ++ (value ++ .punctuator ',' :: list)) (names ++ others)
  /-- An element may be left out. -/
  | hole {list : List TokenKind} {names : List String}
      (further : Binds (.entries .array) list names) :
      Binds (.entries .array) (.punctuator ',' :: list) names
  | shorthand (name : String) : Binds (.entry .object) [.identifier name] [name]
  | property {key pattern : List TokenKind} {bound : Option String} {names : List String}
      (hkey : IsKey key bound) (h : Binds .pattern pattern names) :
      Binds (.entry .object) (key ++ .punctuator ':' :: pattern) names
  | element {pattern : List TokenKind} {names : List String} (h : Binds .pattern pattern names) :
      Binds (.entry .array) pattern names
  | rest (shape : PatternShape) {pattern : List TokenKind} {names : List String}
      (h : Binds .pattern pattern names) :
      Binds (.entry shape)
        (.punctuator '.' :: .punctuator '.' :: .punctuator '.' :: pattern) names

/-- The **initialiser** of a declarator, if it has one. Behind its first token no line starts
outside of all brackets. -/
inductive IsInitialiser : List Token → Prop
  | none : IsInitialiser []
  | value {equals first : Token} {others : List Token} (hequals : equals.kind = .punctuator '=')
      (h : IsOperand ((first :: others).map (·.kind)))
      (hline : startsLine (depthAfter 0 first.kind) others = false) :
      IsInitialiser (equals :: first :: others)

/-- The names that **declarators** with commas between them bind, from left to right. -/
inductive DeclaratorsOf : List Token → List String → Prop
  | last {pattern initialiser : List Token} {names : List String}
      (h : Binds .pattern (pattern.map (·.kind)) names) (hinitialiser : IsInitialiser initialiser) :
      DeclaratorsOf (pattern ++ initialiser) names
  | more {pattern initialiser rest : List Token} {comma : Token} {names others : List String}
      (h : Binds .pattern (pattern.map (·.kind)) names) (hinitialiser : IsInitialiser initialiser)
      (hcomma : comma.kind = .punctuator ',') (further : DeclaratorsOf rest others) :
      DeclaratorsOf (pattern ++ (initialiser ++ comma :: rest)) (names ++ others)

/-! ### Parts of patterns -/

section

variable {c : Cursor} {kinds : List TokenKind}

theorem eatSpread_faces
    (h : c.Faces (.punctuator '.' :: .punctuator '.' :: .punctuator '.' :: kinds)) :
    ∃ a, eatSpread c = some a ∧ a.cursor.Faces kinds := by
  obtain ⟨first, hfirst, hfirstBehind⟩ := h.eatPunctuator
  obtain ⟨second, hsecond, hsecondBehind⟩ := hfirstBehind.eatPunctuator
  obtain ⟨third, hthird, hthirdBehind⟩ := hsecondBehind.eatPunctuator
  refine ⟨(first.trans (second.trans third)).map fun _ => (), ?_, hthirdBehind⟩
  simp [eatSpread, hfirst, hsecond, hthird]

theorem eatSpread_eq_none (h : c.Faces kinds) (hne : kinds.head? ≠ some (.punctuator '.')) :
    eatSpread c = none := by
  simp [eatSpread, h.eatPunctuator_eq_none '.' hne]

/-- A key is read up to its end, and a computed one is passed over. -/
theorem patternKey_faces {key : List TokenKind} {bound : Option String} (hkey : IsKey key bound)
    (h : c.Faces (key ++ kinds)) : Gives (patternKey c) bound kinds := by
  cases hkey with
  | name name =>
    obtain ⟨a, hbump, hkind, hbehind⟩ := h.bump
    rw [patternKey, hbump]
    simp only [hkind]
    exact ⟨_, rfl, rfl, hbehind⟩
  | string value =>
    obtain ⟨a, hbump, hkind, hbehind⟩ := h.bump
    rw [patternKey, hbump]
    simp only [hkind]
    exact ⟨_, rfl, rfl, hbehind⟩
  | number =>
    obtain ⟨a, hbump, hkind, hbehind⟩ := h.bump
    rw [patternKey, hbump]
    simp only [hkind]
    exact ⟨_, rfl, rfl, hbehind⟩
  | @computed key hoperand =>
    rw [List.cons_append, List.append_assoc, List.singleton_append] at h
    obtain ⟨a, hbump, hkind, hbehind⟩ := h.bump
    obtain ⟨inside, behind, hrest, rfl, hbehindKinds⟩ := List.map_eq_append_iff.mp hbehind
    obtain ⟨closing, others, rfl, hclosing, hothers⟩ := List.map_eq_cons_iff.mp hbehindKinds
    have hdepth : depthAfter 1 closing.kind = 0 := by
      rw [hclosing]
      rfl
    have hskip := skipBalanced_append (isBalanced_iff.mp hoperand.balanced) hdepth a.cursor.previous
      others
    rw [patternKey, hbump]
    simp only [hkind]
    refine ⟨_, rfl, rfl, ?_⟩
    change (skipBalanced 1 a.cursor.previous a.cursor.rest).rest.map (·.kind) = kinds
    rw [hrest]
    exact (congrArg (·.rest.map (·.kind)) hskip).trans hothers

/-- A default value is passed up to what ends it. -/
theorem skipInitialiser_faces {value : List TokenKind} {stop : TokenKind} (hvalue : IsDefault value)
    (hstop : stop.endsOperand = true) (h : c.Faces (value ++ stop :: kinds)) :
    (skipInitialiser false c).Faces (stop :: kinds) := by
  cases hvalue with
  | none =>
    have hnone : c.eatPunctuator '=' = none := by
      refine h.eatPunctuator_eq_none '=' ?_
      rintro hequals
      obtain rfl : stop = .punctuator '=' := by simpa using hequals
      cases hstop
    rw [skipInitialiser, hnone]
    exact h
  | value hoperand =>
    obtain ⟨equals, hequals, hbehind⟩ := h.eatPunctuator
    obtain ⟨operand, behind, hrest, rfl, hbehindKinds⟩ := List.map_eq_append_iff.mp hbehind
    obtain ⟨t, others, rfl, rfl, hothers⟩ := List.map_eq_cons_iff.mp hbehindKinds
    have hskip := skipExpression_operand hoperand hstop equals.cursor.previous others
    rw [skipInitialiser, hequals, Cursor.Faces]
    simp only [hrest, hskip, List.map_cons, hothers]

/-- What closes a pattern closes no bracket but that of the pattern. -/
theorem closePattern_faces {closing : Char} (h : c.Faces (.punctuator closing :: kinds)) :
    Gives (closePattern c closing) [] kinds := by
  obtain ⟨a, heat, hbehind⟩ := h.eatPunctuator
  rw [closePattern, heat]
  exact ⟨_, rfl, rfl, hbehind⟩

/-! ### Reading a pattern -/

/-- The reader of a part of a pattern. -/
def PatternPart.read : PatternPart → (c : Cursor) → Except SyntaxError (Advance c (List String))
  | pattern, c => bindingPattern c
  | entries .object, c => objectPattern c
  | entries .array, c => arrayPattern c
  | entry .object, c => objectEntry c
  | entry .array, c => arrayEntry c

/-- Whether an entry of a pattern may start with a token. -/
def TokenKind.opensEntry : TokenKind → Bool
  | identifier _ => true
  | string _ => true
  | number => true
  | punctuator c => c == '{' || c == '[' || c == '.'
  | _ => false

theorem IsKey.exists_head {key : List TokenKind} {bound : Option String} (h : IsKey key bound) :
    ∃ kind others, key = kind :: others ∧ kind.opensEntry = true ∧ kind ≠ .punctuator '.' := by
  cases h with
  | computed h => exact ⟨_, _, rfl, rfl, by simp⟩
  | _ => exact ⟨_, _, rfl, rfl, by simp⟩

/-- A pattern starts with a name or a bracket. -/
theorem Binds.exists_head_pattern {tokens : List TokenKind} {names : List String}
    (h : Binds .pattern tokens names) :
    ∃ kind others, tokens = kind :: others ∧ kind.opensEntry = true ∧ kind ≠ .punctuator '.' := by
  cases h with
  | name => exact ⟨_, _, rfl, rfl, by simp⟩
  | @bracketed shape =>
    cases shape with
    | object => exact ⟨_, _, rfl, rfl, by simp [PatternShape.opening]⟩
    | array => exact ⟨_, _, rfl, rfl, by simp [PatternShape.opening]⟩

/-- No entry starts with a comma or with what closes a pattern. -/
theorem Binds.exists_head_entry {shape : PatternShape} {tokens : List TokenKind}
    {names : List String} (h : Binds (.entry shape) tokens names) :
    ∃ kind others, tokens = kind :: others ∧ kind.opensEntry = true := by
  cases h with
  | shorthand => exact ⟨_, _, rfl, rfl⟩
  | property hkey =>
    obtain ⟨kind, others, rfl, hopens, -⟩ := hkey.exists_head
    exact ⟨kind, _, rfl, hopens⟩
  | element h =>
    obtain ⟨kind, others, rfl, hopens, -⟩ := h.exists_head_pattern
    exact ⟨kind, others, rfl, hopens⟩
  | rest => exact ⟨_, _, rfl, rfl⟩

/-- What opens an entry is none of these characters. -/
theorem TokenKind.opensEntry_ne {kind : TokenKind} (h : kind.opensEntry = true) {char : Char}
    (hchar : char = ',' ∨ char = '}' ∨ char = ']') : kind ≠ .punctuator char := by
  rintro rfl
  rcases hchar with rfl | rfl | rfl <;> cases h

/-- How an entry with its default value is read, and what closes the pattern behind it or separates
it from others. -/
theorem reads_entry {shape : PatternShape} {entry value : List TokenKind} {names : List String}
    {stop : TokenKind} (hentry : Binds (.entry shape) entry names)
    (hreads : ∀ (c : Cursor) (kinds : List TokenKind), c.Faces (entry ++ kinds) →
      kinds.head? ≠ some (.punctuator ':') → Gives ((PatternPart.entry shape).read c) names kinds)
    (hvalue : IsDefault value) (hstop : stop.endsOperand = true)
    (h : c.Faces (entry ++ (value ++ stop :: kinds))) :
    c.eatPunctuator ',' = none ∧ c.eatPunctuator shape.closing = none ∧
      ∃ a, (PatternPart.entry shape).read c = .ok a ∧ a.value = names ∧
        (skipInitialiser false a.cursor).Faces (stop :: kinds) := by
  obtain ⟨kind, others, rfl, hopens⟩ := hentry.exists_head_entry
  have hclosing : shape.closing = ',' ∨ shape.closing = '}' ∨ shape.closing = ']' := by
    cases shape <;> simp [PatternShape.closing]
  have hcolon : (value ++ stop :: kinds).head? ≠ some (.punctuator ':') := by
    cases hvalue with
    | none =>
      rintro hhead
      obtain rfl : stop = .punctuator ':' := by simpa using hhead
      cases hstop
    | value => simp
  obtain ⟨a, hread, hnames, hbehind⟩ := hreads c _ h hcolon
  refine ⟨h.eatPunctuator_eq_none ',' ?_, h.eatPunctuator_eq_none shape.closing ?_, a, hread,
    hnames,
    skipInitialiser_faces hvalue hstop hbehind⟩
  · simpa using TokenKind.opensEntry_ne hopens (.inl rfl)
  · simpa using TokenKind.opensEntry_ne hopens hclosing

section

variable {shape : PatternShape} {entry : Advance c (List String)}
  (hcomma : c.eatPunctuator ',' = none) (hclosing : c.eatPunctuator shape.closing = none)
  (hread : (PatternPart.entry shape).read c = .ok entry)
include hcomma hclosing hread

/-- An entry with no comma behind it is the last one. -/
theorem reads_last (hend : (skipInitialiser false entry.cursor).eatPunctuator ',' = none)
    (hclose : Gives (closePattern (skipInitialiser false entry.cursor) shape.closing) [] kinds) :
    Gives ((PatternPart.entries shape).read c) entry.value kinds := by
  have hvalue {names : List String} (hnames : names = []) : entry.value ++ names = entry.value := by
    rw [hnames, List.append_nil]
  cases shape with
  | object =>
    rw [PatternPart.read, objectPattern, show c.eatPunctuator '}' = none from hclosing,
      show objectEntry c = .ok entry from hread]
    simp only [Advance.moveTo_cursor, hend]
    exact hclose.map (fun _ hnames => hvalue hnames) fun _ => rfl
  | array =>
    rw [PatternPart.read, arrayPattern, show c.eatPunctuator ']' = none from hclosing, hcomma,
      show arrayEntry c = .ok entry from hread]
    simp only [Advance.moveTo_cursor, hend]
    exact hclose.map (fun _ hnames => hvalue hnames) fun _ => rfl

/-- Behind a comma the other entries follow. -/
theorem reads_more {comma : Advance (skipInitialiser false entry.cursor) Token}
    (heat : (skipInitialiser false entry.cursor).eatPunctuator ',' = some comma)
    {others : List String}
    (hothers : Gives ((PatternPart.entries shape).read comma.cursor) others kinds) :
    Gives ((PatternPart.entries shape).read c) (entry.value ++ others) kinds := by
  cases shape with
  | object =>
    rw [PatternPart.read, objectPattern, show c.eatPunctuator '}' = none from hclosing,
      show objectEntry c = .ok entry from hread]
    simp only [Advance.moveTo_cursor, heat]
    exact hothers.map (fun _ hnames => congrArg (entry.value ++ ·) hnames) fun _ => rfl
  | array =>
    rw [PatternPart.read, arrayPattern, show c.eatPunctuator ']' = none from hclosing, hcomma,
      show arrayEntry c = .ok entry from hread]
    simp only [Advance.moveTo_cursor, heat]
    exact hothers.map (fun _ hnames => congrArg (entry.value ++ ·) hnames) fun _ => rfl

end

/-- **Reading a pattern.** The tokens of a part of a pattern are read as the names that they bind,
up to what is behind them, unless that is a colon, which would make a key of a name. -/
theorem Binds.reads {part : PatternPart} {tokens : List TokenKind} {names : List String}
    (hbinds : Binds part tokens names) (c : Cursor) (kinds : List TokenKind)
    (h : c.Faces (tokens ++ kinds)) (hcolon : kinds.head? ≠ some (.punctuator ':')) :
    Gives (part.read c) names kinds := by
  -- By induction on the derivation: each constructor is one branch of the readers, and what stands
  -- behind a part is the rest of the pattern around it.
  induction hbinds generalizing c kinds with
  | name name =>
    obtain ⟨a, hbump, hkind, hbehind⟩ := h.bump
    rw [PatternPart.read, bindingPattern, hbump]
    simp only [hkind]
    exact ⟨_, rfl, rfl, hbehind⟩
  | @bracketed shape list names hentries ih =>
    obtain ⟨a, hbump, hkind, hbehind⟩ := h.bump
    have hlist := ih a.cursor kinds hbehind hcolon
    rw [PatternPart.read, bindingPattern, hbump]
    cases shape with
    | object =>
      simp only [hkind, PatternShape.opening]
      exact hlist.map (fun _ hvalue => hvalue) fun _ => rfl
    | array =>
      simp only [hkind, PatternShape.opening]
      exact hlist.map (fun _ hvalue => hvalue) fun _ => rfl
  | closed shape =>
    obtain ⟨a, heat, hbehind⟩ := h.eatPunctuator
    cases shape with
    | object =>
      rw [PatternPart.read, objectPattern, show c.eatPunctuator '}' = some a from heat]
      exact ⟨_, rfl, rfl, hbehind⟩
    | array =>
      rw [PatternPart.read, arrayPattern, show c.eatPunctuator ']' = some a from heat]
      exact ⟨_, rfl, rfl, hbehind⟩
  | @last shape entry value names hentry hvalue ih =>
    have hstop : (TokenKind.punctuator shape.closing).endsOperand = true := by cases shape <;> rfl
    have hnext : (TokenKind.punctuator shape.closing) ≠ .punctuator ',' := by
      cases shape <;> simp [PatternShape.closing]
    rw [List.append_assoc, List.append_assoc, List.singleton_append] at h
    obtain ⟨hcomma, hclosing, a, hread, rfl, hbehind⟩ :=
      reads_entry hentry (fun c kinds => ih c kinds) hvalue hstop h
    have hend := hbehind.eatPunctuator_eq_none ',' (by simpa using hnext)
    exact reads_last hcomma hclosing hread hend (closePattern_faces hbehind)
  | @more shape entry value list names others hentry hvalue further ihEntry ihList =>
    rw [List.append_assoc, List.append_assoc, List.cons_append] at h
    obtain ⟨hcomma, hclosing, a, hread, rfl, hbehind⟩ :=
      reads_entry hentry (fun c kinds => ihEntry c kinds) hvalue rfl h
    obtain ⟨comma, heat, hcommaBehind⟩ := hbehind.eatPunctuator
    exact reads_more hcomma hclosing hread heat (ihList comma.cursor kinds hcommaBehind hcolon)
  | hole further ih =>
    obtain ⟨comma, heat, hbehind⟩ := h.eatPunctuator
    have hlist := ih comma.cursor kinds hbehind hcolon
    rw [PatternPart.read, arrayPattern, h.eatPunctuator_eq_none ']' (by simp), heat]
    exact hlist.map (fun _ hvalue => hvalue) fun _ => rfl
  | shorthand name =>
    obtain ⟨key, hkey, hbound, hbehind⟩ := patternKey_faces (.name name) h
    rw [PatternPart.read, objectEntry, eatSpread_eq_none h (by simp), hkey]
    simp only [hbehind.eatPunctuator_eq_none ':' hcolon, hbound]
    exact ⟨_, rfl, rfl, hbehind⟩
  | property hkey hpattern ih =>
    rw [List.append_assoc, List.cons_append] at h
    obtain ⟨kind, others, rfl, -, hpoint⟩ := hkey.exists_head
    obtain ⟨key, hread, -, hbehind⟩ := patternKey_faces hkey h
    obtain ⟨colon, heat, hcolonBehind⟩ := hbehind.eatPunctuator
    rw [PatternPart.read, objectEntry, eatSpread_eq_none h (by simpa using hpoint), hread]
    simp only [heat]
    exact (ih colon.cursor kinds hcolonBehind hcolon).map (fun _ hvalue => hvalue) fun _ => rfl
  | element hpattern ih =>
    obtain ⟨kind, others, rfl, -, hpoint⟩ := hpattern.exists_head_pattern
    rw [PatternPart.read, arrayEntry, eatSpread_eq_none h (by simpa using hpoint)]
    exact ih c kinds h hcolon
  | rest shape hpattern ih =>
    obtain ⟨spread, heat, hbehind⟩ := eatSpread_faces h
    have hnames := ih spread.cursor kinds hbehind hcolon
    cases shape with
    | object =>
      rw [PatternPart.read, objectEntry, heat]
      exact hnames.map (fun _ hvalue => hvalue) fun _ => rfl
    | array =>
      rw [PatternPart.read, arrayEntry, heat]
      exact hnames.map (fun _ hvalue => hvalue) fun _ => rfl

end

/-! ### Declarators -/

/-- A pattern leaves the tokens behind it. -/
theorem Binds.reads_tokens {pattern behind : List Token} {names : List String}
    (h : Binds .pattern (pattern.map (·.kind)) names) {c : Cursor}
    (hrest : c.rest = pattern ++ behind)
    (hcolon : (behind.map (·.kind)).head? ≠ some (.punctuator ':')) :
    ∃ a, bindingPattern c = .ok a ∧ a.value = names ∧ a.cursor.rest = behind := by
  have hfaces : c.Faces (pattern.map (·.kind) ++ behind.map (·.kind)) := by
    rw [Cursor.Faces, hrest, List.map_append]
  obtain ⟨a, hread, hnames, hbehind⟩ := h.reads c _ hfaces hcolon
  obtain ⟨passed, hpassed, -⟩ := (patternsPass _).bindingPattern (Nat.le_refl _) hread
  have hlength := congrArg List.length hbehind
  rw [List.length_map, List.length_map] at hlength
  exact ⟨a, hread, hnames, (List.append_inj' (hpassed.rest.symm.trans hrest) hlength).2⟩

/-- An initialiser is passed up to what ends it. -/
theorem IsInitialiser.skipInitialiser {initialiser : List Token} (h : IsInitialiser initialiser)
    {c : Cursor} {stop : Token} {rest : List Token} (hstop : stop.kind.endsOperand = true)
    (hrest : c.rest = initialiser ++ stop :: rest) :
    (skipInitialiser true c).rest = stop :: rest := by
  obtain ⟨previous, ts⟩ := c
  obtain rfl : ts = initialiser ++ stop :: rest := hrest
  cases h with
  | none =>
    have hnone : Cursor.eatPunctuator ⟨previous, stop :: rest⟩ '=' = .none := by
      have hne : stop.isPunctuator '=' = false := by
        rw [← Bool.not_eq_true]
        intro heq
        rw [show stop.kind = .punctuator '=' by simpa [Token.isPunctuator] using heq] at hstop
        cases hstop
      simp [Cursor.eatPunctuator, Cursor.eat, Cursor.bump, hne]
    rw [List.nil_append, ScriptBundle.skipInitialiser, hnone]
  | @value equals first others hequals hoperand hline =>
    have hprevious : (some equals).any (endsExpression ·.kind) = false := by
      rw [Option.any_some, hequals]
      rfl
    have heat : equals.isPunctuator '=' = true := by simp [Token.isPunctuator, hequals]
    simp only [ScriptBundle.skipInitialiser, Cursor.eatPunctuator, Cursor.eat, Cursor.bump,
      List.cons_append, Option.filter_some, heat, if_true]
    exact skipExpression_line hoperand hline hstop hprevious rest

/-- **Reading declarators.** They are read as the names that they bind, up to the semicolon behind
them. -/
theorem declaratorNames_reads {ts : List Token} {names : List String} (h : DeclaratorsOf ts names)
    {semicolon : Token} (hsemicolon : semicolon.kind = .punctuator ';') {c : Cursor}
    {rest : List Token} (hrest : c.rest = ts ++ semicolon :: rest) :
    ∃ a, declaratorNames c = .ok a ∧ a.value = names ∧ a.cursor.rest = semicolon :: rest := by
  -- Behind a pattern there is its initialiser or what ends it, and so no colon.
  have hcolon : ∀ {initialiser : List Token} {stop : Token} {others : List Token},
      IsInitialiser initialiser → stop.kind.endsOperand = true →
      ((initialiser ++ stop :: others).map (·.kind)).head? ≠ some (.punctuator ':') := by
    intro initialiser stop others hinitialiser hstop
    cases hinitialiser with
    | none =>
      rintro heq
      rw [show stop.kind = .punctuator ':' by simpa using heq] at hstop
      cases hstop
    | value hequals => simp [hequals]
  induction h generalizing c with
  | @last pattern initialiser names hpattern hinitialiser =>
    rw [List.append_assoc] at hrest
    have hstop : semicolon.kind.endsOperand = true := by rw [hsemicolon]; rfl
    obtain ⟨a, hread, rfl, hbehind⟩ := hpattern.reads_tokens hrest (hcolon hinitialiser hstop)
    have hskip := hinitialiser.skipInitialiser hstop hbehind
    have hnone : (skipInitialiser true a.cursor).eatPunctuator ',' = none := by
      have hfaces : (skipInitialiser true a.cursor).Faces
          (.punctuator ';' :: rest.map (·.kind)) := by
        rw [Cursor.Faces, hskip, List.map_cons, hsemicolon]
      exact hfaces.eatPunctuator_eq_none ',' (by simp)
    rw [declaratorNames, hread]
    simp only [Advance.moveTo_cursor, hnone]
    exact ⟨_, rfl, rfl, hskip⟩
  | @more pattern initialiser further comma names others hpattern hinitialiser hcomma _ ih =>
    rw [List.append_assoc, List.append_assoc, List.cons_append] at hrest
    have hstop : comma.kind.endsOperand = true := by rw [hcomma]; rfl
    obtain ⟨a, hread, rfl, hbehind⟩ := hpattern.reads_tokens hrest (hcolon hinitialiser hstop)
    have hskip := hinitialiser.skipInitialiser hstop hbehind
    have hfaces : (skipInitialiser true a.cursor).Faces
        (.punctuator ',' :: (further ++ semicolon :: rest).map (·.kind)) := by
      rw [Cursor.Faces, hskip, List.map_cons, hcomma]
    obtain ⟨passed, heat, -⟩ := hfaces.eatPunctuator
    have hpassed := (eatPunctuator_passes heat).rest
    rw [hskip] at hpassed
    obtain ⟨b, hothers, rfl, hothersBehind⟩ := ih (List.cons.inj hpassed).2.symm
    rw [declaratorNames, hread]
    simp only [Advance.moveTo_cursor, heat, hothers]
    exact ⟨_, rfl, rfl, hothersBehind⟩

/-- An interface without declarations adds none. -/
theorem Interface.append_empty (found : Interface) : found ++ Interface.empty = found := by
  obtain ⟨imports, exports, edits⟩ := found
  change Interface.mk (imports ++ []) (exports ++ []) (edits ++ []) = ⟨imports, exports, edits⟩
  rw [List.append_nil, List.append_nil, List.append_nil]

/-- A statement with exported variables is read up to the semicolon at its end. -/
theorem exportStatement_declarators {keyword word semicolon : Token} {ts rest : List Token}
    {names : List String}
    (hword : ∃ name, (name = "const" ∨ name = "let" ∨ name = "var") ∧ word.kind = .identifier name)
    (hts : DeclaratorsOf ts names) (hsemicolon : semicolon.kind = .punctuator ';') {c : Cursor}
    (hrest : c.rest = keyword :: word :: (ts ++ semicolon :: rest)) :
    ∃ a, exportStatement c = .ok (some a) ∧
      a.value = declared keyword.start word.start names ∧ a.cursor.rest = semicolon :: rest := by
  obtain ⟨previous, tokens⟩ := c
  obtain rfl : tokens = keyword :: word :: (ts ++ semicolon :: rest) := hrest
  obtain ⟨names, hread, rfl, hbehind⟩ := declaratorNames_reads hts hsemicolon
    (c := ⟨some word, ts ++ semicolon :: rest⟩) rfl
  obtain ⟨a, ha, hvalue, hcursor⟩ := (exportStatement_variables hword).1 names hread
  exact ⟨a, ha, hvalue, hcursor ▸ hbehind⟩

/-- **Exported variables.** A statement that exports variables, be they bound by names or by
patterns of any depth, exports exactly the names that its patterns bind, from left to right, and
only the word `export` is taken out of it. -/
theorem exports_of_declarators {source : Text} {keyword word semicolon : Token} {ts : List Token}
    {names : List String} (htokens : tokenize source = keyword :: word :: (ts ++ [semicolon]))
    (hkeyword : keyword.kind = .identifier "export")
    (hword : ∃ name, (name = "const" ∨ name = "let" ∨ name = "var") ∧ word.kind = .identifier name)
    (hts : DeclaratorsOf ts names) (hsemicolon : semicolon.kind = .punctuator ';') :
    Interface.read source = .ok
      { imports := [], exports := names.map .named
        edits := [keywordRemoval keyword.start word.start] } := by
  obtain ⟨a, hread, hvalue, hbehind⟩ := exportStatement_declarators hword hts hsemicolon
    (c := .ofSource source) htokens
  have hstatement : moduleStatement 0 (.ofSource source) = .ok (some a) := by
    have himport : (Cursor.ofSource source).atName "import" = false := by
      simp [Cursor.atName, Cursor.peek, Cursor.ofSource, htokens, Token.isName, hkeyword]
    have hexport : (Cursor.ofSource source).atName "export" = true := by
      simp [Cursor.atName, Cursor.peek, Cursor.ofSource, htokens, Token.isName, hkeyword]
    rw [moduleStatement, if_pos ⟨rfl, rfl⟩, himport, if_neg Bool.false_ne_true, if_pos hexport]
    exact hread
  have hrest : interfaceFrom 0 a.cursor = .ok .empty := by
    rw [interfaceFrom_eq_empty_iff, hbehind, List.map_singleton, hsemicolon]
    simp [hasBareWord, isBareWord]
  rw [Interface.read, interfaceFrom_of_statement hstatement, hrest, hvalue]
  exact congrArg Except.ok (Interface.append_empty _)

/-- A source whose pattern has a key, an array in an object, a default value, a hole, a rest
element, a computed key and a trailing comma. -/
def nestedSource : Text := "export let {a: [b = 1, , ...c], [d + 2]: e,} = f, g;".toList

/-- The variables of such a source are exported. -/
theorem exports_of_declarators_of_nested :
    ∃ found, Interface.read nestedSource = .ok found ∧
      found.exports = [.named "b", .named "c", .named "e", .named "g"] := by
  have hnumber : IsOperand [.number] := ⟨by simp, rfl, rfl⟩
  have hkey : IsOperand [.identifier "d", .punctuator '+', .number] := ⟨by simp, rfl, rfl⟩
  have hvariable : IsOperand [.identifier "f"] := ⟨by simp, rfl, rfl⟩
  have hinner := Binds.bracketed (Binds.more (.element (.name "b")) (.value hnumber)
    (.hole (.last (.rest .array (.name "c")) .none)))
  have hpattern := Binds.bracketed (Binds.more (.property (.name "a") hinner) .none
    (.more (.property (.computed hkey) (.name "e")) .none (.closed .object)))
  have hkinds : ∃ kinds, (tokenize nestedSource).map (·.kind) =
      .identifier "export" :: .identifier "let" :: (kinds ++ [.punctuator '=', .identifier "f",
        .punctuator ',', .identifier "g", .punctuator ';']) ∧
      Binds .pattern kinds ["b", "c", "e"] := by
    refine ⟨_, ?_, hpattern⟩
    simp only [tokenize_eq_upTo]
    cbv
  obtain ⟨kinds, hkinds, hbinds⟩ := hkinds
  obtain ⟨keyword, behind, htokens, hkeyword, hbehind⟩ := List.map_eq_cons_iff.mp hkinds
  obtain ⟨word, behind, rfl, hword, hbehind⟩ := List.map_eq_cons_iff.mp hbehind
  obtain ⟨pattern, behind, rfl, rfl, hend⟩ := List.map_eq_append_iff.mp hbehind
  obtain ⟨equals, behind, rfl, hequals, hend⟩ := List.map_eq_cons_iff.mp hend
  obtain ⟨value, behind, rfl, hvalue, hend⟩ := List.map_eq_cons_iff.mp hend
  obtain ⟨comma, behind, rfl, hcomma, hend⟩ := List.map_eq_cons_iff.mp hend
  obtain ⟨second, behind, rfl, hsecond, hend⟩ := List.map_eq_cons_iff.mp hend
  obtain ⟨semicolon, behind, rfl, hsemicolon, hend⟩ := List.map_eq_cons_iff.mp hend
  obtain rfl := List.map_eq_nil_iff.mp hend
  have hinitialiser : IsInitialiser [equals, value] :=
    .value hequals (by rw [List.map_singleton, hvalue]; exact hvariable) rfl
  have hname : Binds .pattern ([second].map (·.kind)) ["g"] := by
    rw [List.map_singleton, hsecond]
    exact .name "g"
  have hts := DeclaratorsOf.more hbinds hinitialiser hcomma (.last hname .none)
  exact ⟨_, exports_of_declarators (by simpa using htokens) hkeyword ⟨"let", by simp, hword⟩ hts
    hsemicolon, rfl⟩

end ScriptBundle
