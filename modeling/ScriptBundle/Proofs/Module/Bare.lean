import ScriptBundle.Module.Statement

/-!
# Bare Tokens

A reader of module syntax looks at no more of a token than its kind and whether a line ends in front
of it. The characters and the place of a token go into the offsets of errors and edits, and nothing
else of what is read depends on them: reading commutes with taking them away.

## Main definitions

* `Token.bare`, `Cursor.bare`, `Advance.bare`: tokens without characters and places;
* `bareResult`: an outcome whose error has no place.

## Main statements

* `bindingPattern_bare`, `declaratorNames_bare`, ...: each reader reads bare tokens like all others.
-/

namespace ScriptBundle

/-- A **bare** token has neither characters nor a place. -/
def Token.bare (t : Token) : Token := ⟨⟨[], [], t.kind, t.newlineBefore⟩, 0⟩

/-- A cursor among bare tokens. -/
def Cursor.bare (c : Cursor) : Cursor := ⟨c.previous.map Token.bare, c.rest.map Token.bare⟩

/-- An advance among bare tokens, with a value that goes with them. -/
def Advance.bare (f : α → β) {c : Cursor} (a : Advance c α) : Advance c.bare β :=
  ⟨f a.value, a.cursor.bare, by simpa [Cursor.bare] using a.shorter⟩

/-- The outcome of reading bare tokens: an error has no place, and a value goes with the tokens. -/
def bareResult (f : α → β) : Except SyntaxError α → Except SyntaxError β
  | .error e => .error ⟨e.fault, 0⟩
  | .ok a => .ok (f a)

@[simp] theorem bareResult_ok (f : α → β) (a : α) : bareResult f (.ok a) = .ok (f a) := rfl

/-- Outcomes that are changed alike on both sides. -/
theorem map_bareResult {x : Except SyntaxError α} {y : Except SyntaxError β} {f : α → β}
    (hread : y = bareResult f x) {g : β → δ} {k : α → γ} {h : γ → δ}
    (hcommutes : ∀ a, g (f a) = h (k a)) : y.map g = bareResult h (x.map k) := by
  subst hread
  cases x with
  | error e => rfl
  | ok a => exact congrArg Except.ok (hcommutes a)

/-- Outcomes of tokens that only differ in characters and places. -/
theorem eq_of_bareResult {f : α → β} {x y : Except SyntaxError α}
    (h : bareResult f x = bareResult f y) :
    (∃ e e', x = .error e ∧ y = .error e' ∧ e'.fault = e.fault) ∨
      ∃ a b, x = .ok a ∧ y = .ok b ∧ f b = f a := by
  rcases x with e | a <;> rcases y with e' | b
  · obtain ⟨hfault, -⟩ := SyntaxError.mk.inj (Except.error.inj h)
    exact .inl ⟨e, e', rfl, rfl, hfault.symm⟩
  · cases h
  · cases h
  · exact .inr ⟨a, b, rfl, rfl, (Except.ok.inj h).symm⟩

/-- Steps that are changed alike on both sides. -/
theorem bind_map {x : Option α} {y : Option β} {f : α → β} (hstep : y = x.map f)
    {g : β → Option δ} {k : α → Option γ} {h : γ → δ}
    (hcommutes : ∀ a, g (f a) = (k a).map h) : y.bind g = (x.bind k).map h := by
  subst hstep
  cases x with
  | none => rfl
  | some a => exact hcommutes a

/-- An advance is its value and its end. -/
theorem Advance.eq_of_cursor {c : Cursor} {a b : Advance c α} (hvalue : a.value = b.value)
    (hcursor : a.cursor = b.cursor) : a = b := by
  obtain ⟨value, cursor, shorter⟩ := a
  obtain rfl : value = b.value := hvalue
  obtain rfl : cursor = b.cursor := hcursor
  rfl

@[simp] theorem Advance.bare_cursor (f : α → β) {c : Cursor} (a : Advance c α) :
    (a.bare f).cursor = a.cursor.bare := rfl

/-- The token that is passed is of the same kind. -/
@[simp] theorem Advance.bare_kind {c : Cursor} (a : Advance c Token) :
    (a.bare Token.bare).value.kind = a.value.kind := rfl

/-! ### Cursors -/

namespace Cursor

/-- A step among bare tokens. -/
theorem bump_bare (c : Cursor) : c.bare.bump = c.bump.map (Advance.bare Token.bare) := by
  obtain ⟨previous, rest⟩ := c
  cases rest with
  | nil => rfl
  | cons t rest => rfl

/-- A conditional step among bare tokens, if the condition is about what they keep. -/
theorem eat_bare {accept : Token → Bool} (haccept : ∀ t : Token, accept t.bare = accept t)
    (c : Cursor) : c.bare.eat accept = (c.eat accept).map (Advance.bare Token.bare) := by
  have hsame : (fun a : Advance c.bare Token => accept a.value) ∘ Advance.bare Token.bare =
      fun a : Advance c Token => accept a.value := funext fun a => haccept a.value
  rw [eat, eat, bump_bare, Option.filter_map, hsame]

theorem eatPunctuator_bare (c : Cursor) (char : Char) :
    c.bare.eatPunctuator char = (c.eatPunctuator char).map (Advance.bare Token.bare) :=
  eat_bare (fun _ => rfl) c

theorem eatName_bare (c : Cursor) (name : String) :
    c.bare.eatName name = (c.eatName name).map (Advance.bare Token.bare) :=
  eat_bare (fun _ => rfl) c

theorem peek_bare (c : Cursor) : c.bare.peek = c.peek.map Token.bare := List.head?_map

theorem peekNth_bare (c : Cursor) (n : Nat) :
    c.bare.peekNth n = (c.peekNth n).map Token.bare := List.getElem?_map

/-- A question about what bare tokens keep. -/
theorem any_bare {p : Token → Bool} (hp : ∀ t : Token, p t.bare = p t) (t? : Option Token) :
    (t?.map Token.bare).any p = t?.any p := by
  rw [Option.any_map]
  exact congrArg (Option.any · t?) (funext hp)

theorem atPunctuator_bare (c : Cursor) (char : Char) :
    c.bare.atPunctuator char = c.atPunctuator char := by
  rw [atPunctuator, peek_bare]
  exact any_bare (fun _ => rfl) c.peek

theorem atName_bare (c : Cursor) (name : String) : c.bare.atName name = c.atName name := by
  rw [atName, peek_bare]
  exact any_bare (fun _ => rfl) c.peek

theorem atContinuation_bare (c : Cursor) : c.bare.atContinuation = c.atContinuation := by
  rw [atContinuation, peek_bare]
  exact any_bare (fun _ => rfl) c.peek

/-- Errors among bare tokens are found at the place that all of them have. -/
theorem fail_bare (f : α → β) (c : Cursor) (fault : SyntaxFault) :
    c.bare.fail fault = bareResult f (c.fail fault) := by
  obtain ⟨previous, rest⟩ := c
  cases rest with
  | nil => cases previous <;> rfl
  | cons t rest => rfl

end Cursor

/-! ### Passing over expressions -/

theorem skipBalanced_bare (depth : Nat) (previous : Option Token) (ts : List Token) :
    skipBalanced depth (previous.map Token.bare) (ts.map Token.bare) =
      (skipBalanced depth previous ts).bare := by
  fun_induction skipBalanced depth previous ts with
  | case1 depth previous => rfl
  | case2 depth previous t rest inside hinside => exact if_pos hinside
  | case3 depth previous t rest inside hinside ih => exact (if_neg hinside).trans ih

/-- Where an expression ends does not depend on characters and places. -/
theorem endsBefore_bare (inStatement : Bool) (previous : Option Token) (t : Token) :
    endsBefore inStatement (previous.map Token.bare) t.bare =
      endsBefore inStatement previous t := by
  cases previous <;> rfl

theorem skipExpression_bare (inStatement : Bool) (depth : Nat) (previous : Option Token)
    (ts : List Token) :
    skipExpression inStatement depth (previous.map Token.bare) (ts.map Token.bare) =
      (skipExpression inStatement depth previous ts).bare := by
  fun_induction skipExpression inStatement depth previous ts with
  | case1 depth previous => rfl
  | case2 depth previous t rest hend =>
    rw [List.map_cons, skipExpression, endsBefore_bare, if_pos hend]
    rfl
  | case3 depth previous t rest hend ih =>
    rw [List.map_cons, skipExpression, endsBefore_bare, if_neg hend]
    exact ih

theorem skipInitialiser_bare (inStatement : Bool) (c : Cursor) :
    skipInitialiser inStatement c.bare = (skipInitialiser inStatement c).bare := by
  rw [skipInitialiser, skipInitialiser, c.eatPunctuator_bare]
  cases c.eatPunctuator '=' with
  | none => rfl
  | some a => exact skipExpression_bare inStatement 0 a.cursor.previous a.cursor.rest

/-! ### Patterns -/

theorem eatSpread_bare (c : Cursor) : eatSpread c.bare = (eatSpread c).map (Advance.bare id) := by
  refine bind_map (c.eatPunctuator_bare '.') fun first => ?_
  refine bind_map (first.cursor.eatPunctuator_bare '.') fun second => ?_
  exact bind_map (second.cursor.eatPunctuator_bare '.') fun third => rfl

theorem patternKey_bare (c : Cursor) :
    patternKey c.bare = bareResult (Advance.bare id) (patternKey c) := by
  rw [patternKey, patternKey, c.bump_bare]
  cases c.bump with
  | none => exact c.fail_bare _ _
  | some a =>
    simp only [Option.map_some, Advance.bare_kind]
    split
    · rfl
    · rfl
    · rfl
    · exact congrArg Except.ok (Advance.eq_of_cursor rfl
        (skipBalanced_bare 1 a.cursor.previous a.cursor.rest))
    · exact c.fail_bare _ _

theorem closePattern_bare (c : Cursor) (closing : Char) :
    closePattern c.bare closing = bareResult (Advance.bare id) (closePattern c closing) := by
  rw [closePattern, closePattern, c.eatPunctuator_bare]
  cases c.eatPunctuator closing with
  | none => exact c.fail_bare _ _
  | some a => rfl

/-- An entry of a pattern with the initialiser that may follow it. -/
theorem moveTo_skipInitialiser_bare (inStatement : Bool) {c : Cursor}
    (a : Advance c (List String)) :
    (a.bare id).moveTo (skipInitialiser inStatement (a.bare id).cursor)
        (skipInitialiser_length _ _) =
      (a.moveTo (skipInitialiser inStatement a.cursor) (skipInitialiser_length _ _)).bare id :=
  Advance.eq_of_cursor rfl (skipInitialiser_bare inStatement a.cursor)

mutual

-- The recursion is that of the readers, with the same measures.

/-- The readers of patterns read bare tokens like all others. -/
theorem bindingPattern_bare (c : Cursor) :
    bindingPattern c.bare = bareResult (Advance.bare id) (bindingPattern c) := by
  rw [bindingPattern, bindingPattern, c.bump_bare]
  cases c.bump with
  | none => exact c.fail_bare _ _
  | some a =>
    have := a.shorter
    simp only [Option.map_some, Advance.bare_kind]
    split
    · rfl
    · exact map_bareResult (objectPattern_bare a.cursor) fun _ => rfl
    · exact map_bareResult (arrayPattern_bare a.cursor) fun _ => rfl
    · exact c.fail_bare _ _
termination_by 3 * c.rest.length

theorem objectPattern_bare (c : Cursor) :
    objectPattern c.bare = bareResult (Advance.bare id) (objectPattern c) := by
  rw [objectPattern, objectPattern, c.eatPunctuator_bare]
  cases c.eatPunctuator '}' with
  | some a => rfl
  | none =>
    rw [objectEntry_bare]
    cases objectEntry c with
    | error e => rfl
    | ok entry =>
      have hbare := moveTo_skipInitialiser_bare false entry
      simp only [Option.map_none, bareResult_ok]
      -- The cursor behind the initialiser stands in types, so it cannot be rewritten in place.
      generalize entry.moveTo _ _ = front at hbare ⊢
      generalize (entry.bare id).moveTo _ _ = bareFront at hbare ⊢
      subst hbare
      have := front.shorter
      have hcomma := front.cursor.eatPunctuator_bare ','
      simp only [Advance.bare_cursor, hcomma]
      cases front.cursor.eatPunctuator ',' with
      | some comma =>
        have := comma.shorter
        exact map_bareResult (objectPattern_bare comma.cursor) fun _ => rfl
      | none => exact map_bareResult (closePattern_bare front.cursor '}') fun _ => rfl
termination_by 3 * c.rest.length + 1

theorem objectEntry_bare (c : Cursor) :
    objectEntry c.bare = bareResult (Advance.bare id) (objectEntry c) := by
  rw [objectEntry, objectEntry, eatSpread_bare]
  cases eatSpread c with
  | some a =>
    have := a.shorter
    exact map_bareResult (bindingPattern_bare a.cursor) fun _ => rfl
  | none =>
    rw [patternKey_bare]
    cases patternKey c with
    | error e => rfl
    | ok key =>
      have hcolon := key.cursor.eatPunctuator_bare ':'
      have := key.shorter
      simp only [Option.map_none, bareResult_ok, Advance.bare_cursor, hcolon]
      cases key.cursor.eatPunctuator ':' with
      | some a =>
        have := a.shorter
        exact map_bareResult (bindingPattern_bare a.cursor) fun _ => rfl
      | none =>
        have hname : (key.bare id).value = key.value := rfl
        simp only [Option.map_none, hname]
        split
        · rfl
        · exact key.cursor.fail_bare _ _
termination_by 3 * c.rest.length

theorem arrayPattern_bare (c : Cursor) :
    arrayPattern c.bare = bareResult (Advance.bare id) (arrayPattern c) := by
  rw [arrayPattern, arrayPattern, c.eatPunctuator_bare, c.eatPunctuator_bare]
  cases c.eatPunctuator ']' with
  | some a => rfl
  | none =>
    cases c.eatPunctuator ',' with
    | some hole =>
      have := hole.shorter
      exact map_bareResult (arrayPattern_bare hole.cursor) fun _ => rfl
    | none =>
      rw [arrayEntry_bare]
      cases arrayEntry c with
      | error e => rfl
      | ok entry =>
        have hbare := moveTo_skipInitialiser_bare false entry
        simp only [Option.map_none, bareResult_ok]
        generalize entry.moveTo _ _ = front at hbare ⊢
        generalize (entry.bare id).moveTo _ _ = bareFront at hbare ⊢
        subst hbare
        have := front.shorter
        have hcomma := front.cursor.eatPunctuator_bare ','
        simp only [Advance.bare_cursor, hcomma]
        cases front.cursor.eatPunctuator ',' with
        | some comma =>
          have := comma.shorter
          exact map_bareResult (arrayPattern_bare comma.cursor) fun _ => rfl
        | none => exact map_bareResult (closePattern_bare front.cursor ']') fun _ => rfl
termination_by 3 * c.rest.length + 2

theorem arrayEntry_bare (c : Cursor) :
    arrayEntry c.bare = bareResult (Advance.bare id) (arrayEntry c) := by
  rw [arrayEntry, arrayEntry, eatSpread_bare]
  cases eatSpread c with
  | some a =>
    have := a.shorter
    exact map_bareResult (bindingPattern_bare a.cursor) fun _ => rfl
  | none => exact bindingPattern_bare c
termination_by 3 * c.rest.length + 1

end

theorem declaratorNames_bare (c : Cursor) :
    declaratorNames c.bare = bareResult (Advance.bare id) (declaratorNames c) := by
  rw [declaratorNames, declaratorNames, bindingPattern_bare]
  cases bindingPattern c with
  | error e => rfl
  | ok pattern =>
    have hbare := moveTo_skipInitialiser_bare true pattern
    simp only [bareResult_ok]
    generalize pattern.moveTo _ _ = front at hbare ⊢
    generalize (pattern.bare id).moveTo _ _ = bareFront at hbare ⊢
    subst hbare
    have := front.shorter
    have hcomma := front.cursor.eatPunctuator_bare ','
    simp only [Advance.bare_cursor, hcomma]
    cases front.cursor.eatPunctuator ',' with
    | none => rfl
    | some comma =>
      have := comma.shorter
      exact map_bareResult (declaratorNames_bare comma.cursor) fun _ => rfl
termination_by c.rest.length

end ScriptBundle
