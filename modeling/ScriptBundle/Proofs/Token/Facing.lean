import ScriptBundle.Token.Cursor

/-!
# Tokens Ahead

Most readers ask for no more of a token than its kind. What such a reader does is settled by the
kinds of the tokens that its cursor faces.

## Main definitions

* `Cursor.Faces`: whether a cursor faces tokens of given kinds;
* `Gives`: whether a reader gives a value and leaves given tokens;
* `commaSeparated`: parts with commas between them;
* `Separated`: how parts with commas between them are read.

## Main statements

* `Cursor.Faces.bump`, `Cursor.Faces.eatPunctuator`, ...: steps towards known tokens;
* `separated_commaSeparated`: parts with commas between them, and behind the last one or not, are
  read as the parts.
-/

namespace ScriptBundle

/-- Whether a cursor **faces** tokens of the given kinds, with none behind them. -/
def Cursor.Faces (c : Cursor) (kinds : List TokenKind) : Prop := c.rest.map (·.kind) = kinds

/-- Whether a reader **gives** a value and leaves the cursor in front of the given tokens. -/
def Gives {c : Cursor} (read : Except SyntaxError (Advance c α)) (value : α)
    (behind : List TokenKind) : Prop :=
  ∃ a, read = .ok a ∧ a.value = value ∧ a.cursor.Faces behind

/-! ### Steps -/

namespace Cursor.Faces

variable {c : Cursor} {kind : TokenKind} {kinds : List TokenKind}

/-- A step passes the first token. -/
theorem bump (h : c.Faces (kind :: kinds)) :
    ∃ a, c.bump = some a ∧ a.value.kind = kind ∧ a.cursor.Faces kinds := by
  obtain ⟨previous, rest⟩ := c
  obtain ⟨t, others, rfl, hkind, hothers⟩ := List.map_eq_cons_iff.mp h
  exact ⟨_, rfl, hkind, hothers⟩

/-- The first token can be looked at. -/
theorem peek (h : c.Faces (kind :: kinds)) : ∃ t, c.peek = some t ∧ t.kind = kind := by
  obtain ⟨t, others, hrest, hkind, -⟩ := List.map_eq_cons_iff.mp h
  exact ⟨t, by rw [Cursor.peek, hrest, List.head?_cons], hkind⟩

/-- A question about the first token goes by its kind. -/
theorem any_peek (h : c.Faces kinds) {p : Token → Bool} {q : TokenKind → Bool}
    (hsame : ∀ t : Token, p t = q t.kind) : c.peek.any p = kinds.head?.any q := by
  obtain rfl : c.rest.map (·.kind) = kinds := h
  rw [List.head?_map, Option.any_map, Cursor.peek]
  exact congrArg (Option.any · c.rest.head?) (funext hsame)

/-- So does a question about a token behind it. -/
theorem any_peekNth (h : c.Faces kinds) (q : TokenKind → Bool) (n : Nat) :
    (c.peekNth n).any (fun t => q t.kind) = kinds[n]?.any q := by
  obtain rfl : c.rest.map (·.kind) = kinds := h
  rw [List.getElem?_map, Option.any_map, Cursor.peekNth]

theorem atPunctuator (h : c.Faces kinds) (char : Char) :
    c.atPunctuator char = kinds.head?.any (· == .punctuator char) :=
  h.any_peek fun _ => rfl

theorem atName (h : c.Faces kinds) (name : String) :
    c.atName name = kinds.head?.any (· == .identifier name) :=
  h.any_peek fun _ => rfl

/-- A conditional step passes a first token that is accepted. -/
theorem eat (h : c.Faces (kind :: kinds)) (accept : Token → Bool)
    (haccept : ∀ t : Token, t.kind = kind → accept t = true) :
    ∃ a, c.eat accept = some a ∧ a.value.kind = kind ∧ a.cursor.Faces kinds := by
  obtain ⟨a, hbump, hkind, hbehind⟩ := h.bump
  refine ⟨a, ?_, hkind, hbehind⟩
  rw [Cursor.eat, hbump, Option.filter_some, if_pos (haccept _ hkind)]

/-- A conditional step passes no other first token. -/
theorem eat_eq_none (h : c.Faces kinds) {accept : Token → Bool}
    (hrefuse : ∀ t : Token, kinds.head? = some t.kind → accept t = false) :
    c.eat accept = none := by
  cases kinds with
  | nil =>
    have hrest : c.rest = [] := List.map_eq_nil_iff.mp h
    obtain ⟨previous, rest⟩ := c
    obtain rfl : rest = [] := hrest
    rfl
  | cons kind kinds =>
    obtain ⟨a, hbump, hkind, -⟩ := h.bump
    have haccept := hrefuse a.value (by rw [hkind, List.head?_cons])
    rw [Cursor.eat, hbump, Option.filter_some, if_neg (by simp [haccept])]

theorem eatPunctuator {char : Char} (h : c.Faces (.punctuator char :: kinds)) :
    ∃ a, c.eatPunctuator char = some a ∧ a.cursor.Faces kinds := by
  obtain ⟨a, heat, -, hbehind⟩ := h.eat (·.isPunctuator char) fun t ht => by
    simp [Token.isPunctuator, ht]
  exact ⟨a, heat, hbehind⟩

theorem eatPunctuator_eq_none (h : c.Faces kinds) (char : Char)
    (hne : kinds.head? ≠ some (.punctuator char)) : c.eatPunctuator char = none :=
  h.eat_eq_none fun t ht => by
    rw [ht] at hne
    simpa [Token.isPunctuator] using hne

theorem eatName {name : String} (h : c.Faces (.identifier name :: kinds)) :
    ∃ a, c.eatName name = some a ∧ a.cursor.Faces kinds := by
  obtain ⟨a, heat, -, hbehind⟩ := h.eat (·.isName name) fun t ht => by
    simp [Token.isName, ht]
  exact ⟨a, heat, hbehind⟩

theorem eatName_eq_none (h : c.Faces kinds) (name : String)
    (hne : kinds.head? ≠ some (.identifier name)) : c.eatName name = none :=
  h.eat_eq_none fun t ht => by
    rw [ht] at hne
    simpa [Token.isName] using hne

end Cursor.Faces

/-- A reader whose value is changed gives the changed value. -/
theorem Gives.map {c d : Cursor} {read : Except SyntaxError (Advance c α)} {value : α}
    {behind : List TokenKind} (h : Gives read value behind) {f : Advance c α → Advance d β}
    {other : β} (hvalue : ∀ a, a.value = value → (f a).value = other)
    (hcursor : ∀ a, (f a).cursor = a.cursor) : Gives (read.map f) other behind := by
  obtain ⟨a, rfl, ha, hbehind⟩ := h
  exact ⟨f a, rfl, hvalue a ha, hcursor a ▸ hbehind⟩

/-! ### Parts with commas between them -/

/-- Parts with **commas** between them, and one behind the last part if it is asked for. -/
def commaSeparated (comma : α) (trailing : Bool) : List (List α) → List α
  | [] => []
  | [part] => part ++ if trailing then [comma] else []
  | part :: next :: rest => part ++ comma :: commaSeparated comma trailing (next :: rest)

theorem map_commaSeparated (f : α → β) (comma : α) (trailing : Bool) (parts : List (List α)) :
    (commaSeparated comma trailing parts).map f =
      commaSeparated (f comma) trailing (parts.map (List.map f)) := by
  fun_induction commaSeparated comma trailing parts with
  | case1 => rfl
  | case2 part => cases trailing <;> simp [commaSeparated]
  | case3 part next rest ih => simpa [commaSeparated] using ih

/-- What holds of the comma and of all parts holds of everything. -/
theorem forall_mem_commaSeparated {p : α → Prop} {comma : α} (hcomma : p comma) (trailing : Bool)
    {parts : List (List α)} (h : ∀ part ∈ parts, ∀ a ∈ part, p a) :
    ∀ a ∈ commaSeparated comma trailing parts, p a := by
  fun_induction commaSeparated comma trailing parts with
  | case1 => simp
  | case2 part =>
    intro a ha
    rcases List.mem_append.mp ha with ha | ha
    · exact h part (by simp) a ha
    · cases trailing with
      | false => simp at ha
      | true => exact List.mem_singleton.mp ha ▸ hcomma
  | case3 part next rest ih =>
    intro a ha
    rcases List.mem_append.mp ha with ha | ha
    · exact h part (by simp) a ha
    · rcases List.mem_cons.mp ha with rfl | ha
      · exact hcomma
      · exact ih (fun other hother => h other (List.mem_cons_of_mem _ hother)) a ha

/-- How **separated** parts are read up to the token that closes them: behind a comma there may be
another part or the closing token. -/
inductive Separated (closing : TokenKind) (IsPart : List TokenKind → α → Prop) :
    List TokenKind → List α → Prop
  | closed : Separated closing IsPart [closing] []
  | last {part : List TokenKind} {a : α} (h : IsPart part a) :
      Separated closing IsPart (part ++ [closing]) [a]
  | more {part rest : List TokenKind} {a : α} {as : List α} (h : IsPart part a)
      (further : Separated closing IsPart rest as) :
      Separated closing IsPart (part ++ .punctuator ',' :: rest) (a :: as)

/-- Parts with commas between them, and behind the last one or not, are read as the parts. -/
theorem separated_commaSeparated {closing : TokenKind} {IsPart : List TokenKind → α → Prop}
    {parts : List β} {write : β → List TokenKind} {value : β → α}
    (h : ∀ part ∈ parts, IsPart (write part) (value part)) (trailing : Bool) :
    Separated closing IsPart
      (commaSeparated (.punctuator ',') trailing (parts.map write) ++ [closing])
      (parts.map value) := by
  induction parts with
  | nil => exact .closed
  | cons part parts ih =>
    obtain ⟨hpart, hparts⟩ := List.forall_mem_cons.mp h
    cases parts with
    | nil =>
      cases trailing with
      | false =>
        have hlast : Separated closing IsPart (write part ++ [closing]) [value part] := .last hpart
        simpa [commaSeparated] using hlast
      | true =>
        have hmore : Separated closing IsPart (write part ++ [.punctuator ',', closing])
            [value part] := .more hpart .closed
        simpa [commaSeparated] using hmore
    | cons next parts =>
      rw [List.map_cons, List.map_cons, commaSeparated, List.append_assoc, List.cons_append]
      exact .more hpart (ih hparts)

end ScriptBundle
