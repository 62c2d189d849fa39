import ScriptBundle.Module.Statement
import ScriptBundle.Proofs.Module.Grammar
import ScriptBundle.Proofs.Report

/-!
# Passed Tokens

Every reader of a part of a statement passes the tokens in front of its cursor one after the other:
it leaves none out and puts none in. The tokens that it passes are those of the grammar, the names
that it gives are among them, and a declaration closes the brackets that it opens.

## Main definitions

* `Cursor.Passes`: whether a cursor gets to another one by passing given tokens;
* `Cursor.Closes`: how many brackets are closed on the way;
* `NamesAmong`: whether each of some names is one of the tokens.

## Main statements

* `bracedList_passes`, `declaratorNames_passes`, ...: what each reader passes.
-/

namespace ScriptBundle

/-- Whether a cursor gets to another one by **passing** the given tokens. -/
structure Cursor.Passes (c : Cursor) (passed : List Token) (behind : Cursor) : Prop where
  rest : c.rest = passed ++ behind.rest
  previous : behind.previous = passed.getLast?.or c.previous

namespace Cursor.Passes

variable {c between behind : Cursor} {front back : List Token}

protected theorem refl (c : Cursor) : c.Passes [] c := ⟨rfl, rfl⟩

/-- What is passed in two steps. -/
theorem trans (h : c.Passes front between) (h' : between.Passes back behind) :
    c.Passes (front ++ back) behind := by
  refine ⟨by rw [h.rest, h'.rest, List.append_assoc], ?_⟩
  rw [h'.previous, h.previous, List.getLast?_append, Option.or_assoc]

/-- The token that was just passed is the last one of several. -/
theorem previous_eq (h : c.Passes front behind) {t : Token} (ht : front.getLast? = some t) :
    behind.previous = some t := by
  rw [h.previous, ht]
  rfl

end Cursor.Passes

/-- A step passes one token. -/
theorem bump_passes {c : Cursor} {a : Advance c Token} (h : c.bump = some a) :
    c.Passes [a.value] a.cursor := by
  obtain ⟨previous, rest⟩ := c
  cases rest with
  | nil => simp [Cursor.bump] at h
  | cons t rest =>
    obtain rfl : _ = a := by simpa [Cursor.bump] using h
    exact ⟨rfl, rfl⟩

/-- A conditional step passes one token that is accepted. -/
theorem eat_passes {c : Cursor} {accept : Token → Bool} {a : Advance c Token}
    (h : c.eat accept = some a) : c.Passes [a.value] a.cursor ∧ accept a.value = true := by
  obtain ⟨hbump, haccept⟩ := Option.filter_eq_some_iff.mp h
  exact ⟨bump_passes hbump, haccept⟩

theorem eatPunctuator_passes {c : Cursor} {char : Char} {a : Advance c Token}
    (h : c.eatPunctuator char = some a) : c.Passes [a.value] a.cursor := (eat_passes h).1

theorem eatName_passes {c : Cursor} {name : String} {a : Advance c Token}
    (h : c.eatName name = some a) : c.Passes [a.value] a.cursor := (eat_passes h).1

/-- Whether each of some names is one of the tokens. -/
def NamesAmong (names : List String) (tokens : List Token) : Prop :=
  ∀ name ∈ names, ∃ t ∈ tokens, t.kind = .identifier name

namespace NamesAmong

variable {names others : List String} {front back : List Token}

theorem nil (tokens : List Token) : NamesAmong [] tokens := by simp [NamesAmong]

theorem append (h : NamesAmong names front) (h' : NamesAmong others back) :
    NamesAmong (names ++ others) (front ++ back) := by
  intro name hname
  rcases List.mem_append.mp hname with hname | hname
  · obtain ⟨t, ht, hkind⟩ := h name hname
    exact ⟨t, List.mem_append_left _ ht, hkind⟩
  · obtain ⟨t, ht, hkind⟩ := h' name hname
    exact ⟨t, List.mem_append_right _ ht, hkind⟩

/-- More tokens do no harm. -/
theorem mono (h : NamesAmong names front) (hsub : front ⊆ back) : NamesAmong names back := by
  intro name hname
  obtain ⟨t, ht, hkind⟩ := h name hname
  exact ⟨t, hsub ht, hkind⟩

end NamesAmong

/-! ### Brackets -/

/-- The number of brackets open behind tokens, if `depth` of them are open in front. -/
def depthBehind (depth : Nat) (ts : List Token) : Nat :=
  ts.foldl (fun depth t => depthAfter depth t.kind) depth

theorem depthBehind_append (depth : Nat) (ts others : List Token) :
    depthBehind depth (ts ++ others) = depthBehind (depthBehind depth ts) others :=
  List.foldl_append

/-- Brackets that are open around others make no difference. -/
theorem depthAfter_add {depth : Nat} {k : TokenKind} (h : 0 < depth ∨ k.isClosing = false)
    (around : Nat) : depthAfter (around + depth) k = around + depthAfter depth k := by
  unfold depthAfter
  split
  · omega
  · split
    · next hclosing =>
      have hpos : 0 < depth := by simpa [hclosing] using h
      omega
    · rfl

/-- Whether passing tokens **closes** `n` brackets and leaves all others as they are, or else passes
everything that is left. -/
structure Cursor.Closes (n : Nat) (c : Cursor) (passed : List Token) (behind : Cursor) : Prop
    extends c.Passes passed behind where
  depth : behind.rest = [] ∨ ∀ around, depthBehind (around + n) passed = around

namespace Cursor.Closes

variable {c between behind : Cursor} {front back : List Token} {m n : Nat}

protected theorem refl (c : Cursor) : c.Closes 0 [] c := ⟨.refl c, .inr fun _ => rfl⟩

/-- Brackets that are closed in two steps. -/
theorem trans (h : c.Closes n front between) (h' : between.Closes m back behind) :
    c.Closes (m + n) (front ++ back) behind := by
  refine ⟨h.toPasses.trans h'.toPasses, ?_⟩
  rcases h.depth with hend | hfront
  · refine .inl ?_
    have hrest := h'.rest
    rw [hend] at hrest
    simpa using (List.append_eq_nil_iff.mp hrest.symm).2
  · refine h'.depth.imp_right fun hback around => ?_
    rw [depthBehind_append, ← Nat.add_assoc, hfront, hback]

/-- What opens a bracket and closes it again closes none. -/
theorem enclosed {t : Token} (hfirst : c.Passes [t] between) (hopening : t.kind.isOpening = true)
    (h : between.Closes 1 back behind) : c.Closes 0 (t :: back) behind := by
  refine ⟨hfirst.trans h.toPasses, h.depth.imp_right fun hback around => ?_⟩
  have hopen : depthAfter around t.kind = around + 1 := if_pos hopening
  change depthBehind (depthAfter around t.kind) back = around
  rw [hopen, hback]

/-- A token that is no bracket closes none. -/
theorem single {t : Token} (h : c.Passes [t] behind) (hopening : t.kind.isOpening = false)
    (hclosing : t.kind.isClosing = false) : c.Closes 0 [t] behind := by
  refine ⟨h, .inr fun around => ?_⟩
  simp [depthBehind, depthAfter, hopening, hclosing]

/-- A name closes no bracket. -/
theorem name {t : Token} {word : String} (h : c.Passes [t] behind)
    (hkind : t.kind = .identifier word) : c.Closes 0 [t] behind :=
  single h (by rw [hkind]; rfl) (by rw [hkind]; rfl)

end Cursor.Closes

/-- A conditional step passes the character that is asked for. -/
theorem eatPunctuator_kind {c : Cursor} {char : Char} {a : Advance c Token}
    (h : c.eatPunctuator char = some a) : a.value.kind = .punctuator char := by
  simpa [Token.isPunctuator] using (eat_passes h).2

/-- A token that is a name is of its kind. -/
theorem Token.kind_of_isName {t : Token} {name : String} (h : t.isName name = true) :
    t.kind = .identifier name := by
  simpa [isName] using h

/-- A conditional step passes the name that is asked for. -/
theorem eatName_kind {c : Cursor} {name : String} {a : Advance c Token}
    (h : c.eatName name = some a) : a.value.kind = .identifier name :=
  Token.kind_of_isName (eat_passes h).2

theorem eatSeparator_closes {c : Cursor} {char : Char} {a : Advance c Token}
    (h : c.eatPunctuator char = some a) (hchar : char ∈ [',', ':', '=', '.', '*']) :
    c.Closes 0 [a.value] a.cursor := by
  have hneutral : ∀ char ∈ [',', ':', '=', '.', '*'],
      (TokenKind.punctuator char).isOpening = false ∧
        (TokenKind.punctuator char).isClosing = false := by
    simp [TokenKind.isOpening, TokenKind.isClosing]
  obtain ⟨hopening, hclosing⟩ := hneutral char hchar
  rw [← eatPunctuator_kind h] at hopening hclosing
  exact .single (eatPunctuator_passes h) hopening hclosing

theorem eatClosing_closes {c : Cursor} {char : Char} {a : Advance c Token}
    (h : c.eatPunctuator char = some a) (hchar : char = ']' ∨ char = '}') :
    c.Closes 1 [a.value] a.cursor := by
  refine ⟨eatPunctuator_passes h, .inr fun around => ?_⟩
  change depthAfter (around + 1) a.value.kind = around
  rw [eatPunctuator_kind h]
  rcases hchar with rfl | rfl <;> rfl

/-! ### Passing over expressions -/

/-- Passing to the end of a bracket closes all that are open. -/
theorem skipBalanced_closes {depth : Nat} (hdepth : 0 < depth) (previous : Option Token)
    (ts : List Token) :
    ∃ passed, Cursor.Closes depth ⟨previous, ts⟩ passed (skipBalanced depth previous ts) := by
  fun_induction skipBalanced depth previous ts with
  | case1 depth previous => exact ⟨[], .refl _, .inl rfl⟩
  | case2 depth previous t rest inside hinside =>
    refine ⟨[t], ⟨rfl, rfl⟩, .inr fun around => ?_⟩
    exact (depthAfter_add (.inl hdepth) around).trans (congrArg (around + ·) hinside)
  | case3 depth previous t rest inside hinside ih =>
    obtain ⟨passed, hpassed⟩ := ih (Nat.pos_of_ne_zero hinside)
    have hfirst : Cursor.Passes ⟨previous, t :: rest⟩ [t] ⟨some t, rest⟩ := ⟨rfl, rfl⟩
    refine ⟨_, hfirst.trans hpassed.toPasses, hpassed.depth.imp_right fun hrest around => ?_⟩
    refine Eq.trans ?_ (hrest around)
    exact congrArg (depthBehind · passed) (depthAfter_add (.inl hdepth) around)

/-- Passing over an expression closes the brackets that are open around its front. -/
theorem skipExpression_closes (inStatement : Bool) (depth : Nat) (previous : Option Token)
    (ts : List Token) : ∃ passed, Cursor.Closes depth ⟨previous, ts⟩ passed
      (skipExpression inStatement depth previous ts) := by
  fun_induction skipExpression inStatement depth previous ts with
  | case1 depth previous => exact ⟨[], .refl _, .inl rfl⟩
  | case2 depth previous t rest hend =>
    obtain ⟨rfl, -⟩ := hend
    exact ⟨[], .refl _⟩
  | case3 depth previous t rest hend ih =>
    obtain ⟨passed, hpassed⟩ := ih
    have hinside : 0 < depth ∨ t.kind.isClosing = false := by
      rcases Nat.eq_zero_or_pos depth with rfl | hpos
      · cases hclosing : t.kind.isClosing with
        | true => exact absurd ⟨rfl, by simp [endsBefore, hclosing]⟩ hend
        | false => exact .inr rfl
      · exact .inl hpos
    have hfirst : Cursor.Passes ⟨previous, t :: rest⟩ [t] ⟨some t, rest⟩ := ⟨rfl, rfl⟩
    refine ⟨_, hfirst.trans hpassed.toPasses, hpassed.depth.imp_right fun hrest around => ?_⟩
    refine Eq.trans ?_ (hrest around)
    exact congrArg (depthBehind · passed) (depthAfter_add hinside around)

/-- An initialiser is passed with its equals sign. -/
theorem skipInitialiser_closes (inStatement : Bool) (c : Cursor) :
    ∃ passed, c.Closes 0 passed (skipInitialiser inStatement c) := by
  unfold skipInitialiser
  split
  · next a ha =>
    obtain ⟨passed, hpassed⟩ := skipExpression_closes inStatement 0 a.cursor.previous a.cursor.rest
    exact ⟨_, (eatSeparator_closes ha (by simp)).trans hpassed⟩
  · exact ⟨[], .refl c⟩

/-! ### Names and patterns -/

/-- A name is passed as one token. -/
theorem expectName_passes {c : Cursor} {role : NameRole} {a : Advance c String}
    (h : expectName c role = .ok a) :
    ∃ t, c.Passes [t] a.cursor ∧ t.kind = .identifier a.value := by
  rw [expectName] at h
  split at h
  · simp [Cursor.fail] at h
  · next found hbump =>
    split at h
    · next name hname =>
      obtain rfl := Except.ok.inj h
      refine ⟨found.value, bump_passes hbump, ?_⟩
      cases hkind : found.value.kind <;> simp_all [TokenKind.name?]
    · simp [Cursor.fail] at h

/-- Whether an advance passes the names that it gives, and closes `n` brackets. -/
def Advance.PassesNames (n : Nat) {c : Cursor} (a : Advance c (List String)) : Prop :=
  ∃ passed, c.Closes n passed a.cursor ∧ NamesAmong a.value passed

namespace Advance.PassesNames

variable {c : Cursor} {n : Nat}

/-- What is passed in front of the names. -/
theorem behind {a : Advance c α} {front : List Token} (ha : c.Closes 0 front a.cursor)
    {b : Advance a.cursor (List String)} (hb : b.PassesNames n) : (a.trans b).PassesNames n := by
  obtain ⟨passed, hpassed, hnames⟩ := hb
  exact ⟨front ++ passed, ha.trans hpassed, hnames.mono (List.subset_append_right _ _)⟩

/-- Names in brackets. -/
theorem enclosed {a : Advance c α} {t : Token} (ha : c.Passes [t] a.cursor)
    (hopening : t.kind.isOpening = true) {b : Advance a.cursor (List String)}
    (hb : b.PassesNames 1) : (a.trans b).PassesNames 0 := by
  obtain ⟨passed, hpassed, hnames⟩ := hb
  exact ⟨t :: passed, .enclosed ha hopening hpassed, hnames.mono (List.subset_cons_self _ _)⟩

/-- What is passed behind the names. -/
theorem moveTo {a : Advance c (List String)} (ha : a.PassesNames 0) {target : Cursor}
    (hlength : target.rest.length ≤ a.cursor.rest.length)
    (htarget : ∃ passed, a.cursor.Closes 0 passed target) :
    (a.moveTo target hlength).PassesNames 0 := by
  obtain ⟨front, hfront, hnames⟩ := ha
  obtain ⟨passed, hpassed⟩ := htarget
  exact ⟨front ++ passed, hfront.trans hpassed, hnames.mono (List.subset_append_left _ _)⟩

/-- Names in two places. -/
theorem append {a : Advance c (List String)} (ha : a.PassesNames 0)
    {b : Advance a.cursor (List String)} (hb : b.PassesNames n) :
    ((a.trans b).map (a.value ++ ·)).PassesNames n := by
  obtain ⟨front, hfront, hnames⟩ := ha
  obtain ⟨passed, hpassed, hothers⟩ := hb
  exact ⟨front ++ passed, hfront.trans hpassed, hnames.append hothers⟩

/-- Several names with a separator between them. -/
theorem separated {a : Advance c (List String)} (ha : a.PassesNames 0)
    {between : Advance a.cursor α} {separator : List Token}
    (hbetween : a.cursor.Closes 0 separator between.cursor)
    {b : Advance between.cursor (List String)} (hb : b.PassesNames n) :
    ((a.trans (between.trans b)).map (a.value ++ ·)).PassesNames n :=
  ha.append (hb.behind hbetween)

end Advance.PassesNames

theorem eatSpread_closes {c : Cursor} {a : Advance c Unit} (h : eatSpread c = some a) :
    ∃ passed, c.Closes 0 passed a.cursor := by
  simp only [eatSpread, Option.bind_eq_bind, Option.bind_eq_some_iff] at h
  obtain ⟨first, hfirst, second, hsecond, third, hthird, hpure⟩ := h
  obtain rfl : _ = a := by simpa using hpure
  exact ⟨_, (eatSeparator_closes hfirst (by simp)).trans
    ((eatSeparator_closes hsecond (by simp)).trans (eatSeparator_closes hthird (by simp)))⟩

theorem patternKey_closes {c : Cursor} {a : Advance c (Option String)} (h : patternKey c = .ok a) :
    ∃ passed, c.Closes 0 passed a.cursor ∧ NamesAmong a.value.toList passed := by
  rw [patternKey] at h
  split at h
  · simp [Cursor.fail] at h
  · next found hbump =>
    have hfound := bump_passes hbump
    split at h
    · next name hkind =>
      obtain rfl := Except.ok.inj h
      refine ⟨_, .name hfound hkind, ?_⟩
      simp [NamesAmong, hkind]
    · next hkind =>
      obtain rfl := Except.ok.inj h
      exact ⟨_, .single hfound (by rw [hkind]; rfl) (by rw [hkind]; rfl), .nil _⟩
    · next hkind =>
      obtain rfl := Except.ok.inj h
      exact ⟨_, .single hfound (by rw [hkind]; rfl) (by rw [hkind]; rfl), .nil _⟩
    · next hkind =>
      obtain rfl := Except.ok.inj h
      obtain ⟨passed, hpassed⟩ :=
        skipBalanced_closes Nat.one_pos found.cursor.previous found.cursor.rest
      exact ⟨_, .enclosed hfound (by rw [hkind]; rfl) hpassed, .nil _⟩
    · simp [Cursor.fail] at h

theorem closePattern_passes {c : Cursor} {closing : Char} {a : Advance c (List String)}
    (hclosing : closing = ']' ∨ closing = '}') (h : closePattern c closing = .ok a) :
    a.PassesNames 1 := by
  rw [closePattern] at h
  split at h
  · next found hfound =>
    obtain rfl := Except.ok.inj h
    exact ⟨_, eatClosing_closes hfound hclosing, .nil _⟩
  · simp [Cursor.fail] at h

/-- Whether the readers of patterns pass the names that they give, as long as fewer than `n` tokens
are left. -/
structure PatternsPass (n : Nat) : Prop where
  binding : ∀ {c : Cursor} {a}, c.rest.length < n → bindingPattern c = .ok a → a.PassesNames 0
  object : ∀ {c : Cursor} {a}, c.rest.length < n → objectPattern c = .ok a → a.PassesNames 1
  array : ∀ {c : Cursor} {a}, c.rest.length < n → arrayPattern c = .ok a → a.PassesNames 1

namespace PatternsPass

variable {n : Nat} {c : Cursor}

theorem bindingPattern (h : PatternsPass n) (hc : c.rest.length ≤ n)
    {a : Advance c (List String)} (ha : ScriptBundle.bindingPattern c = .ok a) :
    a.PassesNames 0 := by
  rw [ScriptBundle.bindingPattern] at ha
  split at ha
  · simp [Cursor.fail] at ha
  · next found hbump =>
    have hfound := bump_passes hbump
    have hshorter : found.cursor.rest.length < n := Nat.lt_of_lt_of_le found.shorter hc
    split at ha
    · next name hkind =>
      obtain rfl := Except.ok.inj ha
      exact ⟨_, .name hfound hkind, by simp [NamesAmong, hkind]⟩
    · next hkind =>
      obtain ⟨b, hb, rfl⟩ := map_eq_ok_iff.mp ha
      exact .enclosed hfound (by rw [hkind]; rfl) (h.object hshorter hb)
    · next hkind =>
      obtain ⟨b, hb, rfl⟩ := map_eq_ok_iff.mp ha
      exact .enclosed hfound (by rw [hkind]; rfl) (h.array hshorter hb)
    · simp [Cursor.fail] at ha

theorem objectEntry (h : PatternsPass n) (hc : c.rest.length ≤ n)
    {a : Advance c (List String)} (ha : ScriptBundle.objectEntry c = .ok a) : a.PassesNames 0 := by
  rw [ScriptBundle.objectEntry] at ha
  split at ha
  · next spread hspread =>
    obtain ⟨front, hfront⟩ := eatSpread_closes hspread
    obtain ⟨b, hb, rfl⟩ := map_eq_ok_iff.mp ha
    exact (h.binding (Nat.lt_of_lt_of_le spread.shorter hc) hb).behind hfront
  · split at ha
    · simp at ha
    · next key hkey =>
      obtain ⟨front, hfront, hname⟩ := patternKey_closes hkey
      split at ha
      · next colon hcolon =>
        obtain ⟨b, hb, rfl⟩ := map_eq_ok_iff.mp ha
        have hlength : colon.cursor.rest.length < n :=
          Nat.lt_of_lt_of_le (Nat.lt_trans colon.shorter key.shorter) hc
        have hbehind := (h.binding hlength hb).behind (eatSeparator_closes hcolon (by simp))
        exact hbehind.behind hfront
      · split at ha
        · next name hvalue =>
          obtain rfl := Except.ok.inj ha
          exact ⟨_, hfront, by simpa [hvalue] using hname⟩
        · simp [Cursor.fail] at ha

theorem arrayEntry (h : PatternsPass n) (hc : c.rest.length ≤ n)
    {a : Advance c (List String)} (ha : ScriptBundle.arrayEntry c = .ok a) : a.PassesNames 0 := by
  rw [ScriptBundle.arrayEntry] at ha
  split at ha
  · next spread hspread =>
    obtain ⟨front, hfront⟩ := eatSpread_closes hspread
    obtain ⟨b, hb, rfl⟩ := map_eq_ok_iff.mp ha
    exact (h.binding (Nat.lt_of_lt_of_le spread.shorter hc) hb).behind hfront
  · exact h.bindingPattern hc ha

/-- An entry, its default value, and what comes behind a comma or closes the pattern. -/
theorem objectPattern (h : PatternsPass n) (hc : c.rest.length ≤ n)
    {a : Advance c (List String)} (ha : ScriptBundle.objectPattern c = .ok a) :
    a.PassesNames 1 := by
  rw [ScriptBundle.objectPattern] at ha
  split at ha
  · next closing hclosing =>
    obtain rfl := Except.ok.inj ha
    exact ⟨_, eatClosing_closes hclosing (.inr rfl), .nil _⟩
  · split at ha
    · simp at ha
    · next entry hentry =>
      have hfront := (h.objectEntry hc hentry).moveTo (skipInitialiser_length false entry.cursor)
        (skipInitialiser_closes false entry.cursor)
      simp only at ha
      generalize entry.moveTo _ _ = front at ha hfront
      split at ha
      · next comma hcomma =>
        obtain ⟨b, hb, rfl⟩ := map_eq_ok_iff.mp ha
        have hlength : comma.cursor.rest.length < n :=
          Nat.lt_of_lt_of_le (Nat.lt_trans comma.shorter front.shorter) hc
        exact hfront.separated (eatSeparator_closes hcomma (by simp)) (h.object hlength hb)
      · obtain ⟨b, hb, rfl⟩ := map_eq_ok_iff.mp ha
        exact hfront.append (closePattern_passes (.inr rfl) hb)

theorem arrayPattern (h : PatternsPass n) (hc : c.rest.length ≤ n)
    {a : Advance c (List String)} (ha : ScriptBundle.arrayPattern c = .ok a) :
    a.PassesNames 1 := by
  rw [ScriptBundle.arrayPattern] at ha
  split at ha
  · next closing hclosing =>
    obtain rfl := Except.ok.inj ha
    exact ⟨_, eatClosing_closes hclosing (.inl rfl), .nil _⟩
  · split at ha
    · next hole hhole =>
      obtain ⟨b, hb, rfl⟩ := map_eq_ok_iff.mp ha
      have hlength := Nat.lt_of_lt_of_le hole.shorter hc
      exact (h.array hlength hb).behind (eatSeparator_closes hhole (by simp))
    · split at ha
      · simp at ha
      · next entry hentry =>
        have hfront := (h.arrayEntry hc hentry).moveTo (skipInitialiser_length false entry.cursor)
          (skipInitialiser_closes false entry.cursor)
        simp only at ha
        generalize entry.moveTo _ _ = front at ha hfront
        split at ha
        · next comma hcomma =>
          obtain ⟨b, hb, rfl⟩ := map_eq_ok_iff.mp ha
          have hlength : comma.cursor.rest.length < n :=
            Nat.lt_of_lt_of_le (Nat.lt_trans comma.shorter front.shorter) hc
          exact hfront.separated (eatSeparator_closes hcomma (by simp)) (h.array hlength hb)
        · obtain ⟨b, hb, rfl⟩ := map_eq_ok_iff.mp ha
          exact hfront.append (closePattern_passes (.inl rfl) hb)

end PatternsPass

/-- The readers of patterns pass the names that they give, however many tokens are left. -/
theorem patternsPass (n : Nat) : PatternsPass n := by
  induction n with
  | zero => exact ⟨fun h => absurd h (by omega), fun h => absurd h (by omega),
      fun h => absurd h (by omega)⟩
  | succ n ih =>
    exact ⟨fun h => ih.bindingPattern (Nat.le_of_lt_succ h),
      fun h => ih.objectPattern (Nat.le_of_lt_succ h),
      fun h => ih.arrayPattern (Nat.le_of_lt_succ h)⟩

/-- Declarators pass the names that they bind. -/
theorem declaratorNames_passes {c : Cursor} {a : Advance c (List String)}
    (h : declaratorNames c = .ok a) : a.PassesNames 0 := by
  induction hlength : c.rest.length using Nat.strongRecOn generalizing c with
  | _ n ih =>
    rw [declaratorNames] at h
    split at h
    · simp at h
    · next pattern hpattern =>
      have hfront := ((patternsPass _).bindingPattern (Nat.le_refl _) hpattern).moveTo
        (skipInitialiser_length true pattern.cursor) (skipInitialiser_closes true pattern.cursor)
      simp only at h
      generalize pattern.moveTo _ _ = front at h hfront
      split at h
      · obtain rfl := Except.ok.inj h
        exact hfront
      · next comma hcomma =>
        obtain ⟨b, hb, rfl⟩ := map_eq_ok_iff.mp h
        have hshorter := Nat.lt_trans comma.shorter front.shorter
        have hothers := ih _ (hlength ▸ hshorter) hb rfl
        exact hfront.separated (eatSeparator_closes hcomma (by simp)) hothers

/-- Declarators start with a pattern. -/
theorem declaratorNames_opens {c : Cursor} {a : Advance c (List String)}
    (h : declaratorNames c = .ok a) :
    ∃ t rest, c.rest = t :: rest ∧ t.kind.opensPattern = true := by
  rw [declaratorNames] at h
  split at h
  · simp at h
  · next pattern hpattern =>
    rw [bindingPattern] at hpattern
    split at hpattern
    · simp [Cursor.fail] at hpattern
    · next first hbump =>
      refine ⟨first.value, first.cursor.rest, (bump_passes hbump).rest, ?_⟩
      split at hpattern
      · next hkind => rw [hkind]; rfl
      · next hkind => rw [hkind]; rfl
      · next hkind => rw [hkind]; rfl
      · simp [Cursor.fail] at hpattern

/-! ### Braced lists -/

/-- A name in a list is passed as one token. -/
theorem listName_passes {c : Cursor} {a : Advance c String} (h : listName c = .ok a) :
    ∃ t, c.Passes [t] a.cursor ∧ t.kind.isListName = true := by
  rw [listName] at h
  split at h
  · simp [Cursor.fail] at h
  · next found hbump =>
    split at h
    · next hkind =>
      obtain rfl := Except.ok.inj h
      exact ⟨_, bump_passes hbump, by rw [hkind]; rfl⟩
    · next hkind =>
      obtain rfl := Except.ok.inj h
      exact ⟨_, bump_passes hbump, by rw [hkind]; rfl⟩
    · simp [Cursor.fail] at h

theorem listEntry_passes {c : Cursor} {a : Advance c (String × String)}
    (h : listEntry c = .ok a) :
    ∃ passed, c.Passes passed a.cursor ∧ IsListEntry (passed.map (·.kind)) := by
  rw [listEntry] at h
  split at h
  · simp at h
  · next name hname =>
    obtain ⟨first, hfirst, hfirstName⟩ := listName_passes hname
    split at h
    · obtain rfl := Except.ok.inj h
      exact ⟨[first], hfirst, .plain hfirstName⟩
    · next word hword =>
      obtain ⟨bound, hbound, rfl⟩ := map_eq_ok_iff.mp h
      obtain ⟨last, hlast, hlastName⟩ := listName_passes hbound
      refine ⟨[first, word.value, last], hfirst.trans ((eatName_passes hword).trans hlast), ?_⟩
      rw [List.map_cons, List.map_cons, eatName_kind hword]
      exact .renamed hfirstName hlastName

/-- The brace that closes a list stands in front of no member. -/
theorem isMember_of_eatPunctuator {c : Cursor} {char : Char} {a : Advance c Token}
    (h : c.eatPunctuator char = some a) (hchar : char ≠ '.') :
    isMember a.cursor.previous = false := by
  rw [(eatPunctuator_passes h).previous_eq rfl]
  simpa [isMember, Token.isPunctuator, eatPunctuator_kind h] using hchar

theorem bracedList_passes {c : Cursor} {a : Advance c (List (String × String))}
    (h : bracedList c = .ok a) :
    ∃ passed, c.Passes passed a.cursor ∧ IsListRest (passed.map (·.kind)) ∧
      isMember a.cursor.previous = false := by
  induction hlength : c.rest.length using Nat.strongRecOn generalizing c with
  | _ n ih =>
    rw [bracedList] at h
    split at h
    · next closing hclosing =>
      obtain rfl := Except.ok.inj h
      refine ⟨[closing.value], eatPunctuator_passes hclosing, ?_,
        isMember_of_eatPunctuator hclosing (by decide)⟩
      rw [List.map_singleton, eatPunctuator_kind hclosing]
      exact .closed
    · split at h
      · simp at h
      · next entry hentry =>
        obtain ⟨front, hfront, hform⟩ := listEntry_passes hentry
        split at h
        · next comma hcomma =>
          obtain ⟨others, hothers, rfl⟩ := map_eq_ok_iff.mp h
          have hshorter := Nat.lt_trans comma.shorter entry.shorter
          obtain ⟨back, hback, hrest, hmember⟩ := ih _ (hlength ▸ hshorter) hothers rfl
          refine ⟨front ++ comma.value :: back,
            hfront.trans ((eatPunctuator_passes hcomma).trans hback), ?_, hmember⟩
          rw [List.map_append, List.map_cons, eatPunctuator_kind hcomma]
          exact .more hform hrest
        · split at h
          · next closing hclosing =>
            obtain rfl := Except.ok.inj h
            have hmember := isMember_of_eatPunctuator hclosing (by decide)
            refine ⟨front ++ [closing.value], hfront.trans (eatPunctuator_passes hclosing), ?_,
              hmember⟩
            rw [List.map_append, List.map_singleton, eatPunctuator_kind hclosing]
            exact .last hform
          · simp [Cursor.fail] at h

/-! ### Import clauses -/

theorem namedClause_passes {c : Cursor} {a : Advance c ImportClause} (h : namedClause c = .ok a) :
    ∃ passed, c.Passes passed a.cursor ∧ IsNamedClause (passed.map (·.kind)) := by
  rw [namedClause] at h
  split at h
  · next star hstar =>
    split at h
    · simp [Cursor.fail] at h
    · next word hword =>
      obtain ⟨name, hname, rfl⟩ := map_eq_ok_iff.mp h
      obtain ⟨t, ht, hkind⟩ := expectName_passes hname
      refine ⟨[star.value, word.value, t],
        (eatPunctuator_passes hstar).trans ((eatName_passes hword).trans ht), ?_⟩
      simp only [List.map_cons, List.map_nil, eatPunctuator_kind hstar, eatName_kind hword, hkind]
      exact .namespaceObject name.value
  · split at h
    · simp [Cursor.fail] at h
    · next brace hbrace =>
      obtain ⟨list, hlist, rfl⟩ := map_eq_ok_iff.mp h
      obtain ⟨passed, hpassed, hform, -⟩ := bracedList_passes hlist
      refine ⟨brace.value :: passed, (eatPunctuator_passes hbrace).trans hpassed, ?_⟩
      rw [List.map_cons, eatPunctuator_kind hbrace]
      exact .names hform

theorem importClauses_passes {c : Cursor} {a : Advance c (List ImportClause)}
    (h : importClauses c = .ok a) :
    ∃ passed, c.Passes passed a.cursor ∧ IsImportClause (passed.map (·.kind)) := by
  rw [importClauses] at h
  split at h
  · obtain ⟨clause, hclause, rfl⟩ := map_eq_ok_iff.mp h
    obtain ⟨passed, hpassed, hform⟩ := namedClause_passes hclause
    exact ⟨passed, hpassed, .named hform⟩
  · split at h
    · simp at h
    · next name hname =>
      obtain ⟨t, ht, hkind⟩ := expectName_passes hname
      split at h
      · obtain rfl := Except.ok.inj h
        refine ⟨[t], ht, ?_⟩
        rw [List.map_singleton, hkind]
        exact .defaultExport name.value
      · next comma hcomma =>
        obtain ⟨clause, hclause, rfl⟩ := map_eq_ok_iff.mp h
        obtain ⟨passed, hpassed, hform⟩ := namedClause_passes hclause
        refine ⟨t :: comma.value :: passed,
          ht.trans ((eatPunctuator_passes hcomma).trans hpassed), ?_⟩
        rw [List.map_cons, List.map_cons, hkind, eatPunctuator_kind hcomma]
        exact .both name.value hform

theorem importHead_passes {c : Cursor} {found} (h : importHead c = .ok found) :
    ∃ passed, c.Passes passed found.1.2 ∧ IsImportHead (passed.map (·.kind)) := by
  rw [importHead] at h
  split at h
  · obtain rfl := Except.ok.inj h
    exact ⟨[], .refl c, .bare⟩
  · split at h
    · simp at h
    · next clauses hclauses =>
      obtain ⟨front, hfront, hform⟩ := importClauses_passes hclauses
      split at h
      · simp [Cursor.fail] at h
      · next word hword =>
        obtain rfl := Except.ok.inj h
        refine ⟨front ++ [word.value], hfront.trans (eatName_passes hword), ?_⟩
        rw [List.map_append, List.map_singleton, eatName_kind hword]
        exact .clause hform

/-- A specifier is passed as one token, at the end of which it ends. -/
theorem moduleSpecifier_passes {c : Cursor} {a : Advance c (String × Nat)}
    (h : moduleSpecifier c = .ok a) :
    ∃ t, c.Passes [t] a.cursor ∧ (∃ value, t.kind = .string value) ∧ a.value.2 = t.stop := by
  rw [moduleSpecifier] at h
  split at h
  · simp [Cursor.fail] at h
  · next found hbump =>
    split at h
    · next value hvalue =>
      obtain rfl := Except.ok.inj h
      exact ⟨found.value, bump_passes hbump, ⟨value, hvalue⟩, rfl⟩
    · simp [Cursor.fail] at h
    · simp [Cursor.fail] at h

/-- A statement that ends at a token ends there or with the semicolon behind it. -/
theorem statementEnd_passes {c before : Cursor} {first : Token} {others : List Token}
    (h : c.Passes (first :: others) before) (hmember : isMember before.previous = false) :
    let finish := statementEnd before (others.getLastD first).stop
    ∃ back, c.Passes (first :: (others ++ back)) finish.2 ∧
      (back.map (·.kind) = [] ∨ back.map (·.kind) = [.punctuator ';']) ∧
      finish.1 = ((others ++ back).getLastD first).stop ∧ isMember finish.2.previous = false := by
  unfold statementEnd
  split
  · next semicolon heat =>
    obtain ⟨hpasses, haccept⟩ := eat_passes heat
    have hkind : semicolon.value.kind = .punctuator ';' := by
      simp only [Token.isPunctuator, Bool.and_eq_true, beq_iff_eq] at haccept
      exact haccept.1
    refine ⟨[semicolon.value], h.trans hpasses, .inr (by simp [hkind]), by simp, ?_⟩
    rw [hpasses.previous_eq rfl]
    simp [isMember, Token.isPunctuator, hkind]
  · exact ⟨[], by simpa using h, .inl rfl, by simp, hmember⟩

end ScriptBundle
