import ScriptBundle.Proofs.Module.Cutting

/-!
# Located Errors

An error of a reader lies at a token that it had in sight, the one just passed or one of those
ahead. So whatever is wrong with a module is found where one of its tokens starts.

## Main definitions

* `Cursor.inSight`: the token just passed and those ahead;
* `ErrsInSight`: whether an outcome, if it is an error, lies at a token in sight.

## Main statements

* `declaratorNames_errs`, `bracedList_errs`, ...: where the errors of each reader lie;
* `interfaceFrom_errs`: where those of a whole module lie.
-/

namespace ScriptBundle

/-- The tokens **in sight** of a cursor: the one just passed and those ahead. -/
def Cursor.inSight (c : Cursor) : List Token := c.previous.toList ++ c.rest

/-- What is in sight behind passed tokens was in sight before. -/
theorem Cursor.Passes.inSight_subset {c behind : Cursor} {passed : List Token}
    (h : c.Passes passed behind) : behind.inSight ⊆ c.inSight := by
  intro t ht
  rw [Cursor.inSight, List.mem_append] at ht ⊢
  rw [h.rest, List.mem_append]
  rcases ht with ht | ht
  · rw [Option.mem_toList, h.previous, Option.or_eq_some_iff] at ht
    rcases ht with hlast | ⟨-, hprevious⟩
    · exact .inr (.inl (List.mem_of_getLast? hlast))
    · exact .inl (Option.mem_toList.mpr hprevious)
  · exact .inr (.inr ht)

/-- A token that has just been passed was in sight. -/
theorem Cursor.Passes.mem_inSight {c behind : Cursor} {t : Token} {others : List Token}
    (h : c.Passes (t :: others) behind) : t ∈ c.inSight := by
  rw [Cursor.inSight, h.rest]
  exact List.mem_append_right _ (by simp)

/-- The offset of a cursor is that of a token in sight, if there is any. -/
theorem Cursor.offset_inSight (c : Cursor) :
    c.offset = 0 ∨ ∃ t ∈ c.inSight, t.start = c.offset := by
  obtain ⟨previous, rest⟩ := c
  cases rest with
  | cons t rest => exact .inr ⟨t, by simp [Cursor.inSight], by simp [Cursor.offset, Cursor.peek]⟩
  | nil =>
    cases previous with
    | some t => exact .inr ⟨t, by simp [Cursor.inSight], by simp [Cursor.offset, Cursor.peek]⟩
    | none => exact .inl (by simp [Cursor.offset, Cursor.peek])

/-- Whether an outcome, if it is an error, **lies at a token in sight**, or at the start of the
text, where errors without any token are reported. -/
def ErrsInSight (c : Cursor) (x : Except SyntaxError α) : Prop :=
  ∀ e, x = .error e → e.offset = 0 ∨ ∃ t ∈ c.inSight, t.start = e.offset

namespace ErrsInSight

variable {c : Cursor} {x : Except SyntaxError α}

theorem ok (a : α) : ErrsInSight c (.ok a : Except SyntaxError α) := fun _ h => by simp at h

/-- An error at the start of a token in sight. -/
theorem at_token {t : Token} (ht : t ∈ c.inSight) (fault : SyntaxFault) :
    ErrsInSight c (.error ⟨fault, t.start⟩ : Except SyntaxError α) := by
  rintro _ ⟨⟩
  exact .inr ⟨t, ht, rfl⟩

/-- An error at the cursor. -/
theorem fail (c : Cursor) (fault : SyntaxFault) :
    ErrsInSight c (c.fail fault : Except SyntaxError α) := by
  rintro _ ⟨⟩
  exact c.offset_inSight

/-- What is made of a value has no part in errors. -/
theorem map (h : ErrsInSight c x) (f : α → β) : ErrsInSight c (x.map f) := by
  intro e he
  cases x with
  | ok a => simp [Except.map] at he
  | error cause =>
    obtain rfl : cause = e := by simpa [Except.map] using he
    exact h _ rfl

/-- An error behind passed tokens. -/
theorem behind {target : Cursor} {passed : List Token} (hpasses : c.Passes passed target)
    (h : ErrsInSight target x) : ErrsInSight c x := by
  intro e he
  refine (h e he).imp_right ?_
  rintro ⟨t, ht, hstart⟩
  exact ⟨t, hpasses.inSight_subset ht, hstart⟩

/-- An error that is handed on. -/
theorem handed (h : ErrsInSight c x) {e : SyntaxError} (hx : x = .error e) :
    ErrsInSight c (.error e : Except SyntaxError β) := by
  rintro _ ⟨⟩
  exact h e hx

end ErrsInSight

/-! ### Names and patterns -/

theorem expectName_errs (c : Cursor) (role : NameRole) : ErrsInSight c (expectName c role) := by
  rw [expectName]
  split
  · exact .fail c _
  · split
    · exact .ok _
    · exact .fail c _

theorem patternKey_errs (c : Cursor) : ErrsInSight c (patternKey c) := by
  rw [patternKey]
  split
  · exact .fail c _
  · split
    · exact .ok _
    · exact .ok _
    · exact .ok _
    · exact .ok _
    · exact .fail c _

theorem closePattern_errs (c : Cursor) (closing : Char) :
    ErrsInSight c (closePattern c closing) := by
  rw [closePattern]
  split
  · exact .ok _
  · exact .fail c _

/-- Whether the errors in patterns lie at tokens in sight, as long as fewer than `n` tokens are
left. -/
structure PatternsErr (n : Nat) : Prop where
  binding : ∀ {c : Cursor}, c.rest.length < n → ErrsInSight c (bindingPattern c)
  object : ∀ {c : Cursor}, c.rest.length < n → ErrsInSight c (objectPattern c)
  array : ∀ {c : Cursor}, c.rest.length < n → ErrsInSight c (arrayPattern c)

namespace PatternsErr

variable {n : Nat} {c : Cursor}

theorem bindingPattern (h : PatternsErr n) (hc : c.rest.length ≤ n) :
    ErrsInSight c (ScriptBundle.bindingPattern c) := by
  rw [ScriptBundle.bindingPattern]
  split
  · exact .fail c _
  · next found hbump =>
    have hfound := bump_passes hbump
    have hshorter : found.cursor.rest.length < n := Nat.lt_of_lt_of_le found.shorter hc
    split
    · exact .ok _
    · exact ((h.object hshorter).behind hfound).map _
    · exact ((h.array hshorter).behind hfound).map _
    · exact .fail c _

theorem objectEntry (h : PatternsErr n) (hc : c.rest.length ≤ n) :
    ErrsInSight c (ScriptBundle.objectEntry c) := by
  rw [ScriptBundle.objectEntry]
  split
  · next spread hspread =>
    obtain ⟨passed, hpassed⟩ := eatSpread_closes hspread
    exact ((h.binding (Nat.lt_of_lt_of_le spread.shorter hc)).behind hpassed.toPasses).map _
  · split
    · next e hkey => exact (patternKey_errs c).handed hkey
    · next key hkey =>
      obtain ⟨passed, hpassed, -⟩ := patternKey_closes hkey
      split
      · next colon hcolon =>
        have hlength : colon.cursor.rest.length < n :=
          Nat.lt_of_lt_of_le (Nat.lt_trans colon.shorter key.shorter) hc
        have hpasses := hpassed.toPasses.trans (eatPunctuator_passes hcolon)
        exact ((h.binding hlength).behind hpasses).map _
      · split
        · exact .ok _
        · exact (ErrsInSight.fail _ _).behind hpassed.toPasses

theorem arrayEntry (h : PatternsErr n) (hc : c.rest.length ≤ n) :
    ErrsInSight c (ScriptBundle.arrayEntry c) := by
  rw [ScriptBundle.arrayEntry]
  split
  · next spread hspread =>
    obtain ⟨passed, hpassed⟩ := eatSpread_closes hspread
    exact ((h.binding (Nat.lt_of_lt_of_le spread.shorter hc)).behind hpassed.toPasses).map _
  · exact h.bindingPattern hc

theorem objectPattern (h : PatternsErr n) (hc : c.rest.length ≤ n) :
    ErrsInSight c (ScriptBundle.objectPattern c) := by
  rw [ScriptBundle.objectPattern]
  split
  · exact .ok _
  · split
    · next e hentry => exact (h.objectEntry hc).handed hentry
    · next entry hentry =>
      obtain ⟨passed, hpassed, -⟩ := ((patternsPass _).objectEntry (Nat.le_refl _) hentry).moveTo
        (skipInitialiser_length false entry.cursor) (skipInitialiser_closes false entry.cursor)
      simp only
      generalize entry.moveTo _ _ = front at hpassed
      split
      · next comma hcomma =>
        have hlength : comma.cursor.rest.length < n :=
          Nat.lt_of_lt_of_le (Nat.lt_trans comma.shorter front.shorter) hc
        have hpasses := hpassed.toPasses.trans (eatPunctuator_passes hcomma)
        exact ((h.object hlength).behind hpasses).map _
      · exact ((closePattern_errs _ _).behind hpassed.toPasses).map _

theorem arrayPattern (h : PatternsErr n) (hc : c.rest.length ≤ n) :
    ErrsInSight c (ScriptBundle.arrayPattern c) := by
  rw [ScriptBundle.arrayPattern]
  split
  · exact .ok _
  · split
    · next hole hhole =>
      have hlength := Nat.lt_of_lt_of_le hole.shorter hc
      exact ((h.array hlength).behind (eatPunctuator_passes hhole)).map _
    · split
      · next e hentry => exact (h.arrayEntry hc).handed hentry
      · next entry hentry =>
        obtain ⟨passed, hpassed, -⟩ := ((patternsPass _).arrayEntry (Nat.le_refl _) hentry).moveTo
          (skipInitialiser_length false entry.cursor) (skipInitialiser_closes false entry.cursor)
        simp only
        generalize entry.moveTo _ _ = front at hpassed
        split
        · next comma hcomma =>
          have hlength : comma.cursor.rest.length < n :=
            Nat.lt_of_lt_of_le (Nat.lt_trans comma.shorter front.shorter) hc
          have hpasses := hpassed.toPasses.trans (eatPunctuator_passes hcomma)
          exact ((h.array hlength).behind hpasses).map _
        · exact ((closePattern_errs _ _).behind hpassed.toPasses).map _

end PatternsErr

/-- Errors in patterns lie at tokens in sight, however many tokens are left. -/
theorem patternsErr (n : Nat) : PatternsErr n := by
  induction n with
  | zero => exact ⟨fun h => absurd h (by omega), fun h => absurd h (by omega),
      fun h => absurd h (by omega)⟩
  | succ n ih =>
    exact ⟨fun h => ih.bindingPattern (Nat.le_of_lt_succ h),
      fun h => ih.objectPattern (Nat.le_of_lt_succ h),
      fun h => ih.arrayPattern (Nat.le_of_lt_succ h)⟩

theorem declaratorNames_errs (c : Cursor) : ErrsInSight c (declaratorNames c) := by
  induction hlength : c.rest.length using Nat.strongRecOn generalizing c with
  | _ n ih =>
    rw [declaratorNames]
    split
    · next e hpattern => exact ((patternsErr _).bindingPattern (Nat.le_refl _)).handed hpattern
    · next pattern hpattern =>
      obtain ⟨passed, hpassed, -⟩ :=
        ((patternsPass _).bindingPattern (Nat.le_refl _) hpattern).moveTo
          (skipInitialiser_length true pattern.cursor) (skipInitialiser_closes true pattern.cursor)
      simp only
      generalize pattern.moveTo _ _ = front at hpassed
      split
      · exact .ok _
      · next comma hcomma =>
        have hshorter := Nat.lt_trans comma.shorter front.shorter
        have hpasses := hpassed.toPasses.trans (eatPunctuator_passes hcomma)
        exact ((ih _ (hlength ▸ hshorter) comma.cursor rfl).behind hpasses).map _

/-! ### Imports -/

theorem listName_errs (c : Cursor) : ErrsInSight c (listName c) := by
  rw [listName]
  split
  · exact .fail c _
  · split
    · exact .ok _
    · exact .ok _
    · exact .fail c _

theorem listEntry_errs (c : Cursor) : ErrsInSight c (listEntry c) := by
  rw [listEntry]
  split
  · next e hname => exact (listName_errs c).handed hname
  · next name hname =>
    obtain ⟨first, hfirst, -⟩ := listName_passes hname
    split
    · exact .ok _
    · next word hword =>
      exact ((listName_errs _).behind (hfirst.trans (eatName_passes hword))).map _

theorem bracedList_errs (c : Cursor) : ErrsInSight c (bracedList c) := by
  induction hlength : c.rest.length using Nat.strongRecOn generalizing c with
  | _ n ih =>
    rw [bracedList]
    split
    · exact .ok _
    · split
      · next e hentry => exact (listEntry_errs c).handed hentry
      · next entry hentry =>
        obtain ⟨front, hfront, -⟩ := listEntry_passes hentry
        split
        · next comma hcomma =>
          have hshorter := Nat.lt_trans comma.shorter entry.shorter
          have hpasses := hfront.trans (eatPunctuator_passes hcomma)
          exact ((ih _ (hlength ▸ hshorter) comma.cursor rfl).behind hpasses).map _
        · split
          · exact .ok _
          · exact (ErrsInSight.fail _ _).behind hfront

theorem namedClause_errs (c : Cursor) : ErrsInSight c (namedClause c) := by
  rw [namedClause]
  split
  · next star hstar =>
    split
    · exact (ErrsInSight.fail _ _).behind (eatPunctuator_passes hstar)
    · next word hword =>
      have hpasses := (eatPunctuator_passes hstar).trans (eatName_passes hword)
      exact ((expectName_errs _ _).behind hpasses).map _
  · split
    · exact .fail c _
    · next brace hbrace => exact ((bracedList_errs _).behind (eatPunctuator_passes hbrace)).map _

theorem importClauses_errs (c : Cursor) : ErrsInSight c (importClauses c) := by
  rw [importClauses]
  split
  · exact (namedClause_errs c).map _
  · split
    · next e hname => exact (expectName_errs c _).handed hname
    · next name hname =>
      obtain ⟨t, ht, -⟩ := expectName_passes hname
      split
      · exact .ok _
      · next comma hcomma =>
        exact ((namedClause_errs _).behind (ht.trans (eatPunctuator_passes hcomma))).map _

theorem importHead_errs (c : Cursor) : ErrsInSight c (importHead c) := by
  rw [importHead]
  split
  · exact .ok _
  · split
    · next e hclauses => exact (importClauses_errs c).handed hclauses
    · next clauses hclauses =>
      obtain ⟨front, hfront, -⟩ := importClauses_passes hclauses
      split
      · exact (ErrsInSight.fail _ _).behind hfront
      · exact .ok _

theorem moduleSpecifier_errs (c : Cursor) : ErrsInSight c (moduleSpecifier c) := by
  rw [moduleSpecifier]
  split
  · exact .fail c _
  · split
    · exact .ok _
    · exact .fail c _
    · exact .fail c _

theorem importStatement_errs (c : Cursor) : ErrsInSight c (importStatement c) := by
  rw [importStatement]
  split
  · exact .ok _
  · next keyword hkeyword =>
    have hpasses := bump_passes hkeyword
    split
    · exact .ok _
    · split
      · next e hhead => exact ((importHead_errs _).handed hhead).behind hpasses
      · next clauses front hfront hhead =>
        obtain ⟨passed, hpassed, -⟩ := importHead_passes hhead
        exact ((moduleSpecifier_errs front).behind (hpasses.trans hpassed)).map _

/-! ### Exports -/

theorem functionName_errs (c : Cursor) : ErrsInSight c (functionName c) := by
  rw [functionName]
  split
  · next star hstar => exact ((expectName_errs _ _).behind (eatPunctuator_passes hstar)).map _
  · exact expectName_errs c _

/-- An error in a declaration lies behind its first word, or else at the keyword in front of it. -/
theorem exportedNames_errs {c behind : Cursor} {t : Token} {passed : List Token}
    (hpasses : c.Passes (t :: passed) behind) (word : String) :
    ErrsInSight c (exportedNames word behind t.start) := by
  rw [exportedNames]
  split
  · exact ((functionName_errs _).behind hpasses).map _
  · split
    · split
      · exact (ErrsInSight.fail _ _).behind hpasses
      · next name hname =>
        exact ((functionName_errs _).behind (hpasses.trans (eatName_passes hname))).map _
    · split
      · exact ((expectName_errs _ _).behind hpasses).map _
      · split
        · exact (declaratorNames_errs _).behind hpasses
        · exact .at_token hpasses.mem_inSight _

theorem exportList_errs {c behind : Cursor} {t : Token} {passed : List Token}
    (hpasses : c.Passes (t :: passed) behind) : ErrsInSight c (exportList behind t.start) := by
  rw [exportList]
  split
  · next e hlist => exact ((bracedList_errs _).handed hlist).behind hpasses
  · split
    · exact .at_token hpasses.mem_inSight _
    · exact .ok _

theorem defaultExport_errs {c behind : Cursor} {t : Token} {passed : List Token}
    (hpasses : c.Passes (t :: passed) behind) : ErrsInSight c (defaultExport behind t.start) := by
  rw [defaultExport]
  split
  · exact .at_token hpasses.mem_inSight _
  · exact .ok _

theorem exportStatement_errs (c : Cursor) : ErrsInSight c (exportStatement c) := by
  rw [exportStatement]
  split
  · exact .ok _
  · next keyword hkeyword =>
    have hfirst := bump_passes hkeyword
    simp only
    split
    · exact .at_token hfirst.mem_inSight _
    · next next hnext =>
      have hpasses := hfirst.trans (bump_passes hnext)
      split
      · exact .at_token hfirst.mem_inSight _
      · exact (exportList_errs hpasses).map _
      · split
        · exact (defaultExport_errs hpasses).map _
        · exact (exportedNames_errs hpasses _).map _
      · exact .at_token hfirst.mem_inSight _

/-! ### Whole modules -/

theorem moduleStatement_errs (depth : Nat) (c : Cursor) :
    ErrsInSight c (moduleStatement depth c) := by
  rw [moduleStatement]
  split
  · split
    · exact importStatement_errs c
    · split
      · exact exportStatement_errs c
      · exact .ok _
  · exact .ok _

/-- **Errors lie at tokens.** What is wrong with a module is found at one of the tokens from the
cursor on, or at the one in front of them. -/
theorem interfaceFrom_errs (depth : Nat) (c : Cursor) :
    ErrsInSight c (interfaceFrom depth c) := by
  fun_induction interfaceFrom depth c with
  | case1 depth c e hstatement => exact (moduleStatement_errs depth c).handed hstatement
  | case2 depth c statement hstatement _ ih =>
    obtain ⟨-, -, hcut⟩ := moduleStatement_cut hstatement
    obtain ⟨passed, hpasses⟩ := hcut.exists_passes
    exact (ih.behind hpasses).map _
  | case3 => exact .ok _
  | case4 depth c hnone a hbump _ ih => exact ih.behind (bump_passes hbump)

end ScriptBundle
