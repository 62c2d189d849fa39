import ScriptBundle.Report

/-!
# Outcomes

A computation in steps succeeds if all of its steps do, and the value of each step is what the next
one starts from. The warnings of a report have no part in that.

## Main statements

* `bind_eq_ok_iff`, `bind_eq_error_iff`: the outcome of two steps in a row;
* `mapM_eq_ok_iff`, `forM_eq_ok_iff`: the outcome of one step for each value of a list;
* `Report.bind_outcome_eq_ok_iff`: two steps succeed if both do;
* `Report.outcome_warn` and its companions: the outcomes of single steps.
-/

namespace ScriptBundle

/-! ### Single outcomes -/

/-- Two steps in a row succeed if both do. -/
theorem bind_eq_ok_iff {x : Except ε α} {f : α → Except ε β} {b : β} :
    (x >>= f) = .ok b ↔ ∃ a, x = .ok a ∧ f a = .ok b := by
  cases x <;> simp [bind, Except.bind]

/-- Two steps in a row fail where the first one fails or the second one does. -/
theorem bind_eq_error_iff {x : Except ε α} {f : α → Except ε β} {e : ε} :
    (x >>= f) = .error e ↔ x = .error e ∨ ∃ a, x = .ok a ∧ f a = .error e := by
  cases x <;> simp [bind, Except.bind]

@[simp] theorem pure_eq_ok_iff {a b : α} : (pure a : Except ε α) = .ok b ↔ a = b := by
  simp [pure, Except.pure]

@[simp] theorem pure_ne_error {a : α} {e : ε} : (pure a : Except ε α) ≠ .error e := by
  simp [pure, Except.pure]

/-- A value is not changed by what is said of a failure. -/
@[simp] theorem mapError_ok (a : α) (f : ε → ε') :
    (Except.ok a : Except ε α).mapError f = .ok a := rfl

@[simp] theorem mapError_error (cause : ε) (f : ε → ε') :
    (Except.error cause : Except ε α).mapError f = .error (f cause) := rfl

/-- What is said of a failure has no part in success. -/
@[simp] theorem mapError_eq_ok_iff {x : Except ε α} {f : ε → ε'} {a : α} :
    x.mapError f = .ok a ↔ x = .ok a := by
  cases x <;> simp

/-- A failure is said to be what its words are changed to. -/
theorem mapError_eq_error_iff {x : Except ε α} {f : ε → ε'} {e : ε'} :
    x.mapError f = .error e ↔ ∃ cause, x = .error cause ∧ f cause = e := by
  cases x <;> simp

/-- A changed value is that of a success. -/
theorem map_eq_ok_iff {x : Except ε α} {f : α → β} {b : β} :
    x.map f = .ok b ↔ ∃ a, x = .ok a ∧ f a = b := by
  cases x <;> simp [Except.map]

/-! ### One step for each value -/

/-- The steps for the values of a list succeed if each one does. -/
theorem mapM_eq_ok_iff {f : α → Except ε β} {as : List α} {bs : List β} :
    as.mapM f = .ok bs ↔ as.map f = bs.map .ok := by
  induction as generalizing bs with
  | nil => cases bs <;> simp [pure, Except.pure]
  | cons a as ih =>
    rw [List.mapM_cons, bind_eq_ok_iff]
    constructor
    · rintro ⟨b, hb, hrest⟩
      obtain ⟨rest, hmap, hpure⟩ := bind_eq_ok_iff.mp hrest
      obtain rfl : b :: rest = bs := by simpa using hpure
      rw [List.map_cons, List.map_cons, hb, ih.mp hmap]
    · intro h
      cases bs with
      | nil => simp at h
      | cons b rest =>
        rw [List.map_cons, List.map_cons, List.cons.injEq] at h
        exact ⟨b, h.1, bind_eq_ok_iff.mpr ⟨rest, ih.mpr h.2, by simp⟩⟩

/-- Steps that succeed for each value of a list have values. -/
theorem exists_map_eq_map_ok {f : α → Except ε β} {as : List α} (h : ∀ a ∈ as, ∃ b, f a = .ok b) :
    ∃ bs : List β, as.map f = bs.map .ok := by
  induction as with
  | nil => exact ⟨[], rfl⟩
  | cons a as ih =>
    obtain ⟨b, hb⟩ := h a (by simp)
    obtain ⟨bs, hbs⟩ := ih fun other hother => h other (by simp [hother])
    exact ⟨b :: bs, by rw [List.map_cons, List.map_cons, hb, hbs]⟩

/-- Steps for the values of a list that fail do so at one of the values. -/
theorem mapM_eq_error {f : α → Except ε β} {as : List α} {e : ε} (h : as.mapM f = .error e) :
    ∃ a ∈ as, f a = .error e := by
  induction as with
  | nil => simp at h
  | cons a as ih =>
    rw [List.mapM_cons] at h
    rcases bind_eq_error_iff.mp h with ha | ⟨b, -, hrest⟩
    · exact ⟨a, by simp, ha⟩
    · rcases bind_eq_error_iff.mp hrest with hrest | ⟨rest, -, hpure⟩
      · obtain ⟨other, hother, hfailed⟩ := ih hrest
        exact ⟨other, by simp [hother], hfailed⟩
      · simp at hpure

/-- Checks of the values of a list succeed if each one does. -/
theorem forM_eq_ok_iff {f : α → Except ε Unit} {as : List α} :
    as.forM f = .ok () ↔ ∀ a ∈ as, f a = .ok () := by
  induction as with
  | nil => simp [pure, Except.pure]
  | cons a as ih =>
    rw [List.forM_eq_forM, List.forM_cons, bind_eq_ok_iff, List.forall_mem_cons]
    constructor
    · rintro ⟨⟨⟩, ha, hrest⟩
      exact ⟨ha, ih.mp hrest⟩
    · rintro ⟨ha, hrest⟩
      exact ⟨(), ha, ih.mpr hrest⟩

/-- Checks of the values of a list that fail do so at one of the values. -/
theorem forM_eq_error {f : α → Except ε Unit} {as : List α} {e : ε} (h : as.forM f = .error e) :
    ∃ a ∈ as, f a = .error e := by
  induction as with
  | nil => simp at h
  | cons a as ih =>
    rw [List.forM_eq_forM, List.forM_cons] at h
    rcases bind_eq_error_iff.mp h with ha | ⟨-, -, hrest⟩
    · exact ⟨a, by simp, ha⟩
    · obtain ⟨other, hother, hfailed⟩ := ih hrest
      exact ⟨other, by simp [hother], hfailed⟩

/-! ### Outcomes of reports -/

namespace Report

/-- Two steps in a row succeed if both do. -/
theorem bind_outcome_eq_ok_iff {r : Report ε α} {f : α → Report ε β} {b : β} :
    (r >>= f).outcome = .ok b ↔ ∃ a, r.outcome = .ok a ∧ (f a).outcome = .ok b := by
  cases h : r.outcome with
  | error e =>
    rw [bind_outcome_error f h]
    simp
  | ok a =>
    rw [bind_outcome_ok f h]
    simp

@[simp] theorem outcome_warn (ws : List Warning) :
    (warn ws : Report ε Unit).outcome = .ok () := rfl

@[simp] theorem outcome_fail (e : ε) : (fail e : Report ε α).outcome = .error e := rfl

@[simp] theorem outcome_ofExcept (outcome : Except ε α) : (ofExcept outcome).outcome = outcome :=
  rfl

@[simp] theorem outcome_pure (a : α) : (pure a : Report ε α).outcome = .ok a := rfl

end Report

end ScriptBundle
