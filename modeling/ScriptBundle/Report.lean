import ScriptBundle.Warning

/-!
# Reports

The outcome of a computation that may warn on its way, whether it succeeds or not.

## Main definitions

* `Report`: warnings and an outcome;
* `Report.warn`: a warning by itself.

## Main statements

* `Report.bind_outcome_ok`, `Report.bind_outcome_error`: the outcome of two computations in a row.
-/

namespace ScriptBundle

/-- A **report** is an outcome with the warnings that were given before it. -/
structure Report (ε α : Type) where
  warnings : List Warning
  outcome : Except ε α

namespace Report

/-- Success without a warning. -/
protected def pure (a : α) : Report ε α := ⟨[], .ok a⟩

/-- Goes on with a value, and keeps the warnings given before. -/
protected def bind (r : Report ε α) (f : α → Report ε β) : Report ε β :=
  match r.outcome with
  | .error e => ⟨r.warnings, .error e⟩
  | .ok a => ⟨r.warnings ++ (f a).warnings, (f a).outcome⟩

instance : Monad (Report ε) where
  pure := Report.pure
  bind := Report.bind

/-- Failure without a warning. -/
def fail (e : ε) : Report ε α := ⟨[], .error e⟩

/-- Warnings and nothing else. -/
def warn (ws : List Warning) : Report ε Unit := ⟨ws, .ok ()⟩

/-- An outcome without a warning. -/
def ofExcept (outcome : Except ε α) : Report ε α := ⟨[], outcome⟩

/-- Changes what is said of a failure. -/
def mapError (f : ε → ε') (r : Report ε α) : Report ε' α := ⟨r.warnings, r.outcome.mapError f⟩

/-- After a success the second computation decides. -/
theorem bind_outcome_ok {r : Report ε α} {a : α} (f : α → Report ε β) (h : r.outcome = .ok a) :
    (r >>= f).outcome = (f a).outcome := by
  simp [bind, Report.bind, h]

/-- After a failure there is no second computation. -/
theorem bind_outcome_error {r : Report ε α} {e : ε} (f : α → Report ε β)
    (h : r.outcome = .error e) : (r >>= f).outcome = .error e := by
  simp [bind, Report.bind, h]

end Report

end ScriptBundle
