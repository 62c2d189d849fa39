/-!
# Gates

A gate decides, before a build, whether the build may go on.

## Main definitions

* `GateOutcome`: the decision of a gate, with its reasons.
-/

namespace ScriptBundle

/-- The **outcome** of a gate. A gate may fail without a reason. -/
structure GateOutcome where
  gate : String
  holds : Bool
  diagnostics : List String
  deriving DecidableEq, Repr

/-- The outcome of a gate that holds. -/
def GateOutcome.passed (gate : String) : GateOutcome := ⟨gate, true, []⟩

/-- The outcome of a gate that does not hold. -/
def GateOutcome.failed (gate : String) (diagnostics : List String) : GateOutcome :=
  ⟨gate, false, diagnostics⟩

end ScriptBundle
