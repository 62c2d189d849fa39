import ScriptBundle.Text.Basic

/-!
# Numerals

Numbers written in digits of a base up to sixteen.

## Main definitions

* `digit?`: the value of a digit;
* `Text.number?`: the value of a numeral.

## Main statements

* `Text.number?_append_singleton`: a further digit makes the value `base` times as great.
-/

namespace ScriptBundle

/-- The value of a digit, in either case of letters. -/
def digit? (c : Char) : Option Nat :=
  if c.isDigit then some (c.toNat - '0'.toNat)
  else if 'a' ≤ c ∧ c ≤ 'f' then some (c.toNat - 'a'.toNat + 10)
  else if 'A' ≤ c ∧ c ≤ 'F' then some (c.toNat - 'A'.toNat + 10)
  else none

namespace Text

/-- The value of digits behind those that amount to `value`. -/
def numberFrom? (base value : Nat) : Text → Option Nat
  | [] => some value
  | c :: rest =>
    match (digit? c).filter (· < base) with
    | some digit => numberFrom? base (value * base + digit) rest
    | none => none

/-- The value of a numeral, which has at least one digit. -/
def number? (base : Nat) (digits : Text) : Option Nat :=
  if digits.isEmpty then none else numberFrom? base 0 digits

/-- A further digit makes the value `base` times as great. -/
theorem number?_append_singleton {base value digit : Nat} {digits : Text} {c : Char}
    (h : number? base digits = some value) (hc : digit? c = some digit) (hlt : digit < base) :
    number? base (digits ++ [c]) = some (value * base + digit) := by
  have hfrom : ∀ start, numberFrom? base start digits = some value →
      numberFrom? base start (digits ++ [c]) = some (value * base + digit) := by
    clear h
    induction digits with
    | nil =>
      intro start h
      obtain rfl : start = value := by simpa [numberFrom?] using h
      simp [numberFrom?, hc, Option.filter, hlt]
    | cons d digits ih =>
      intro start h
      simp only [List.cons_append, numberFrom?] at h ⊢
      split at h
      · next next hd => simpa [hd] using ih _ h
      · simp at h
  simp only [number?] at h ⊢
  split at h
  · simp at h
  · simpa using hfrom 0 h

end Text

end ScriptBundle
