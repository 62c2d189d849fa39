import ScriptBundle.Text.Basic

/-!
# Orders on Lists

Lists in dictionary order, for any order of their members: where they first differ, the members
decide, and a list comes before each longer one that starts with it.

## Main definitions

* `dictionaryOrder`: the order of lists;
* `charOrder`: characters by number.

## Main statements

* `dictionaryOrder_total`, `dictionaryOrder_trans`, `dictionaryOrder_antisymm`: an order of
  members gives an order of lists.
-/

namespace ScriptBundle

/-- The **dictionary order** of lists, by an order of their members. -/
def dictionaryOrder [DecidableEq α] (le : α → α → Bool) : List α → List α → Bool
  | [], _ => true
  | _ :: _, [] => false
  | a :: s, b :: t => if a = b then dictionaryOrder le s t else le a b

/-- Characters by number. -/
def charOrder (a b : Char) : Bool := a.toNat ≤ b.toNat

section

variable [DecidableEq α] {le : α → α → Bool}

/-- Of two lists one comes before the other. -/
theorem dictionaryOrder_total (htotal : ∀ a b, (le a b || le b a) = true) (s t : List α) :
    (dictionaryOrder le s t || dictionaryOrder le t s) = true := by
  induction s generalizing t with
  | nil => simp [dictionaryOrder]
  | cons a s ih =>
    cases t with
    | nil => simp [dictionaryOrder]
    | cons b t =>
      by_cases h : a = b
      · subst h
        simpa [dictionaryOrder] using ih t
      · simpa [dictionaryOrder, h, Ne.symm h] using htotal a b

/-- Lists that come before one another are equal. -/
theorem dictionaryOrder_antisymm (hantisymm : ∀ a b, le a b = true → le b a = true → a = b)
    {s t : List α} (hst : dictionaryOrder le s t = true) (hts : dictionaryOrder le t s = true) :
    s = t := by
  induction s generalizing t with
  | nil =>
    cases t with
    | nil => rfl
    | cons b t => simp [dictionaryOrder] at hts
  | cons a s ih =>
    cases t with
    | nil => simp [dictionaryOrder] at hst
    | cons b t =>
      by_cases h : a = b
      · subst h
        simp only [dictionaryOrder, if_true] at hst hts
        rw [ih hst hts]
      · simp only [dictionaryOrder, h, Ne.symm h, if_false] at hst hts
        exact absurd (hantisymm a b hst hts) h

/-- What comes before a list comes before all that come behind the list. -/
theorem dictionaryOrder_trans (htrans : ∀ a b c, le a b = true → le b c = true → le a c = true)
    (hantisymm : ∀ a b, le a b = true → le b a = true → a = b) (s t u : List α)
    (hst : dictionaryOrder le s t = true) (htu : dictionaryOrder le t u = true) :
    dictionaryOrder le s u = true := by
  induction s generalizing t u with
  | nil => rfl
  | cons a s ih =>
    cases t with
    | nil => simp [dictionaryOrder] at hst
    | cons b t =>
      cases u with
      | nil => simp [dictionaryOrder] at htu
      | cons c u =>
        by_cases hab : a = b
        · subst hab
          by_cases hac : a = c
          · subst hac
            simp only [dictionaryOrder, if_true] at hst htu ⊢
            exact ih t u hst htu
          · simpa [dictionaryOrder, hac] using htu
        · simp only [dictionaryOrder, hab, if_false] at hst
          by_cases hbc : b = c
          · subst hbc
            simpa [dictionaryOrder, hab] using hst
          · simp only [dictionaryOrder, hbc, if_false] at htu
            by_cases hac : a = c
            · subst hac
              exact absurd (hantisymm a b hst htu) hab
            · simpa [dictionaryOrder, hac] using htrans a b c hst htu

end

/-- No two characters have the same number. -/
theorem charOrder_antisymm (a b : Char) (hab : charOrder a b = true)
    (hba : charOrder b a = true) : a = b := by
  simp only [charOrder, decide_eq_true_eq] at hab hba
  exact Char.toNat_inj.mp (Nat.le_antisymm hab hba)

theorem charOrder_trans (a b c : Char) (hab : charOrder a b = true)
    (hbc : charOrder b c = true) : charOrder a c = true := by
  simp only [charOrder, decide_eq_true_eq] at hab hbc ⊢
  exact Nat.le_trans hab hbc

theorem charOrder_total (a b : Char) : (charOrder a b || charOrder b a) = true := by
  simpa [charOrder] using Nat.le_total a.toNat b.toNat

end ScriptBundle
