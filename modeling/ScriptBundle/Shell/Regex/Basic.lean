import ScriptBundle.Shell.Pattern

/-!
# Regular Expressions

Regular expressions over characters, with conditions on what stands around a place. Whether a text
has the form of an expression is told character by character, by what has to follow each of them.

## Main definitions

* `Regex`: regular expressions;
* `Regex.accepts`: whether a text between two characters has the form of an expression;
* `Regex.find?`: the first and then longest part of a text that has the form of an expression;
* `Regex.groups`: what the groups of an expression stand for.

## Main statements

* `Regex.accepts_cat`: a text of two parts has the form of two expressions in a row;
* `Regex.accepts_simplified`: the same texts have the form of an expression and of its simplified
  form;
* `Regex.accepts_of_longest?`: the part that is found has the form of the expression.
-/

namespace ScriptBundle.Shell

/-- A **condition** on the characters around a place. -/
inductive Assertion where
  | start
  | stop
  | wordStart
  | wordEnd
  | boundary
  | noBoundary
  /-- Not behind a character of a word. -/
  | behindNoWord
  /-- Not in front of a character of a word. -/
  | beforeNoWord
  deriving DecidableEq, Repr

/-- Whether a character belongs to a word. -/
def isWordChar (c : Char) : Bool := c.isAlphanum || c == '_'

/-- Whether a condition holds between two characters, either of which may be missing. -/
def Assertion.holds (a : Assertion) (before behind : Option Char) : Bool :=
  let inBefore := before.any isWordChar
  let inBehind := behind.any isWordChar
  match a with
  | start => before.isNone
  | stop => behind.isNone
  | wordStart => !inBefore && inBehind
  | wordEnd => inBefore && !inBehind
  | boundary => inBefore != inBehind
  | noBoundary => inBefore == inBehind
  | behindNoWord => !inBefore
  | beforeNoWord => !inBehind

/-- A **regular expression**. A single character is told by a pattern. -/
inductive Regex where
  | never
  | nothing
  | single (p : Pattern) (foldsCase : Bool)
  | assertion (a : Assertion)
  | cat (first second : Regex)
  | alternative (first second : Regex)
  | many (r : Regex)
  | group (index : Nat) (r : Regex)
  deriving DecidableEq, Repr

namespace Regex

/-! ### Meaning -/

/-- Whether a character has a pattern, or does so in another case of letters. -/
def fitsChar (p : Pattern) (foldsCase : Bool) (c : Char) : Bool :=
  p.fits [c] || (foldsCase && (p.fits [c.toLower] || p.fits [c.toUpper]))

/-- Whether the empty text between two characters has the form of an expression. -/
def acceptsNothing (before behind : Option Char) : Regex → Bool
  | never => false
  | nothing => true
  | single _ _ => false
  | assertion a => a.holds before behind
  | cat first second => first.acceptsNothing before behind && second.acceptsNothing before behind
  | alternative first second =>
    first.acceptsNothing before behind || second.acceptsNothing before behind
  | many _ => true
  | group _ r => r.acceptsNothing before behind

/-- What has to follow a character that stands behind another one. -/
def after (before : Option Char) (c : Char) : Regex → Regex
  | never => never
  | nothing => never
  | single p foldsCase => if fitsChar p foldsCase c then nothing else never
  | assertion _ => never
  | cat first second =>
    let moved := cat (first.after before c) second
    if first.acceptsNothing before (some c) then alternative moved (second.after before c)
    else moved
  | alternative first second => alternative (first.after before c) (second.after before c)
  | many r => cat (r.after before c) (many r)
  | group _ r => r.after before c

/-- Whether a text between two characters has the form of an expression. -/
def accepts (before behind : Option Char) (r : Regex) : Text → Bool
  | [] => r.acceptsNothing before behind
  | c :: rest => accepts (some c) behind (r.after before c) rest

/-- A text has one of two forms if it has either. -/
theorem accepts_alternative (before behind : Option Char) (r q : Regex) (s : Text) :
    (alternative r q).accepts before behind s =
      (r.accepts before behind s || q.accepts before behind s) := by
  induction s generalizing before r q with
  | nil => rfl
  | cons c rest ih => exact ih _ _ _

/-- A text of two parts has the form of two expressions in a row. -/
theorem accepts_cat {before behind : Option Char} {r q : Regex} {s t : Text}
    (hr : r.accepts before (t.head?.or behind) s = true)
    (hq : q.accepts (s.getLast?.or before) behind t = true) :
    (cat r q).accepts before behind (s ++ t) = true := by
  induction s generalizing before r with
  | nil =>
    cases t with
    | nil =>
      simp only [accepts, List.head?_nil, Option.none_or, List.getLast?_nil] at hr hq
      simp [accepts, acceptsNothing, hr, hq]
    | cons c t =>
      simp only [accepts, List.head?_cons, Option.some_or, List.getLast?_nil, Option.none_or]
        at hr hq
      simp [accepts, after, hr, accepts_alternative, hq]
  | cons c s ih =>
    have hlast : (c :: s).getLast?.or before = s.getLast?.or (some c) := by
      cases s with
      | nil => rfl
      | cons d s => simp [List.getLast?_cons]
    rw [hlast] at hq
    have := ih (r := r.after before c) hr hq
    simp only [List.cons_append, accepts, after]
    split
    · rw [accepts_alternative, this, Bool.true_or]
    · exact this

/-! ### Simplification -/

/-- Whether an expression is one of some alternatives. -/
def isBranchOf (r : Regex) : Regex → Bool
  | alternative first second => r == first || isBranchOf r second
  | q => r == q

/-- Two expressions in a row, where a trivial first one leaves no trace. -/
def followedBy (q : Regex) : Regex → Regex
  | never => never
  | nothing => q
  | r => cat r q

/-- One of two expressions, where one that adds nothing leaves no trace. -/
def either : Regex → Regex → Regex
  | never, q => q
  | alternative first second, q => either first (either second q)
  | r, never => r
  | r, q => if isBranchOf r q then q else alternative r q

/-- An expression without the parts that nothing has the form of. -/
def simplified : Regex → Regex
  | cat first second => followedBy second first.simplified
  | alternative first second => either first.simplified second.simplified
  | r => r

/-- Nothing has the form of `never`. -/
theorem accepts_never (before behind : Option Char) (s : Text) :
    never.accepts before behind s = false := by
  induction s generalizing before with
  | nil => rfl
  | cons c rest ih => exact ih _

/-- No text has two forms in a row, the first of which nothing has. -/
theorem accepts_never_cat (before behind : Option Char) (r : Regex) (s : Text) :
    (cat never r).accepts before behind s = false := by
  induction s generalizing before with
  | nil => rfl
  | cons c rest ih => exact ih _

/-- The form of nothing in front of another one changes nothing. -/
theorem accepts_nothing_cat (before behind : Option Char) (r : Regex) (s : Text) :
    (cat nothing r).accepts before behind s = r.accepts before behind s := by
  cases s with
  | nil => simp [accepts, acceptsNothing]
  | cons c rest =>
    simp [accepts, after, acceptsNothing, accepts_alternative, accepts_never_cat]

/-- A front part can be replaced by one that the same texts have the form of. -/
theorem accepts_cat_congr {before : Option Char} {r p : Regex}
    (h : ∀ behind s, r.accepts before behind s = p.accepts before behind s) (q : Regex)
    (behind : Option Char) (s : Text) :
    (cat r q).accepts before behind s = (cat p q).accepts before behind s := by
  induction s generalizing before r p with
  | nil =>
    have h : r.acceptsNothing before behind = p.acceptsNothing before behind := h behind []
    simp [accepts, acceptsNothing, h]
  | cons c rest ih =>
    have hnothing : r.acceptsNothing before (some c) = p.acceptsNothing before (some c) :=
      h (some c) []
    have hrest := ih (r := r.after before c) (p := p.after before c) fun behind s =>
      h behind (c :: s)
    simp only [accepts, after, hnothing]
    split
    · rw [accepts_alternative, accepts_alternative, hrest]
    · exact hrest

theorem accepts_followedBy (before behind : Option Char) (r q : Regex) (s : Text) :
    (followedBy q r).accepts before behind s = (cat r q).accepts before behind s := by
  unfold followedBy
  split
  · rw [accepts_never, accepts_never_cat]
  · rw [accepts_nothing_cat]
  · rfl

/-- What has the form of one of some alternatives has the form of all of them together. -/
theorem accepts_of_isBranchOf {before behind : Option Char} {r q : Regex} {s : Text}
    (h : isBranchOf r q = true) (hr : r.accepts before behind s = true) :
    q.accepts before behind s = true := by
  induction q with
  | alternative first second _ ihsecond =>
    simp only [isBranchOf, Bool.or_eq_true, beq_iff_eq] at h
    rw [accepts_alternative]
    cases h with
    | inl h => simp [← h, hr]
    | inr h => simp [ihsecond h]
  | _ => simp_all [isBranchOf]

theorem accepts_either (before behind : Option Char) (r q : Regex) (s : Text) :
    (either r q).accepts before behind s = (alternative r q).accepts before behind s := by
  fun_induction either r q with
  | case1 q => simp [accepts_alternative, accepts_never]
  | case2 q first second ih₁ ih₂ =>
    rw [ih₂, accepts_alternative, ih₁, accepts_alternative, accepts_alternative,
      accepts_alternative, Bool.or_assoc]
  | case3 => simp [accepts_alternative, accepts_never]
  | case4 r q _ _ _ h =>
    rw [accepts_alternative]
    cases hr : r.accepts before behind s with
    | false => simp
    | true => simp [accepts_of_isBranchOf h hr]
  | case5 => rfl

/-- The same texts have the form of an expression and of its simplified form. -/
theorem accepts_simplified (before behind : Option Char) (r : Regex) (s : Text) :
    r.simplified.accepts before behind s = r.accepts before behind s := by
  induction r generalizing before behind s with
  | cat first second ihfirst =>
    rw [simplified, accepts_followedBy, accepts_cat_congr fun behind s => ihfirst _ behind s]
  | alternative first second ihfirst ihsecond =>
    rw [simplified, accepts_either, accepts_alternative, accepts_alternative, ihfirst, ihsecond]
  | _ => rfl

/-! ### Searching -/

/-- The length of the longest part at the front of a text that has the form of an expression. -/
def longest? (before : Option Char) (r : Regex) : Text → Option Nat
  | [] => if r.acceptsNothing before none then some 0 else none
  | c :: rest =>
    let here := if r.acceptsNothing before (some c) then some 0 else none
    match (r.after before c).simplified with
    | never => here
    | next => ((longest? (some c) next rest).map (· + 1)).or here

/-- The part that is found has the form of the expression. -/
theorem accepts_of_longest? {before : Option Char} {r : Regex} {s : Text} {n : Nat}
    (h : longest? before r s = some n) :
    r.accepts before (s.drop n).head? (s.take n) = true := by
  induction s generalizing before r n with
  | nil =>
    simp only [longest?] at h
    split at h
    · next hr =>
      cases h
      exact hr
    · cases h
  | cons c rest ih =>
    have hzero : (if r.acceptsNothing before (some c) then some 0 else none) = some n →
        r.accepts before ((c :: rest).drop n).head? ((c :: rest).take n) = true := by
      intro h
      split at h
      · next hr =>
        cases h
        exact hr
      · cases h
    simp only [longest?] at h
    split at h
    · exact hzero h
    · cases hnext : longest? (some c) (r.after before c).simplified rest with
      | none =>
        rw [hnext] at h
        exact hzero h
      | some m =>
        rw [hnext] at h
        cases h
        simp only [List.drop_succ_cons, List.take_succ_cons, accepts]
        rw [← accepts_simplified]
        exact ih hnext

/-- Where the first part of a text that has the form of an expression starts, and how long the
longest one there is. -/
def find? (r : Regex) (before : Option Char) : Text → Option (Nat × Nat)
  | [] => (r.longest? before []).map fun n => (0, n)
  | c :: rest =>
    match r.longest? before (c :: rest) with
    | some n => some (0, n)
    | none => (find? r (some c) rest).map fun (start, n) => (start + 1, n)

/-! ### Groups -/

/-- The sizes from the given one down. -/
def sizesDown (n : Nat) : List Nat := (List.range (n + 1)).reverse

/-- The longest front of a text, of at least the given size, that has the form of `r` while the
rest has the form of `q`. -/
def splitSize? (before behind : Option Char) (r q : Regex) (least : Nat) (s : Text) :
    Option Nat :=
  (sizesDown s.length).find? fun n =>
    least ≤ n && r.accepts before ((s.drop n).head?.or behind) (s.take n) &&
      q.accepts ((s.take n).getLast?.or before) behind (s.drop n)

/-- The last of the parts of a text that have the form of an expression one after the other, with
the character in front of it. -/
def lastPart (behind : Option Char) (r : Regex) :
    (budget : Nat) → (before : Option Char) → Text → Option (Option Char × Text)
  | 0, _, _ => none
  | n + 1, before, s =>
    match splitSize? before behind r (many r) 1 s with
    | none => none
    | some size =>
      if size = s.length then some (before, s)
      else lastPart behind r n (s.take size).getLast? (s.drop size)

/-- What the **groups** of an expression stand for in a text that has its form. Earlier parts take
as much as they can. -/
def groups (before behind : Option Char) : Regex → Text → List (Nat × Text)
  | group index r, s => (index, s) :: groups before behind r s
  | cat first second, s =>
    match splitSize? before behind first second 0 s with
    | none => []
    | some n =>
      groups before ((s.drop n).head?.or behind) first (s.take n) ++
        groups ((s.take n).getLast?.or before) behind second (s.drop n)
  | alternative first second, s =>
    if first.accepts before behind s then groups before behind first s
    else groups before behind second s
  | many r, s =>
    match lastPart behind r (s.length + 1) before s with
    | none => []
    | some (before, part) => groups before behind r part
  | _, _ => []

end Regex

end ScriptBundle.Shell
