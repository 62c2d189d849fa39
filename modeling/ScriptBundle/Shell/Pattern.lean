import ScriptBundle.Text.Basic

/-!
# Shell Patterns

Patterns of texts: a star stands for any characters, a question mark for one, and brackets for one
of several. A character that was quoted stands for itself.

## Main definitions

* `Glyph`: a character of a pattern;
* `Pattern.fits`: whether a text has a pattern;
* `Pattern.trimFront`, `Pattern.trimBack`: a text without a part that has a pattern.

## Main statements

* `Pattern.fits_ofText`: a pattern of quoted characters stands for itself alone.
-/

namespace ScriptBundle.Shell

/-- A **character of a pattern**. -/
structure Glyph where
  char : Char
  /-- Whether the character stands for itself. -/
  isQuoted : Bool
  deriving DecidableEq, Repr

/-- A **pattern** of texts. -/
abbrev Pattern := List Glyph

namespace Pattern

/-- The text of a pattern, which it was written as. -/
def text (p : Pattern) : Text := p.map Glyph.char

/-- The pattern that stands for a text alone. -/
def ofText (s : Text) : Pattern := s.map fun c => ⟨c, true⟩

/-- The pattern that is written as a text, in which a backslash quotes the character behind it. -/
def ofWritten : Text → Pattern
  | '\\' :: c :: rest => ⟨c, true⟩ :: ofWritten rest
  | c :: rest => ⟨c, false⟩ :: ofWritten rest
  | [] => []

/-- Whether a character of a pattern may stand for something else. -/
def isActive (p : Pattern) : Bool := p.any fun g => !g.isQuoted && "*?[".toList.contains g.char

/-- Whether a character belongs to a named class. -/
def inClass (name : String) (c : Char) : Bool :=
  match name with
  | "alpha" => c.isAlpha
  | "digit" => c.isDigit
  | "alnum" => c.isAlphanum
  | "upper" => c.isUpper
  | "lower" => c.isLower
  | "space" => c.isWhitespace || c == '\x0b' || c == '\x0c'
  | "blank" => c == ' ' || c == '\t'
  | "print" => ' ' ≤ c && c ≤ '~'
  | "graph" => ' ' < c && c ≤ '~'
  | "cntrl" => c < ' ' || c == '\x7f'
  | "punct" => 0x20 < c.toNat && c.toNat < 0x7F && !c.isAlphanum
  | "xdigit" => c.isDigit || ('a' ≤ c && c ≤ 'f') || ('A' ≤ c && c ≤ 'F')
  | _ => false

/-- Reads the members of a bracket behind its first one, and says whether `c` is one of them. There
is no bracket without an end. -/
def bracketFrom? (c : Char) (isMember : Bool) : (budget : Nat) → Pattern → Option (Bool × Pattern)
  | 0, _ => none
  | _, [] => none
  | n + 1, g :: rest =>
    if g.char = ']' ∧ !g.isQuoted then some (isMember, rest)
    else
      match g.char, rest with
      | '[', ⟨':', _⟩ :: inner =>
        let name := inner.takeWhile (·.char ≠ ':')
        match inner.drop name.length with
        | ⟨':', _⟩ :: ⟨']', _⟩ :: rest =>
          bracketFrom? c (isMember || inClass (String.ofList (text name)) c) n rest
        | _ => bracketFrom? c (isMember || c == '[') n (⟨':', false⟩ :: inner)
      | low, ⟨'-', false⟩ :: high :: others =>
        if high.char = ']' ∧ !high.isQuoted then
          bracketFrom? c (isMember || c == low || c == '-') n (high :: others)
        else bracketFrom? c (isMember || (low ≤ c && c ≤ high.char)) n others
      | low, rest => bracketFrom? c (isMember || c == low) n rest

/-- Whether a bracket, read behind its opening, holds a character, and the pattern behind it. -/
def bracket? (c : Char) (p : Pattern) : Option (Bool × Pattern) :=
  let (isNegated, members) := match p with
    | ⟨'!', false⟩ :: rest => (true, rest)
    | ⟨'^', false⟩ :: rest => (true, rest)
    | _ => (false, p)
  let found? := match members with
    | ⟨']', false⟩ :: rest => bracketFrom? c (c == ']') (p.length + 1) rest
    | _ => bracketFrom? c false (p.length + 1) members
  found?.map fun (isMember, rest) => (isMember != isNegated, rest)

/-- Whether a text has a pattern, where `budget` exceeds both lengths together. -/
def fitsWithin : (budget : Nat) → Pattern → Text → Bool
  | 0, _, _ => false
  | _, [], s => s.isEmpty
  | n + 1, g :: rest, s =>
    if g.isQuoted then
      match s with
      | c :: others => c == g.char && fitsWithin n rest others
      | [] => false
    else
      match g.char, s with
      | '*', [] => fitsWithin n rest []
      | '*', c :: others => fitsWithin n rest (c :: others) || fitsWithin n (g :: rest) others
      | '?', _ :: others => fitsWithin n rest others
      | '[', c :: others =>
        match bracket? c rest with
        | some (holds, behind) => holds && fitsWithin n behind others
        | none => c == '[' && fitsWithin n rest others
      | d, c :: others => c == d && fitsWithin n rest others
      | _, [] => false

/-- Whether a text has a pattern. -/
def fits (p : Pattern) (s : Text) : Bool := fitsWithin (p.length + s.length + 1) p s

/-- Within any budget, a pattern of quoted characters stands for itself alone. -/
theorem fitsWithin_ofText (s t : Text) {n : Nat} (h : s.length < n) :
    fitsWithin n (ofText s) t = true ↔ s = t := by
  induction s generalizing t n with
  | nil =>
    obtain ⟨n, rfl⟩ : ∃ k, n = k + 1 := ⟨n - 1, by simp at h; omega⟩
    cases t <;> simp [ofText, fitsWithin]
  | cons c s ih =>
    obtain ⟨n, rfl⟩ : ∃ k, n = k + 1 := ⟨n - 1, by simp at h; omega⟩
    have ih := fun t => ih t (n := n) (by simpa using h)
    cases t with
    | nil => simp [ofText, fitsWithin]
    | cons d t =>
      have := ih t
      simp only [ofText] at this
      simp only [ofText, List.map_cons, fitsWithin, if_true, Bool.and_eq_true, this, beq_iff_eq,
        List.cons.injEq]
      exact and_congr_left fun _ => eq_comm

/-- A pattern of quoted characters stands for itself alone. -/
theorem fits_ofText (s t : Text) : (ofText s).fits t = true ↔ s = t :=
  fitsWithin_ofText s t (by simp only [ofText, List.length_map]; omega)

/-- A text without the shortest or the longest part at its front that has a pattern. -/
def trimFront (p : Pattern) (longest : Bool) (s : Text) : Text :=
  let sizes := List.range (s.length + 1)
  let sizes := if longest then sizes.reverse else sizes
  match sizes.find? fun size => p.fits (s.take size) with
  | some size => s.drop size
  | none => s

/-- A text without the shortest or the longest part at its end that has a pattern. -/
def trimBack (p : Pattern) (longest : Bool) (s : Text) : Text :=
  let sizes := List.range (s.length + 1)
  let sizes := if longest then sizes else sizes.reverse
  match sizes.find? fun size => p.fits (s.drop size) with
  | some size => s.take size
  | none => s

end Pattern

end ScriptBundle.Shell
