import ScriptBundle.Text.Basic

/-!
# Reading Bytes as Text

Bytes that need not be UTF-8, such as the output of a command, as text. Each longest part that
could have started a character, and each byte that could not, becomes one replacement
character.

## Main definitions

* `Decoding`: what is known of an unfinished character;
* `Text.ofBytes`: the text that bytes stand for.

## Main statements

* `Text.ofBytes_ascii`: ASCII is read as it is.
-/

namespace ScriptBundle

/-- A **decoding** is either between two characters or inside one. -/
inductive Decoding where
  | between
  /-- Bytes are missing, the next one of which must lie between two bounds. The number is what
  the bits so far say. -/
  | inside (missing low high number : Nat)
  deriving DecidableEq, Repr

/-- What stands for bytes that are no character. -/
def replacementCharacter : Char := '\uFFFD'

namespace Decoding

/-- Reads the first byte of a character. -/
def start (b : Nat) : Text × Decoding :=
  if b < 0x80 then ([Char.ofNat b], between)
  else if b < 0xC2 then ([replacementCharacter], between)
  else if b < 0xE0 then ([], inside 1 0x80 0xBF (b - 0xC0))
  else if b = 0xE0 then ([], inside 2 0xA0 0xBF 0)
  else if b = 0xED then ([], inside 2 0x80 0x9F 0xD)
  else if b < 0xF0 then ([], inside 2 0x80 0xBF (b - 0xE0))
  else if b = 0xF0 then ([], inside 3 0x90 0xBF 0)
  else if b < 0xF4 then ([], inside 3 0x80 0xBF (b - 0xF0))
  else if b = 0xF4 then ([], inside 3 0x80 0x8F 4)
  else ([replacementCharacter], between)

/-- Reads a byte. One that does not go on with a character starts another one. -/
def step (b : Nat) : Decoding → Text × Decoding
  | between => start b
  | inside missing low high number =>
    if low ≤ b ∧ b ≤ high then
      let number := number * 64 + b % 64
      if missing = 1 then ([Char.ofNat number], between)
      else ([], inside (missing - 1) 0x80 0xBF number)
    else
      let (text, next) := start b
      (replacementCharacter :: text, next)

/-- Reads all bytes. -/
def run : Decoding → List UInt8 → Text
  | between, [] => []
  | inside _ _ _ _, [] => [replacementCharacter]
  | d, b :: rest =>
    let (text, next) := d.step b.toNat
    text ++ run next rest

end Decoding

/-- The text that bytes stand for. -/
def Text.ofBytes (bytes : List UInt8) : Text := Decoding.between.run bytes

/-- ASCII is read as it is. -/
theorem Text.ofBytes_ascii {bytes : List UInt8} (h : ∀ b ∈ bytes, b.toNat < 0x80) :
    Text.ofBytes bytes = bytes.map fun b => Char.ofNat b.toNat := by
  induction bytes with
  | nil => rfl
  | cons b bytes ih =>
    have hb := h b (by simp)
    have hrest := ih fun c hc => h c (by simp [hc])
    simp only [Text.ofBytes] at hrest
    simp [Text.ofBytes, Decoding.run, Decoding.step, Decoding.start, hb, hrest]

end ScriptBundle
