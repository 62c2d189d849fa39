import ScriptBundle.Path.Basic
import ScriptBundle.Text.Lossy

/-!
# Bytes in Scripts

A shell counts, compares and cuts bytes, whatever characters they make up. So inside of a script a
text has one character for each byte, the one with the number of the byte. Texts become bytes where
a script starts and are decoded where they name files.

## Main definitions

* `byteText`, `textBytes`: bytes as a text with one character for each, and back;
* `encoded`, `decoded`: such a text for the UTF-8 form of another one, and back;
* `scriptPath`: the path that such a text names.

## Main statements

* `textBytes_byteText`: nothing is lost when bytes are made a text;
* `length_encoded`: an encoded text has as many characters as its UTF-8 form has bytes.
-/

namespace ScriptBundle.Shell

/-- The text that has one character for each byte. -/
def byteText (bytes : List UInt8) : Text := bytes.map fun b => Char.ofNat b.toNat

/-- The bytes of a text that has one character for each. -/
def textBytes (s : Text) : List UInt8 := s.map fun c => UInt8.ofNat c.toNat

/-- The UTF-8 form of a text, with one character for each byte. -/
def encoded (s : Text) : Text := byteText (s.flatMap String.utf8EncodeChar)

/-- The text whose UTF-8 form some bytes are, which have one character for each. -/
def decoded (s : Text) : Text := Text.ofBytes (textBytes s)

/-- The **path** that bytes in a script name. -/
def scriptPath (s : Text) : Path := ⟨decoded s⟩

/-- Whether a character is white space, as where numbers are read. -/
def isSpace (c : Char) : Bool := c == ' ' || ('\t' ≤ c && c ≤ '\r')

/-- Whether a character is a blank, which stands between the words of a line. -/
def isBlankChar (c : Char) : Bool := c == ' ' || c == '\t'

/-- A character with the number of a byte stands for that byte. -/
theorem ofNat_toNat_ofNat (b : UInt8) : UInt8.ofNat (Char.ofNat b.toNat).toNat = b := by
  have hb : b.toNat < 256 := b.toNat_lt
  have hvalid : b.toNat.isValidChar := Or.inl (by omega)
  have hnumber : (Char.ofNat b.toNat).toNat = b.toNat := by
    rw [Char.ofNat, dif_pos hvalid]
    rfl
  rw [hnumber, UInt8.ofNat_toNat]

/-- Nothing is lost when bytes are made a text. -/
theorem textBytes_byteText (bytes : List UInt8) : textBytes (byteText bytes) = bytes := by
  induction bytes with
  | nil => rfl
  | cons b rest ih =>
    simp only [textBytes, byteText, List.map_cons, ofNat_toNat_ofNat] at ih ⊢
    rw [ih]

/-- An encoded text has as many characters as its UTF-8 form has bytes. -/
theorem length_encoded (s : Text) : (encoded s).length = Text.size s := by
  induction s with
  | nil => rfl
  | cons c rest ih =>
    simp only [encoded, byteText, List.length_map, List.flatMap_cons, List.length_append,
      String.length_utf8EncodeChar, Text.size] at ih ⊢
    rw [ih]

end ScriptBundle.Shell
