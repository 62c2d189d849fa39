import ScriptBundle.Metadata.Basic
import ScriptBundle.Text.Blank
import ScriptBundle.Text.Search

/-!
# The Header

The block of comments at the top of a script from which its host reads the metadata. Each text
of a field has a line of its own.

## Main definitions

* `headerEntry`: what is written of a key and a text;
* `Metadata.header`: the whole block, which is trimmed of spaces behind each entry;
* `Metadata.unsafeField?`: the first field that would not keep to its line.
-/

namespace ScriptBundle

/-- The first line of the block. -/
def headerOpen : Text := "// ==UserScript==".toList

/-- The last line of the block. -/
def headerClose : Text := "// ==/UserScript==".toList

/-- What the first and the last line have in common. -/
def headerMarker : Text := "UserScript==".toList

/-- The width of the column of keys, the at sign included. -/
def keyWidth : Nat := 12

/-- Fills a text up with spaces to the given number of characters. -/
def padRight (width : Nat) (s : Text) : Text := s ++ List.replicate (width - s.length) ' '

/-- What is written of a key and a text. -/
def headerEntry (key item : String) : Text :=
  "// ".toList ++ padRight keyWidth ('@' :: key.toList) ++ ' ' :: item.toList

/-- A header with one more line. The header written so far is trimmed together with it. -/
def pushEntry (header : Text) (line : String × String) : Text :=
  Text.trimEndOf ' ' (header ++ headerEntry line.1 line.2) ++ ['\n']

/-- The **header**: a line for every text of every field between the two marker lines. -/
def Metadata.header (m : Metadata) : Text :=
  m.lines.foldl pushEntry (headerOpen ++ ['\n']) ++ headerClose

/-- Whether a character ends a line where the header is read. -/
def endsHeaderLine (c : Char) : Bool :=
  c == '\n' || c == '\r' || c == '\u2028' || c == '\u2029'

/-- Whether a text keeps to one line of the header and cannot be taken for a marker line. -/
def fitsHeaderLine (s : String) : Bool :=
  !s.toList.any endsHeaderLine && !Text.contains headerMarker s.toList

/-- The first key for which the key itself or a text of its value does not fit. -/
def Metadata.unsafeField? (m : Metadata) : Option String :=
  (m.fields.find? fun (key, value) =>
    !fitsHeaderLine key || !value.items.all fitsHeaderLine).map Prod.fst

end ScriptBundle
