import ScriptBundle.Text.Basic
import ScriptBundle.Text.Printable

/-!
# Quoted Texts

How a message quotes a text whose characters may be anything: between double quotes, with an
escape for every character that would not show as itself.

## Main definitions

* `Text.quotedChar`: a character inside quotes;
* `Text.quoted`: a text in quotes.
-/

namespace ScriptBundle.Text

/-- The escape of a character by its number, in hexadecimal digits between braces. -/
def numberedEscape (c : Char) : Text :=
  "\\u\x7b".toList ++ Nat.toDigits 16 c.toNat ++ ['}']

/-- A character as it stands inside quotes. -/
def quotedChar (c : Char) : Text :=
  if c = '"' then ['\\', '"']
  else if c = '\\' then ['\\', '\\']
  else if c = '\n' then ['\\', 'n']
  else if c = '\r' then ['\\', 'r']
  else if c = '\t' then ['\\', 't']
  else if c = '\x00' then ['\\', '0']
  else if extendsGrapheme c || !isPrintable c then numberedEscape c
  else [c]

/-- A text in **quotes**. -/
def quoted (s : Text) : Text := '"' :: s.flatMap quotedChar ++ ['"']

end ScriptBundle.Text
