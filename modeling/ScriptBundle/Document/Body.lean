import ScriptBundle.Document.BlankLines
import ScriptBundle.Module.Stripped
import ScriptBundle.Text.Blank
import ScriptBundle.Text.Search

/-!
# Module Bodies

What a module contributes to the document: its source without module syntax, with line feeds
as line ends, with at most one blank line in a row, and made safe against the code before it.

## Main definitions

* `withLineFeeds`: a text whose lines end with line feeds alone;
* `guarded`: a body that starts a statement of its own;
* `moduleBody`: the body of a module.
-/

namespace ScriptBundle

/-- Writes a line feed for each carriage return with a line feed behind it. -/
def withLineFeeds (source : Text) : Text := Text.replaceAll ['\r', '\n'] ['\n'] source

/-- Puts a semicolon in front of a body that would otherwise go on with the statement before. -/
def guarded (body : Text) : Text :=
  match lexeme? .initial (afterHashbang body) with
  | some (l, _) => if l.kind.continuesPreviousLine then ';' :: body else body
  | none => body

/-- The **body** of a module. -/
def moduleBody (source : Text) : Except SyntaxError Text :=
  (strip (withLineFeeds source)).map fun stripped =>
    guarded (Text.trim (collapseBlankLines stripped))

end ScriptBundle
