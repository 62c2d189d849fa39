import ScriptBundle.Shell.Byte

/-!
# Names in Messages

How programs show names and values in what they say. In a message everything is plain ASCII: bytes
that are not are shown by their numbers.

## Main definitions

* `inQuotes`: a value in quotes, with escapes;
* `inShellQuotes`: a name in quotes, in the notation of the shell;
* `shellName`: a name in such quotes where it needs them.

## Main statements

* `shellName_of_plain`: a name that needs no quotes is shown as it is.
-/

namespace ScriptBundle.Shell

/-- Whether a character is shown as it is. -/
def isPrintable (c : Char) : Bool := ' ' ≤ c && c ≤ '~'

/-- What stands behind a backslash for a character that is not shown as it is. -/
def escapeLetters (c : Char) : Text :=
  match c with
  | '\x07' => ['a']
  | '\x08' => ['b']
  | '\t' => ['t']
  | '\n' => ['n']
  | '\x0b' => ['v']
  | '\x0c' => ['f']
  | '\r' => ['r']
  | _ =>
    let digit (n : Nat) : Char := Char.ofNat ('0'.toNat + n % 8)
    [digit (c.toNat / 64), digit (c.toNat / 8), digit c.toNat]

/-- A value in **quotes**. -/
def inQuotes (s : Text) : Text :=
  let shown (c : Char) : Text :=
    if c == '\'' || c == '\\' then ['\\', c]
    else if isPrintable c then [c] else '\\' :: escapeLetters c
  '\'' :: s.flatMap shown ++ ['\'']

/-- What stands between single quotes for a name. While escapes are `open`, they have quotes of
their own. -/
def shellQuoted (isOpen : Bool) : Text → Text
  | [] => []
  | c :: rest =>
    if c = '\'' then "'\\''".toList ++ shellQuoted false rest
    else if isPrintable c then (if isOpen then ['\'', '\''] else []) ++ c :: shellQuoted false rest
    else
      (if isOpen then [] else "'$'".toList) ++ '\\' :: escapeLetters c ++ shellQuoted true rest

/-- Whether a name with a single quote in it can stand between double quotes. -/
def fitsDoubleQuotes (s : Text) : Bool :=
  let isPlain (c : Char) : Bool := c.isAlphanum || " '%+,-./:]_@".toList.contains c
  match s with
  | [] => true
  | c :: rest => (isPlain c || c == '#' || c == '~') && rest.all isPlain

/-- A name in **quotes of the shell**. -/
def inShellQuotes (s : Text) : Text :=
  if '\'' ∈ s ∧ fitsDoubleQuotes s then '"' :: s ++ ['"']
  else '\'' :: shellQuoted false s ++ ['\'']

/-- Whether a name needs quotes where a colon follows it. -/
def needsShellQuotes (s : Text) : Bool :=
  let isSpecial (c : Char) : Bool := "?\\'!\"$&()*;<=>[^\x60| :".toList.contains c
  s.isEmpty || s.any (fun c => !isPrintable c || isSpecial c) || s.head? == some '#' ||
    s.head? == some '~' || s == ['\x7b'] || s == ['\x7d']

/-- A name, in quotes where it needs them. -/
def shellName (s : Text) : Text := if needsShellQuotes s then inShellQuotes s else s

/-- A name that needs no quotes is shown as it is. -/
theorem shellName_of_plain {s : Text} (h : needsShellQuotes s = false) : shellName s = s := by
  simp [shellName, h]

end ScriptBundle.Shell
