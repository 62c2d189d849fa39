import ScriptBundle.Proofs.Metadata.Written
import ScriptBundle.Proofs.Module.Facing
import ScriptBundle.Text.Numeral

/-!
# Escapes in Strings

What the parts of a string literal stand for in the language, and what the lexer makes of them. It
resolves one-character escapes and a backslash in front of a line feed. Escapes that give a
character by its number, those of backspace, form feed and vertical tab, and the line ends other
than a line feed are not known to it.

## Main definitions

* `StringPart`: one character, escape or line continuation of a literal;
* `IsLiteral`: whether parts make up a literal of the language;
* `StringPart.value`: what a part stands for;
* `StringPart.reading`: what the lexer reads it as;
* `StringPart.isResolved`: whether that is what it stands for.

## Main statements

* `scanString_literal`, `scanString_broken`: how a literal is scanned;
* `reading_eq_value_iff`: the readings of all parts are their values if that is so of each one;
* `string_value_iff`: a literal is a token with its value exactly if all of its parts are resolved.
-/

namespace ScriptBundle

/-! ### Literals -/

/-- The **line ends** that a literal may be continued over. -/
inductive LineEnd where
  | lineFeed
  | carriageReturn
  | both
  | lineSeparator
  | paragraphSeparator
  deriving DecidableEq, Repr

/-- The characters of a line end. -/
def LineEnd.text : LineEnd → Text
  | lineFeed => ['\n']
  | carriageReturn => ['\r']
  | both => ['\r', '\n']
  | lineSeparator => ['\u2028']
  | paragraphSeparator => ['\u2029']

/-- The ways to give a character by its number. -/
inductive CodeForm where
  /-- Two digits behind the letter `x`. -/
  | byte
  /-- Four digits behind the letter `u`. -/
  | fixed
  /-- Any number of digits in braces behind the letter `u`. -/
  | braced
  deriving DecidableEq, Repr

namespace CodeForm

/-- What is written behind the backslash. -/
def text : CodeForm → (digits : Text) → Text
  | byte, digits => 'x' :: digits
  | fixed, digits => 'u' :: digits
  | braced, digits => 'u' :: '{' :: (digits ++ ['}'])

/-- Whether so many digits may be written. -/
def admits : CodeForm → (count : Nat) → Bool
  | byte, count => count == 2
  | fixed, count => count == 4
  | braced, _ => true

end CodeForm

/-- A **part** of a string literal. -/
inductive StringPart where
  /-- A character that is written as it is. -/
  | plain (c : Char)
  /-- A character behind a backslash, with a meaning of its own there or without one. -/
  | escape (c : Char)
  /-- A character that is given by its number. -/
  | code (form : CodeForm) (digits : Text)
  /-- A line end behind a backslash, which stands for nothing. -/
  | continuation (line : LineEnd)
  deriving DecidableEq, Repr

/-- The character that an escape of one character stands for. -/
def escapeValue (c : Char) : Char :=
  if c = 'b' then '\x08'
  else if c = 'f' then '\x0c'
  else if c = 'n' then '\n'
  else if c = 'r' then '\r'
  else if c = 't' then '\t'
  else if c = 'v' then '\x0b'
  else if c = '0' then '\x00'
  else c

/-- Whether a number is that of a character, so no surrogate. -/
def isScalar (n : Nat) : Bool := n < 0xd800 || 0xdfff < n && n < 0x110000

namespace StringPart

/-- How a part is written. -/
def text : StringPart → Text
  | plain c => [c]
  | escape c => ['\\', c]
  | code form digits => '\\' :: form.text digits
  | continuation line => '\\' :: line.text

/-- The characters that a part **stands for** in the language. -/
def value : StringPart → Text
  | plain c => [c]
  | escape c => [escapeValue c]
  | code _ digits => [Char.ofNat ((Text.number? 16 digits).getD 0)]
  | continuation _ => []

/-- Whether a part may be written in a literal between the given quotes. A line or paragraph
separator may stand for itself, the other line ends may not, and of the digits only zero has a
meaning behind a backslash. -/
def isWritten (quote : Quote) : StringPart → Bool
  | plain c => c != quote.char && c != '\\' && c != '\n' && c != '\r'
  | escape c =>
    !isLineEnd c && c != '\r' && c != 'x' && c != 'u' && (!c.isDigit || c == '0')
  | code form digits => form.admits digits.length && (Text.number? 16 digits).any isScalar
  | continuation _ => true

/-- The characters that the lexer **reads** a part as. -/
def reading : StringPart → Text
  | plain c => [c]
  | escape c => escapedText c
  | code form digits => form.text digits
  | continuation .lineFeed => []
  | continuation line => line.text

/-- Whether a part is **resolved**, that is, read as what it stands for. -/
def isResolved : StringPart → Bool
  | plain _ => true
  | escape c => c != 'b' && c != 'f' && c != 'v'
  | code _ _ => false
  | continuation line => line == .lineFeed

end StringPart

/-- Whether parts make up a **literal** between the given quotes. Behind a zero that stands for the
null character there is no digit, which would make it an octal number. -/
structure IsLiteral (quote : Quote) (parts : List StringPart) : Prop where
  written : ∀ part ∈ parts, part.isWritten quote = true
  zero : parts.IsChain fun part next =>
    part = .escape '0' → ∀ c ∈ next.text.head?, c.isDigit = false

/-- A literal as it is written. -/
def literalText (quote : Quote) (parts : List StringPart) : Text :=
  quote.char :: (parts.flatMap StringPart.text ++ [quote.char])

/-- The **value** of a literal. -/
def literalValue (parts : List StringPart) : String :=
  String.ofList (parts.flatMap StringPart.value)

/-! ### Scanning a literal -/

/-- What stands in numerals are digits. -/
theorem Text.isSome_digit_of_number {base n : Nat} {digits : Text}
    (h : Text.number? base digits = some n) : ∀ c ∈ digits, (digit? c).isSome = true := by
  have hfrom : ∀ (digits : Text) (value : Nat), Text.numberFrom? base value digits = some n →
      ∀ c ∈ digits, (digit? c).isSome = true := by
    intro digits
    induction digits with
    | nil => simp
    | cons d digits ih =>
      intro value h
      rw [Text.numberFrom?] at h
      split at h
      · next digit hdigit =>
        have hsome := (Option.filter_eq_some_iff.mp hdigit).1
        exact List.forall_mem_cons.mpr ⟨by rw [hsome]; rfl, ih _ h⟩
      · simp at h
  rw [Text.number?] at h
  split at h
  · simp at h
  · exact hfrom digits 0 h

/-- Characters without a meaning of their own in a string are read as they are. -/
theorem scanString_plain (quote : Quote) {u : Text}
    (h : ∀ c ∈ u, c ≠ '\\' ∧ c ≠ '\n' ∧ c ≠ quote.char) (rest : Text) :
    scanString quote.char (u ++ rest) =
      ((scanString quote.char rest).map fun value => value.map (u ++ ·)).after u := by
  induction u with
  | nil => simp [Scan.map, Scan.after]
  | cons c u ih =>
    obtain ⟨⟨hback, hfeed, hend⟩, hu⟩ := List.forall_mem_cons.mp h
    rw [List.cons_append, scanString_cons hback, if_neg hfeed, if_neg hend, ih hu]
    simp [Scan.map, Scan.after, Function.comp_def]

/-- What is written behind the backslash of a character's number is a letter, which is read as it
is, and characters without a meaning of their own. -/
theorem CodeForm.exists_text {form : CodeForm} {digits : Text} {n : Nat}
    (h : Text.number? 16 digits = some n) (quote : Quote) :
    ∃ letter u, form.text digits = letter :: u ∧ escapedText letter = [letter] ∧
      ∀ c ∈ u, c ≠ '\\' ∧ c ≠ '\n' ∧ c ≠ quote.char := by
  have hdigits : ∀ c ∈ digits, c ≠ '\\' ∧ c ≠ '\n' ∧ c ≠ quote.char := by
    intro c hc
    have hsome := Text.isSome_digit_of_number h c hc
    refine ⟨?_, ?_, ?_⟩
    · rintro rfl
      exact absurd hsome (by decide)
    · rintro rfl
      exact absurd hsome (by decide)
    · rintro rfl
      cases quote <;> exact absurd hsome (by decide)
  have hbraces : ∀ c ∈ ['{', '}'], c ≠ '\\' ∧ c ≠ '\n' ∧ c ≠ quote.char := by
    cases quote <;> simp [Quote.char]
  cases form with
  | byte => exact ⟨_, _, rfl, by decide, hdigits⟩
  | fixed => exact ⟨_, _, rfl, by decide, hdigits⟩
  | braced =>
    refine ⟨_, _, rfl, by decide, List.forall_mem_cons.mpr ⟨hbraces _ (by simp), ?_⟩⟩
    exact List.forall_mem_append.mpr
      ⟨hdigits, List.forall_mem_singleton.mpr (hbraces _ (by simp))⟩

/-- A backslash and the character behind it. -/
theorem scanString_backslash (quote c : Char) (rest : Text) :
    scanString quote ('\\' :: c :: rest) =
      ((scanString quote rest).map fun value => value.map (escapedText c ++ ·)).after
        ['\\', c] := by
  rw [scanString]

/-- A part is read from the front of a literal, unless it goes on over two characters that end a
line. -/
theorem scanString_part {quote : Quote} {part : StringPart} (h : part.isWritten quote = true)
    (hboth : part ≠ .continuation .both) (rest : Text) :
    scanString quote.char (part.text ++ rest) =
      ((scanString quote.char rest).map fun value => value.map (part.reading ++ ·)).after
        part.text := by
  cases part with
  | plain c =>
    simp only [StringPart.isWritten, Bool.and_eq_true, bne_iff_ne] at h
    obtain ⟨⟨⟨hquote, hback⟩, hfeed⟩, -⟩ := h
    exact scanString_plain quote (List.forall_mem_singleton.mpr ⟨hback, hfeed, hquote⟩) rest
  | escape c => exact scanString_backslash quote.char c rest
  | code form digits =>
    simp only [StringPart.isWritten, Bool.and_eq_true, Option.any_eq_true] at h
    obtain ⟨-, n, hn, -⟩ := h
    obtain ⟨letter, u, htext, hletter, hu⟩ := form.exists_text hn quote
    rw [StringPart.text, StringPart.reading, htext, List.cons_append, List.cons_append,
      scanString_backslash, scanString_plain quote hu, hletter]
    simp [Scan.map, Scan.after, Function.comp_def]
  | continuation line =>
    cases line with
    | both => exact absurd rfl hboth
    | _ => exact scanString_backslash quote.char _ rest

/-- A literal is scanned up to its closing quote, and as the readings of its parts. -/
theorem scanString_literal {quote : Quote} {parts : List StringPart}
    (h : ∀ part ∈ parts, part.isWritten quote = true)
    (hboth : .continuation .both ∉ parts) (rest : Text) :
    scanString quote.char (parts.flatMap StringPart.text ++ quote.char :: rest) =
      ⟨some (parts.flatMap StringPart.reading), parts.flatMap StringPart.text ++ [quote.char],
        rest⟩ := by
  induction parts with
  | nil =>
    have hquote : quote.char ≠ '\\' ∧ quote.char ≠ '\n' := by cases quote <;> decide
    simp [scanString_cons hquote.1, hquote.2]
  | cons part parts ih =>
    obtain ⟨hpart, hparts⟩ := List.forall_mem_cons.mp h
    obtain ⟨hne, hnotMem⟩ := not_or.mp (mt List.mem_cons.mpr hboth)
    rw [List.flatMap_cons, List.append_assoc, scanString_part hpart (Ne.symm hne),
      ih hparts hnotMem]
    simp [Scan.map, Scan.after]

/-- A literal that goes on over two characters which end a line is not closed: of these the
backslash takes only the first one along. -/
theorem scanString_broken {quote : Quote} {parts : List StringPart}
    (h : ∀ part ∈ parts, part.isWritten quote = true)
    (hboth : .continuation .both ∈ parts) (rest : Text) :
    (scanString quote.char (parts.flatMap StringPart.text ++ rest)).value = none := by
  induction parts with
  | nil => simp at hboth
  | cons part parts ih =>
    obtain ⟨hpart, hparts⟩ := List.forall_mem_cons.mp h
    rw [List.flatMap_cons, List.append_assoc]
    by_cases hfirst : part = .continuation .both
    · subst hfirst
      have hfeed : ∀ s : Text, (scanString quote.char ('\n' :: s)).value = none := fun s => by
        rw [scanString_cons (by decide), if_pos rfl]
      change (scanString quote.char ('\\' :: '\r' :: '\n' :: _)).value = none
      rw [scanString_backslash, Scan.after_value, Scan.map_value, hfeed, Option.map_none]
    · have hrest := (List.mem_cons.mp hboth).resolve_left (Ne.symm hfirst)
      rw [scanString_part hpart hfirst, Scan.after_value, Scan.map_value, ih hparts hrest,
        Option.map_none]

/-! ### Readings and values -/

/-- A written part is read as no fewer characters than it stands for, and as the same ones exactly
if it is resolved. -/
theorem StringPart.reading_eq_value_iff {quote : Quote} {part : StringPart}
    (h : part.isWritten quote = true) :
    part.value.length ≤ part.reading.length ∧
      (part.reading = part.value ↔ part.isResolved = true) := by
  cases part with
  | plain c => exact ⟨Nat.le_refl _, by simp [reading, value, isResolved]⟩
  | escape c =>
    have hcontinues : c ≠ '\n' := by
      rintro rfl
      exact absurd h (by simp [isWritten, isLineEnd])
    have hmeanings : ∀ d ∈ ['b', 'f', 'v', 'n', 'r', 't', '0'],
        (escape d).value.length ≤ (escape d).reading.length ∧
          ((escape d).reading = (escape d).value ↔ (escape d).isResolved = true) := by
      simp [reading, value, isResolved, escapedText, escapeValue]
    by_cases hknown : c ∈ ['b', 'f', 'v', 'n', 'r', 't', '0']
    · exact hmeanings c hknown
    · simp only [List.mem_cons, List.not_mem_nil, or_false, not_or] at hknown
      simp [reading, value, isResolved, escapedText, escapeValue, hknown, hcontinues]
  | code form digits =>
    -- At least the letter and one digit are read, where there is one character to stand for.
    have hdigits : 0 < digits.length := by
      rcases digits with _ | ⟨d, digits⟩
      · simp [isWritten, Text.number?] at h
      · simp
    have hlength : 1 < (form.text digits).length := by
      cases form <;> simp [CodeForm.text] <;> omega
    refine ⟨Nat.le_of_lt hlength, ?_⟩
    simp only [isResolved, Bool.false_eq_true, iff_false]
    intro heq
    have hlengths := congrArg List.length heq
    simp only [reading, value, List.length_singleton] at hlengths
    omega
  | continuation line => cases line <;> decide

/-- Texts that are no shorter than others, part by part, make up the same text only if all of their
parts are the same. -/
theorem eq_of_flatMap_eq {f g : α → List β} {as : List α}
    (hle : ∀ a ∈ as, (g a).length ≤ (f a).length) (h : as.flatMap f = as.flatMap g) :
    ∀ a ∈ as, f a = g a := by
  have hlengths : ∀ {as : List α}, (∀ a ∈ as, (g a).length ≤ (f a).length) →
      (as.flatMap g).length ≤ (as.flatMap f).length := by
    intro as hle
    induction as with
    | nil => exact Nat.le_refl 0
    | cons a as ih =>
      obtain ⟨hfirst, hrest⟩ := List.forall_mem_cons.mp hle
      rw [List.flatMap_cons, List.flatMap_cons, List.length_append, List.length_append]
      exact Nat.add_le_add hfirst (ih hrest)
  induction as with
  | nil => simp
  | cons a as ih =>
    obtain ⟨hfirst, hrest⟩ := List.forall_mem_cons.mp hle
    rw [List.flatMap_cons, List.flatMap_cons] at h
    have hsum := congrArg List.length h
    have hothers := hlengths hrest
    rw [List.length_append, List.length_append] at hsum
    obtain ⟨heq, htails⟩ := List.append_inj h (by omega)
    exact List.forall_mem_cons.mpr ⟨heq, ih hrest htails⟩

/-- The readings of all parts are their values exactly if each part is resolved. -/
theorem reading_eq_value_iff {quote : Quote} {parts : List StringPart}
    (h : ∀ part ∈ parts, part.isWritten quote = true) :
    parts.flatMap StringPart.reading = parts.flatMap StringPart.value ↔
      ∀ part ∈ parts, part.isResolved = true := by
  constructor
  · intro heq part hpart
    have hsame := eq_of_flatMap_eq
      (fun part hpart => (StringPart.reading_eq_value_iff (h part hpart)).1) heq part hpart
    exact (StringPart.reading_eq_value_iff (h part hpart)).2.mp hsame
  · intro hresolved
    simp only [List.flatMap_def]
    congr 1
    refine List.map_congr_left fun part hpart => ?_
    exact (StringPart.reading_eq_value_iff (h part hpart)).2.mpr (hresolved part hpart)

/-! ### Tokens -/

/-- A literal as a token. -/
theorem lexeme?_literalText {quote : Quote} {parts : List StringPart}
    (h : ∀ part ∈ parts, part.isWritten quote = true) (state : LexState) (rest : Text) :
    ∃ l behind, lexeme? state (literalText quote parts ++ rest) = some (l, behind) ∧
      (.continuation .both ∈ parts → l.kind = .unterminated) ∧
      (.continuation .both ∉ parts → behind = rest ∧ l = ⟨[], literalText quote parts,
        .string (String.ofList (parts.flatMap StringPart.reading)), false⟩) := by
  have hspacing : isSpacing quote.char = false := by cases quote <;> decide
  have hcomment : ∀ s, ¬startsComment quote.char s := fun s hstart =>
    absurd hstart.1 (by cases quote <;> decide)
  rw [literalText, List.cons_append, List.append_assoc, List.singleton_append,
    lexeme?_of_start hspacing (hcomment _), scanToken_quote quote.char_eq]
  refine ⟨_, _, rfl, fun hboth => ?_, fun hboth => ?_⟩
  · simp [scanString_broken h hboth]
  · simp [scanString_literal h hboth, Scan.map, Scan.after]

/-- A **string literal** of the language is a token with the literal's value exactly if all of its
parts are resolved. Such a token covers the literal, and module specifiers and metadata values are
read as its value. -/
theorem string_value_iff {quote : Quote} {parts : List StringPart} (h : IsLiteral quote parts)
    (state : LexState) (rest : Text) :
    ∃ l behind, lexeme? state (literalText quote parts ++ rest) = some (l, behind) ∧
      (l.kind = .string (literalValue parts) ↔ ∀ part ∈ parts, part.isResolved = true) ∧
      (l.kind = .string (literalValue parts) →
        l = ⟨[], literalText quote parts, .string (literalValue parts), false⟩ ∧ behind = rest ∧
          ∀ (c : Cursor), ∀ t ∈ c.peek, t.toLexeme = l →
            (moduleSpecifier c).map (·.value.1) = .ok (literalValue parts) ∧
              (metadataValue c).map (·.value) = .ok (.scalar (literalValue parts))) := by
  obtain ⟨l, behind, hread, hbroken, hclosed⟩ := lexeme?_literalText h.written state rest
  refine ⟨l, behind, hread, ?_⟩
  by_cases hboth : .continuation .both ∈ parts
  · have hkind : l.kind ≠ .string (literalValue parts) := by simp [hbroken hboth]
    refine ⟨iff_of_false hkind fun hresolved => ?_, fun heq => absurd heq hkind⟩
    exact absurd (hresolved _ hboth) (by decide)
  · obtain ⟨rfl, rfl⟩ := hclosed hboth
    constructor
    · rw [← reading_eq_value_iff h.written, literalValue, TokenKind.string.injEq, String.ofList_inj]
    · intro hkind
      have hvalue : String.ofList (parts.flatMap StringPart.reading) = literalValue parts :=
        TokenKind.string.inj hkind
      rw [hvalue] at hkind ⊢
      refine ⟨rfl, rfl, fun c t ht hlexeme => ?_⟩
      obtain ⟨tail, hrest⟩ := List.head?_eq_some_iff.mp ht
      have hfaces : c.Faces (.string (literalValue parts) :: tail.map (·.kind)) := by
        rw [Cursor.Faces, hrest, List.map_cons, ← hkind, ← hlexeme]
      obtain ⟨specifier, hspecifier, hvalue, -⟩ := moduleSpecifier_faces hfaces
      obtain ⟨field, hfield, hfieldValue, -⟩ := metadataValue_faces (.scalar _) hfaces
      exact ⟨by rw [hspecifier, Except.map, hvalue], by rw [hfield, Except.map, hfieldValue]⟩

/-- A literal with a line feed, a quote and a null character, which is continued on a second
line. -/
def continuedParts : List StringPart :=
  [.plain 'é', .escape 'n', .escape '\'', .continuation .lineFeed, .escape '0', .plain '"']

/-- All of its parts are resolved. -/
theorem string_value_iff_of_continued :
    IsLiteral .single continuedParts ∧ (∀ part ∈ continuedParts, part.isResolved = true) ∧
      ∃ l behind, lexeme? .initial (literalText .single continuedParts ++ [';']) =
          some (l, behind) ∧
        (l.kind = .string (literalValue continuedParts) ↔
          ∀ part ∈ continuedParts, part.isResolved = true) ∧
        (l.kind = .string (literalValue continuedParts) →
          l = ⟨[], literalText .single continuedParts, .string (literalValue continuedParts),
              false⟩ ∧ behind = [';'] ∧
            ∀ (c : Cursor), ∀ t ∈ c.peek, t.toLexeme = l →
              (moduleSpecifier c).map (·.value.1) = .ok (literalValue continuedParts) ∧
                (metadataValue c).map (·.value) = .ok (.scalar (literalValue continuedParts))) := by
  have hliteral : IsLiteral .single continuedParts :=
    ⟨by decide, by simp [continuedParts, StringPart.text]⟩
  exact ⟨hliteral, by decide, string_value_iff hliteral .initial [';']⟩

end ScriptBundle
