import ScriptBundle.Shell.Arithmetic
import ScriptBundle.Shell.Byte
import ScriptBundle.Shell.Floating

/-!
# Printing Commands

What the commands `echo` and `printf` write. Escapes may stand for bytes that are no text, so
the result is bytes.

## Main definitions

* `resolved`: a text with its escapes resolved;
* `echoOutput`: the output of `echo`;
* `FormatPart`: the parts of a format;
* `printf`: what `printf` writes, and what it has to say.

## Main statements

* `padded_length`: a padded field is as wide as it has to be.
-/

namespace ScriptBundle.Shell

/-! ### Escapes -/

/-- The byte that an escape of one letter stands for. -/
def letterByte? : Char → Option UInt8
  | 'a' => some 0x07
  | 'b' => some 0x08
  | 'e' => some 0x1B
  | 'f' => some 0x0C
  | 'n' => some 0x0A
  | 'r' => some 0x0D
  | 't' => some 0x09
  | 'v' => some 0x0B
  | '\\' => some 0x5C
  | _ => none

/-- Whether a character is an octal digit. -/
def isOctal (c : Char) : Bool := '0' ≤ c && c ≤ '7'

/-- The value of octal digits. -/
def octalValue (digits : Text) : Nat := (Text.numberFrom? 8 0 digits).getD 0

/-- The up to `limit` octal digits at the front of a text. -/
def octalDigits (limit : Nat) (s : Text) : Text := (s.take limit).takeWhile isOctal

/-- The bytes that a backslash and what is behind it stand for, and the text behind these. Up to
three octal digits count, and with `zeroFirst` as many behind a zero. -/
def readEscape (zeroFirst : Bool) : Text → List UInt8 × Text
  | [] => ([0x5C], [])
  | c :: rest =>
    if isOctal c then
      let digits := octalDigits (if zeroFirst && c == '0' then 3 else 2) rest
      ([UInt8.ofNat (octalValue (c :: digits))], rest.drop digits.length)
    else
      match letterByte? c with
      | some byte => ([byte], rest)
      | none => (textBytes ['\\', c], rest)

/-- Behind a backslash there is nothing more than before. -/
theorem readEscape_length (zeroFirst : Bool) (s : Text) :
    (readEscape zeroFirst s).2.length ≤ s.length := by
  unfold readEscape
  split
  · simp
  · split
    · simp only [List.length_drop, List.length_cons]
      omega
    · split <;> simp

/-- The bytes of a text with its escapes resolved, and whether the escape `\c` ended them, which it
does with `zeroFirst` only. -/
def resolved (zeroFirst : Bool) : Text → List UInt8 × Bool
  | [] => ([], false)
  | c :: rest =>
    if c = '\\' then
      if rest.head? = some 'c' ∧ zeroFirst then ([], true)
      else
        let (bytes, ended) := resolved zeroFirst (readEscape zeroFirst rest).2
        ((readEscape zeroFirst rest).1 ++ bytes, ended)
    else
      let (bytes, ended) := resolved zeroFirst rest
      (textBytes [c] ++ bytes, ended)
termination_by s => s.length
decreasing_by
  · have := readEscape_length zeroFirst rest
    simp only [List.length_cons]
    omega
  · simp

/-- Arguments with single spaces between them. -/
def spaced (arguments : List Text) : Text := List.intercalate [' '] arguments

/-- The output of `echo`. -/
def echoOutput (arguments : List Text) : List UInt8 :=
  let (isQuiet, shown) := match arguments with
    | ['-', 'n'] :: rest => (true, rest)
    | all => (false, all)
  let (bytes, ended) := resolved true (spaced shown)
  bytes ++ if isQuiet || ended then [] else [0x0A]

/-! ### Formats -/

/-- A number in a format, which may be an argument. -/
inductive Measure where
  | fixed (n : Nat)
  | argument
  deriving DecidableEq, Repr

/-- A **part** of a format. -/
inductive FormatPart where
  | byte (b : UInt8)
  | directive (flags : Text) (width precision : Option Measure) (letter : Char)
  /-- What looks like a directive but is none. -/
  | invalid (text : Text)
  | incomplete
  deriving DecidableEq, Repr

/-- The letters of directives. -/
def directiveLetters : Text := "bcsdiouxXeEfFgGaA".toList

/-- Reads a number in a format. -/
def readMeasure : Text → Option Measure × Text
  | '*' :: rest => (some .argument, rest)
  | s =>
    let digits := s.takeWhile Char.isDigit
    ((Text.number? 10 digits).map .fixed, s.drop digits.length)

/-- Reads a directive behind its first character. -/
def readDirective (s : Text) : FormatPart × Text :=
  let flags := s.takeWhile "#-+ 0".toList.contains
  let (width, rest) := readMeasure (s.drop flags.length)
  let (precision, rest) := match rest with
    | '.' :: rest =>
      let (found, rest) := readMeasure rest
      (some (found.getD (.fixed 0)), rest)
    | _ => (none, rest)
  match rest with
  | [] => (.incomplete, [])
  | letter :: behind =>
    if letter ∈ directiveLetters then (.directive flags width precision letter, behind)
    else (.invalid ('%' :: s.take (s.length - behind.length)), behind)

/-- Reads a format. An escape has its meaning outside of directives only. -/
def readFormat : (budget : Nat) → Text → List FormatPart
  | 0, _ => []
  | _, [] => []
  | n + 1, '\\' :: rest =>
    let (bytes, rest) := readEscape false rest
    bytes.map .byte ++ readFormat n rest
  | n + 1, '%' :: '%' :: rest => .byte 0x25 :: readFormat n rest
  | n + 1, '%' :: rest =>
    let (part, rest) := readDirective rest
    part :: readFormat n rest
  | n + 1, c :: rest => .byte (UInt8.ofNat c.toNat) :: readFormat n rest

/-! ### Numbers -/

/-- The base of a number, and the number without what tells the base. -/
def splitBase : Text → Nat × Text
  | '0' :: 'x' :: c :: rest =>
    if ((digit? c).filter (· < 16)).isSome then (16, c :: rest) else (8, '0' :: 'x' :: c :: rest)
  | '0' :: 'X' :: c :: rest =>
    if ((digit? c).filter (· < 16)).isSome then (16, c :: rest) else (8, '0' :: 'X' :: c :: rest)
  | '0' :: rest => (8, '0' :: rest)
  | s => (10, s)

/-- What is said of an argument in which a number stands in front of `rest`, which may be out of
range. Without a number all of the argument is left. -/
def conversionComplaint (argument rest : Text) (isOutOfRange : Bool) : Option Text :=
  if rest.length = argument.length ∧ !rest.isEmpty then
    some (argument ++ ": expected numeric value".toList)
  else if !rest.isEmpty then some (argument ++ ": not completely converted".toList)
  else if isOutOfRange then some (argument ++ ": Numerical result out of range".toList)
  else none

/-- The number that the first character of a quoted argument has. -/
def quotedNumber? : Text → Option Nat
  | '\'' :: rest => some (((textBytes rest).headD 0).toNat)
  | '"' :: rest => some (((textBytes rest).headD 0).toNat)
  | _ => none

/-- The number that an argument stands for, in a word with or without a sign, and what is said of
the argument if it is none. A number that is out of range counts as the one at the border. -/
def numericArgument (hasSign : Bool) (argument : Text) : Int × Option Text :=
  match quotedNumber? argument with
  | some n => (n, none)
  | none =>
    let s := argument.dropWhile isSpace
    let (isNegative, s) := match s with
      | '-' :: rest => (true, rest)
      | '+' :: rest => (false, rest)
      | _ => (false, s)
    let (base, s) := splitBase s
    let digits := s.takeWhile fun c => ((digit? c).filter (· < base)).isSome
    let value := (Text.numberFrom? base 0 digits).getD 0
    let most := if !hasSign then wordCount - 1
      else if isNegative then wordCount / 2 else wordCount / 2 - 1
    let rest := if digits.isEmpty then argument else s.drop digits.length
    let complaint := conversionComplaint argument rest (decide (most < value))
    let signed : Int := if isNegative then -(min value most : Nat) else (min value most : Nat)
    (if !hasSign ∧ most < value then (most : Int) else signed, complaint)

/-- The floating number that an argument stands for, and what is said of it if it is none. -/
def floatingArgument (argument : Text) : Floating × Option Text :=
  match quotedNumber? argument with
  | some n => ((Floating.ofRatio false n 1).1, none)
  | none =>
    match Floating.read? argument with
    | some found =>
      (found.value, conversionComplaint argument found.rest found.isOutOfRange)
    | none => (Floating.zero false, conversionComplaint argument argument false)

/-! ### Fields -/

/-- A field that is filled up to a width. -/
def padded (flags : Text) (width : Nat) (bytes : List UInt8) : List UInt8 :=
  let padding := List.replicate (width - bytes.length) 0x20
  if '-' ∈ flags then bytes ++ padding else padding ++ bytes

/-- A padded field is as wide as it has to be. -/
theorem padded_length (flags : Text) (width : Nat) (bytes : List UInt8) :
    (padded flags width bytes).length = max width bytes.length := by
  unfold padded
  split <;> simp <;> omega

/-- A number in a field. -/
def numberField (flags : Text) (width : Nat) (precision : Option Nat) (letter : Char) (i : Int) :
    List UInt8 :=
  let isSigned := letter == 'd' || letter == 'i'
  let value := if isSigned then i.natAbs else (i % wordCount).toNat
  let base := if letter = 'o' then 8 else if letter = 'x' ∨ letter = 'X' then 16 else 10
  let digits := if value = 0 ∧ precision = some 0 then [] else Nat.toDigits base value
  let digits := if letter = 'X' then digits.map Char.toUpper else digits
  let sign : Text :=
    if isSigned then
      if i < 0 then ['-'] else if '+' ∈ flags then ['+']
      else if ' ' ∈ flags then [' '] else []
    else if '#' ∈ flags ∧ value ≠ 0 then
      if base = 16 then ['0', letter] else if base = 8 then ['0'] else []
    else []
  let least :=
    match precision with
    | some least => least
    | none =>
      if '0' ∈ flags ∧ '-' ∉ flags then width - sign.length else 0
  padded flags width (textBytes (sign ++ List.replicate (least - digits.length) '0' ++ digits))

/-! ### The command -/

/-- What `printf` has written, and what it has to say. -/
structure Printout where
  bytes : List UInt8 := []
  complaints : List Text := []
  /-- The arguments that are left. -/
  arguments : List Text
  /-- Whether an escape has ended the output. -/
  isEnded : Bool := false
  /-- Why the command was given up. -/
  failure : Option Text := none
  deriving DecidableEq, Repr

namespace Printout

/-- The number that a measure stands for. -/
def measure (p : Printout) : Option Measure → Printout × Option Int
  | none => (p, none)
  | some (.fixed n) => (p, some n)
  | some .argument =>
    let (i, complaint) := numericArgument true (p.arguments.headD [])
    ({ p with arguments := p.arguments.tail, complaints := p.complaints ++ complaint.toList },
      some i)

/-- Writes one part of a format. -/
def write (p : Printout) (part : FormatPart) : Printout :=
  if p.isEnded || p.failure.isSome then p
  else
    match part with
    | .byte b => { p with bytes := p.bytes ++ [b] }
    | .incomplete => { p with failure := some "missing format character".toList }
    | .invalid text => { p with failure := some (text ++ ": invalid directive".toList) }
    | .directive flags width precision letter =>
      let (p, width) := p.measure width
      let (p, precision) := p.measure precision
      let width := width.getD 0
      let flags := if width < 0 then '-' :: flags else flags
      let precision : Option Nat := (precision.filter (0 ≤ ·)).map Int.toNat
      let argument := p.arguments.headD []
      let p := { p with arguments := p.arguments.tail }
      let text (bytes : List UInt8) : Printout :=
        let shown := match precision with
          | some most => bytes.take most
          | none => bytes
        { p with bytes := p.bytes ++ padded flags width.natAbs shown }
      match letter with
      | 's' => text (textBytes argument)
      | 'c' => { p with
          bytes := p.bytes ++ padded flags width.natAbs [(textBytes argument).headD 0] }
      | 'b' =>
        let (bytes, ended) := resolved true argument
        { text bytes with isEnded := ended }
      | _ =>
        if letter ∈ "eEfFgGaA".toList then
          let (value, complaint) := floatingArgument argument
          { p with
            bytes := p.bytes ++ textBytes (value.text flags width.natAbs precision letter)
            complaints := p.complaints ++ complaint.toList }
        else
          let (i, complaint) := numericArgument (decide (letter ∈ ['d', 'i'])) argument
          { p with
            bytes := p.bytes ++ numberField flags width.natAbs precision letter i
            complaints := p.complaints ++ complaint.toList }

/-- Applies a format until no argument is left. A format that takes none is applied once. -/
def applyFormat (format : List FormatPart) : (passes : Nat) → Printout → Printout
  | 0, p => p
  | n + 1, p =>
    let next := format.foldl write p
    if next.arguments.isEmpty || next.arguments.length == p.arguments.length || next.isEnded ||
      next.failure.isSome then next
    else applyFormat format n next

end Printout

/-- What `printf` writes for a format and arguments. -/
def printf (format : Text) (arguments : List Text) : Printout :=
  ({ arguments } : Printout).applyFormat (readFormat (format.length + 1) format)
    (arguments.length + 1)

end ScriptBundle.Shell
