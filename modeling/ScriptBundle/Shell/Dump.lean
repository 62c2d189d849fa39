import ScriptBundle.Shell.Filter

/-!
# Dumps of Bytes

The program `od`, which shows bytes as numbers or as characters.

## Main definitions

* `DumpFormat`: how bytes are shown;
* `Dump.od`: the program.

## Main statements

* `Dump.cell_length`: a cell is as wide as it has to be.
-/

namespace ScriptBundle.Shell

/-- **How bytes are shown**: what their letters are, and how many bytes make up a number. -/
structure DumpFormat where
  /-- `a` and `c` for characters, `d` for numbers with a sign and `o`, `u` and `x` for numbers
  without one. -/
  letter : Char
  size : Nat
  /-- Whether the characters follow the numbers. -/
  showsText : Bool := false
  deriving DecidableEq, Repr

namespace Dump

/-- A cell that is filled up to a width. -/
def cell (filler : Char) (width : Nat) (s : Text) : Text :=
  List.replicate (width - s.length) filler ++ s

/-- A cell is as wide as it has to be. -/
theorem cell_length (filler : Char) (width : Nat) (s : Text) :
    (cell filler width s).length = max width s.length := by
  simp only [cell, List.length_append, List.length_replicate]
  omega

/-- The names of the characters that are not printed. -/
def controlNames : List String :=
  ["nul", "soh", "stx", "etx", "eot", "enq", "ack", "bel", "bs", "ht", "nl", "vt", "ff", "cr",
   "so", "si", "dle", "dc1", "dc2", "dc3", "dc4", "nak", "syn", "etb", "can", "em", "sub", "esc",
   "fs", "gs", "rs", "us", "sp"]

/-- The value of bytes, the lowest one first. -/
def valueOf (bytes : List UInt8) : Nat := bytes.foldr (fun b n => n * 256 + b.toNat) 0

/-- The number of values that so many bytes have. -/
def valueCount (size : Nat) : Nat := (List.replicate size 256).foldl (· * ·) 1

/-- The digits that values of a size take. -/
def width (f : DumpFormat) : Nat :=
  let digits (base : Nat) : Nat := (Nat.toDigits base (valueCount f.size - 1)).length
  match f.letter with
  | 'a' => 3
  | 'c' => 3
  | 'x' => digits 16
  | 'o' => digits 8
  | 'u' => digits 10
  | _ => (Nat.toDigits 10 (valueCount f.size / 2)).length + 1

/-- A byte as a character. -/
def charCell (b : UInt8) : Text :=
  let c := Char.ofNat b.toNat
  match c with
  | '\x00' => "\\0".toList
  | '\x07' => "\\a".toList
  | '\x08' => "\\b".toList
  | '\t' => "\\t".toList
  | '\n' => "\\n".toList
  | '\x0b' => "\\v".toList
  | '\x0c' => "\\f".toList
  | '\r' => "\\r".toList
  | _ => if isPrintable c then [c] else cell '0' 3 (Nat.toDigits 8 b.toNat)

/-- Bytes of the size of a format in a cell. -/
def shown (f : DumpFormat) (bytes : List UInt8) : Text :=
  let value := valueOf bytes
  let body : Text := match f.letter with
    | 'c' => charCell (bytes.headD 0)
    | 'a' =>
      let n := value % 128
      if n = 127 then "del".toList
      else ((controlNames[n]?).map String.toList).getD [Char.ofNat n]
    | 'x' => cell '0' (width f) (Nat.toDigits 16 value)
    | 'o' => cell '0' (width f) (Nat.toDigits 8 value)
    | 'u' => Nat.toDigits 10 value
    | _ =>
      let whole := valueCount f.size
      if 2 * value < whole then Nat.toDigits 10 value else '-' :: Nat.toDigits 10 (whole - value)
  ' ' :: cell ' ' (width f) body

/-- The parts of a size of bytes, where the last part may be shorter. -/
def chunks (size : Nat) : (budget : Nat) → List UInt8 → List (List UInt8)
  | 0, _ => []
  | _, [] => []
  | n + 1, bytes => bytes.take size :: chunks size n (bytes.drop size)

/-- A row of bytes in a format, in which a full row has `count` bytes. -/
def row (f : DumpFormat) (count : Nat) (bytes : List UInt8) : Text :=
  let cells := (chunks f.size (bytes.length + 1) bytes).flatMap (shown f)
  if f.showsText then
    let missing := (count - bytes.length) / f.size * (width f + 1)
    let text := bytes.map fun b =>
      let c := Char.ofNat b.toNat
      if isPrintable c then c else '.'
    cells ++ List.replicate missing ' ' ++ "  >".toList ++ text ++ ['<']
  else cells

/-- An address in front of a row. -/
def address (base : Char) (n : Nat) : Text :=
  match base with
  | 'n' => []
  | 'd' => cell '0' 7 (Nat.toDigits 10 n)
  | 'x' => cell '0' 6 (Nat.toDigits 16 n)
  | _ => cell '0' 7 (Nat.toDigits 8 n)

/-- The rows of bytes from an address on. A row that repeats the one before is left out. -/
def rows (base : Char) (showsAll : Bool) (formats : List DumpFormat) (count : Nat) :
    (start : Nat) → (earlier : Option (List UInt8)) → (isLeftOut : Bool) →
      List (List UInt8) → List Text
  | _, _, _, [] => []
  | start, earlier, isLeftOut, bytes :: rest =>
    let next (isLeftOut : Bool) : List Text :=
      rows base showsAll formats count (start + bytes.length) (some bytes) isLeftOut rest
    if !showsAll && earlier == some bytes && !rest.isEmpty then
      (if isLeftOut then [] else [['*']]) ++ next true
    else
      let front := address base start
      let blank := List.replicate front.length ' '
      (formats.zipIdx.map fun (f, index) =>
        (if index = 0 then front else blank) ++ row f count bytes) ++ next false

/-- Reads the formats of an option. -/
def readFormats : (budget : Nat) → Text → List DumpFormat
  | 0, _ => []
  | _, [] => []
  | n + 1, letter :: rest =>
    let digits := rest.takeWhile Char.isDigit
    let rest := rest.drop digits.length
    let (named, rest) := match rest with
      | 'C' :: rest => (some 1, rest)
      | 'S' :: rest => (some 2, rest)
      | 'I' :: rest => (some 4, rest)
      | 'L' :: rest => (some 8, rest)
      | _ => (none, rest)
    let usual := if letter = 'a' ∨ letter = 'c' then 1 else 4
    let size := (named.or (Text.number? 10 digits)).getD usual
    let (showsText, rest) := match rest with
      | 'z' :: rest => (true, rest)
      | _ => (false, rest)
    ⟨letter, max 1 size, showsText⟩ :: readFormats n rest

/-- The format that an option by itself stands for. -/
def formatOf (option value : Text) : List DumpFormat :=
  match String.ofList option with
  | "a" => [⟨'a', 1, false⟩]
  | "b" => [⟨'o', 1, false⟩]
  | "c" => [⟨'c', 1, false⟩]
  | "d" => [⟨'u', 2, false⟩]
  | "o" => [⟨'o', 2, false⟩]
  | "s" => [⟨'d', 2, false⟩]
  | "x" => [⟨'x', 2, false⟩]
  | "t" => readFormats (value.length + 1) value
  | _ => []

/-- The options of `od`. -/
def usage : Usage where
  name := "od"
  flags := "abcdosxv"
  valued := "AjNtw"
  names := [("address-radix=", "A"), ("skip-bytes=", "j"), ("read-bytes=", "N"), ("format=", "t"),
    ("width=", "w"), ("output-duplicates", "v")]

/-- The program `od`. -/
def od : Program :=
  Program.withOptions usage fun a => do
    let contents ← (Program.orInput a.operands).mapM fun operand => do
      match ← Program.contentOf operand with
      | .ok bytes => return bytes
      | .error cause =>
        Program.failOn "od" (shellName operand) cause 1
        return []
    let number? (option : String) : Option Nat := (a.value? option).bind Filter.countNumber?
    let skipped := (number? "j").getD 0
    let bytes := contents.flatten.drop skipped
    let bytes := match number? "N" with
      | some most => bytes.take most
      | none => bytes
    let given := a.options.flatMap fun (option, value) => formatOf option value
    let formats := if given.isEmpty then [⟨'o', 2, false⟩] else given
    let count := max 1 ((number? "w").getD 16)
    let base := (a.value? "A").bind List.head? |>.getD 'o'
    let parts := chunks count (bytes.length + 1) bytes
    (rows base (a.has "v") formats count skipped none false parts).forM Action.writeLine
    let last := address base (skipped + bytes.length)
    if !last.isEmpty && !(contents.all List.isEmpty && (← get).status ≠ 0) then
      Action.writeLine last

/-- The **program** of a name. -/
def ofName? (name : String) : Option Program := if name = "od" then some od else none

end Dump

end ScriptBundle.Shell
