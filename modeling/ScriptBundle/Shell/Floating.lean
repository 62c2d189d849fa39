import ScriptBundle.Shell.Byte
import ScriptBundle.Text.Blank
import ScriptBundle.Text.Numeral

/-!
# Floating Numbers

Numbers of 53 significant bits: how they are read, and how they are written in decimal and in
hexadecimal notation. All of it is exact arithmetic on natural numbers; a number is rounded once,
to the nearest one and among two of these to the even one.

## Main definitions

* `Floating`: a floating number;
* `nearest`: the whole number nearest to a quotient;
* `Floating.ofRatio`: the floating number nearest to a ratio;
* `Floating.read`: reads a floating number;
* `Floating.text`: writes a floating number by a directive.

## Main statements

* `nearest_one`: a whole number is nearest to itself.
-/

namespace ScriptBundle.Shell

/-- A **floating** number. -/
inductive Floating where
  /-- So many units, each of them two to the power of the exponent. -/
  | finite (isNegative : Bool) (units : Nat) (exponent : Int)
  | infinite (isNegative : Bool)
  | undefined (isNegative : Bool)
  deriving DecidableEq, Repr

/-- The whole number **nearest** to a quotient, and the even one of two. -/
def nearest (dividend divisor : Nat) : Nat :=
  let whole := dividend / divisor
  let double := 2 * (dividend % divisor)
  if divisor < double ∨ (double = divisor ∧ whole % 2 = 1) then whole + 1 else whole

/-- A whole number is nearest to itself. -/
theorem nearest_one (n : Nat) : nearest n 1 = n := by
  simp [nearest, Nat.mod_one]

/-- Ten to a power. -/
def tenTo : Nat → Nat
  | 0 => 1
  | n + 1 => 10 * tenTo n

namespace Floating

/-! ### Reading -/

/-- The number of units of a number of full precision. -/
def fullUnits : Nat := 1 <<< 52

/-- The least exponent. -/
def leastExponent : Int := -1074

/-- A ratio times two to a power, as a ratio. -/
def shifted (dividend divisor : Nat) (power : Int) : Nat × Nat :=
  if 0 ≤ power then (dividend <<< power.toNat, divisor) else (dividend, divisor <<< (-power).toNat)

/-- The floating number nearest to a positive **ratio**, and whether it is outside of the range in
which numbers have full precision. -/
def ofRatio (isNegative : Bool) (dividend divisor : Nat) : Floating × Bool :=
  let guess : Int := (Nat.log2 dividend : Int) - Nat.log2 divisor - 52
  let (p, q) := shifted dividend divisor (-guess)
  let exponent := if p < q * fullUnits then guess - 1 else guess
  let exponent := max exponent leastExponent
  let (p, q) := shifted dividend divisor (-exponent)
  let units := nearest p q
  let (units, exponent) :=
    if units = 2 * fullUnits then (fullUnits, exponent + 1) else (units, exponent)
  if 971 < exponent then (infinite isNegative, true)
  else (finite isNegative units exponent, units < fullUnits && p % q != 0)

/-- The zero of a sign. -/
def zero (isNegative : Bool) : Floating := finite isNegative 0 0

/-- What has been read of a number. -/
structure Reading where
  value : Floating
  /-- Whether the number is too great or too small to be had. -/
  isOutOfRange : Bool := false
  rest : Text
  deriving DecidableEq, Repr

/-- The exponent that stands behind one of some letters, and what is behind it. -/
def readExponent (letters : Text) (s : Text) : Int × Text :=
  match s with
  | c :: rest =>
    if c ∈ letters then
      let (isNegative, behind) := match rest with
        | '-' :: behind => (true, behind)
        | '+' :: behind => (false, behind)
        | _ => (false, rest)
      let digits := behind.takeWhile Char.isDigit
      match Text.number? 10 digits with
      | some n => (if isNegative then -(n : Int) else n, behind.drop digits.length)
      | none => (0, s)
    else (0, s)
  | [] => (0, [])

/-- The digits of a number in front of its point and behind it, and what is behind them. -/
def readDigits (isDigit : Char → Bool) (s : Text) : Text × Text × Text :=
  let whole := s.takeWhile isDigit
  match s.drop whole.length with
  | '.' :: behind =>
    let part := behind.takeWhile isDigit
    (whole, part, behind.drop part.length)
  | rest => (whole, [], rest)

/-- Reads a number without its sign in decimal notation. -/
def readDecimal? (isNegative : Bool) (s : Text) : Option Reading :=
  let (whole, part, rest) := readDigits Char.isDigit s
  (Text.number? 10 (whole ++ part)).map fun n =>
    let (power, rest) := readExponent ['e', 'E'] rest
    let power := power - part.length
    let size := (Nat.toDigits 10 n).length + power
    if n = 0 then { value := zero isNegative, rest }
    else if 400 < size then { value := infinite isNegative, isOutOfRange := true, rest }
    else if size < -400 then { value := zero isNegative, isOutOfRange := true, rest }
    else
      let (value, isOutOfRange) :=
        if 0 ≤ power then ofRatio isNegative (n * tenTo power.toNat) 1
        else ofRatio isNegative n (tenTo (-power).toNat)
      { value, isOutOfRange, rest }

/-- Reads a number without its sign in hexadecimal notation. -/
def readHexadecimal? (isNegative : Bool) (s : Text) : Option Reading :=
  match s with
  | '0' :: x :: digits =>
    if x = 'x' ∨ x = 'X' then
      let (whole, part, rest) := readDigits (fun c => ((digit? c).filter (· < 16)).isSome) digits
      (Text.numberFrom? 16 0 (whole ++ part)).bind fun n =>
        let (power, rest) := readExponent ['p', 'P'] rest
        let power := power - 4 * part.length
        if (whole ++ part).isEmpty then none
        else if n = 0 then some { value := zero isNegative, rest }
        else if 5000 < power then
          some { value := infinite isNegative, isOutOfRange := true, rest }
        else if power < -50000 then
          some { value := zero isNegative, isOutOfRange := true, rest }
        else
          let (p, q) := shifted n 1 power
          let (value, isOutOfRange) := ofRatio isNegative p q
          some { value, isOutOfRange, rest }
    else none
  | _ => none

/-- Reads a name that stands for a number. -/
def readName? (isNegative : Bool) (s : Text) : Option Reading :=
  let starts (name : String) : Bool := name.toList.isPrefixOf (s.map Char.toLower)
  if starts "infinity" then some { value := infinite isNegative, rest := s.drop 8 }
  else if starts "inf" then some { value := infinite isNegative, rest := s.drop 3 }
  else if starts "nan" then some { value := undefined isNegative, rest := s.drop 3 }
  else none

/-- **Reads** a floating number at the front of a text, if there is one. -/
def read? (s : Text) : Option Reading :=
  let s := s.dropWhile isSpace
  let (isNegative, s) := match s with
    | '-' :: rest => (true, rest)
    | '+' :: rest => (false, rest)
    | _ => (false, s)
  readName? isNegative s <|> readHexadecimal? isNegative s <|> readDecimal? isNegative s

/-! ### Writing -/

/-- The whole number nearest to a number times ten to a power. -/
def scaled (units : Nat) (exponent power : Int) : Nat :=
  let (p, q) := shifted units 1 exponent
  if 0 ≤ power then nearest (p * tenTo power.toNat) q else nearest p (q * tenTo (-power).toNat)

/-- Digits with a point in front of the last `places` of them. A point at the end is written only
where it `staysPointed`. -/
def pointed (staysPointed : Bool) (places n : Nat) : Text :=
  let digits := Nat.toDigits 10 n
  let digits := List.replicate (places + 1 - digits.length) '0' ++ digits
  let whole := digits.take (digits.length - places)
  if places = 0 ∧ !staysPointed then whole else whole ++ '.' :: digits.drop whole.length

/-- A text without the zeros at its end, and without a point that is at its end then. -/
def shortened (s : Text) : Text :=
  if '.' ∈ s then
    let s := Text.trimEndOf '0' s
    if s.getLast? = some '.' then s.dropLast else s
  else s

/-- The number of places by which the first digit of a number less than one is behind the point. -/
def placesBefore (units : Nat) (exponent : Int) : (budget : Nat) → (places : Nat) → Nat
  | 0, places => places
  | n + 1, places =>
    let (p, q) := shifted units 1 exponent
    if q ≤ p * tenTo places then places else placesBefore units exponent n (places + 1)

/-- The power of ten of the first digit of a number that is not zero. -/
def magnitude (units : Nat) (exponent : Int) : Int :=
  let (p, q) := shifted units 1 exponent
  if q ≤ p then ((Nat.toDigits 10 (p / q)).length : Int) - 1
  else -(placesBefore units exponent 400 0 : Int)

/-- The digits of a number of which `places` stand behind the first one, and the power of ten of
the first one. -/
def significand (units : Nat) (exponent : Int) (places : Nat) : Nat × Int :=
  if units = 0 then (0, 0)
  else
    let power := magnitude units exponent
    let n := scaled units exponent (places - power)
    if n = 10 * tenTo places then (tenTo places, power + 1) else (n, power)

/-- An exponent as it is written, with at least so many digits. -/
def exponentText (least : Nat) (power : Int) : Text :=
  let digits := Nat.toDigits 10 power.natAbs
  (if power < 0 then '-' else '+') :: List.replicate (least - digits.length) '0' ++ digits

/-- A number with digits behind the point up to a place. -/
def fixedText (keeps : Bool) (places units : Nat) (exponent : Int) : Text :=
  pointed keeps places (scaled units exponent places)

/-- A number with one digit in front of the point and an exponent. -/
def scientificText (keeps : Bool) (trim : Text → Text) (places units : Nat) (exponent : Int) :
    Text :=
  let (n, power) := significand units exponent places
  trim (pointed keeps places n) ++ 'e' :: exponentText 2 power

/-- A number with so many significant digits, in the notation that suits its size. -/
def generalText (keeps : Bool) (digits units : Nat) (exponent : Int) : Text :=
  let digits := max digits 1
  let trim := if keeps then fun s => s else shortened
  let (_, power) := significand units exponent (digits - 1)
  if power < -4 ∨ digits ≤ power then scientificText keeps trim (digits - 1) units exponent
  else trim (fixedText keeps (digits - 1 - power).toNat units exponent)

/-- A number in hexadecimal notation, with so many digits behind the point. -/
def hexadecimalText (keeps : Bool) (places? : Option Nat) (units : Nat) (exponent : Int) : Text :=
  let power := if units = 0 then 0 else if units < fullUnits then -1022 else exponent + 52
  let places := min (places?.getD 13) 13
  let n := nearest units (1 <<< (4 * (13 - places)))
  let digits := Nat.toDigits 16 n
  let digits := List.replicate (places + 1 - digits.length) '0' ++ digits
  let whole := digits.take (digits.length - places)
  let part := digits.drop whole.length
  let part := match places? with
    | some wanted => part ++ List.replicate (wanted - places) '0'
    | none => Text.trimEndOf '0' part
  "0x".toList ++ whole ++ (if part.isEmpty ∧ !keeps then [] else '.' :: part) ++
    'p' :: exponentText 1 power

/-- The text of a number that is not negative, by the letter of a directive. -/
def body (keeps : Bool) (precision : Option Nat) (letter : Char) : Floating → Text
  | infinite _ => "inf".toList
  | undefined _ => "nan".toList
  | finite _ units exponent =>
    match letter with
    | 'f' => fixedText keeps (precision.getD 6) units exponent
    | 'e' => scientificText keeps (fun s => s) (precision.getD 6) units exponent
    | 'g' => generalText keeps (precision.getD 6) units exponent
    | _ => hexadecimalText keeps precision units exponent

/-- Whether a number has the sign of negative ones. -/
def isNegative : Floating → Bool
  | finite isNegative _ _ => isNegative
  | infinite isNegative => isNegative
  | undefined isNegative => isNegative

/-- Whether a number is neither infinite nor undefined. -/
def isFinite : Floating → Bool
  | finite _ _ _ => true
  | _ => false

/-- The **text** of a number in a field of some width, by the flags and the letter of a
directive. -/
def text (flags : Text) (width : Nat) (precision : Option Nat) (letter : Char) (value : Floating) :
    Text :=
  let shown := value.body (decide ('#' ∈ flags)) precision letter.toLower
  let shown := if letter.isUpper then shown.map Char.toUpper else shown
  let sign : Text :=
    if value.isNegative then ['-'] else if '+' ∈ flags then ['+']
    else if ' ' ∈ flags then [' '] else []
  let missing := width - sign.length - shown.length
  if '-' ∈ flags then sign ++ shown ++ List.replicate missing ' '
  else if '0' ∈ flags ∧ value.isFinite then
    let front := if letter.toLower = 'a' then 2 else 0
    sign ++ shown.take front ++ List.replicate missing '0' ++ shown.drop front
  else List.replicate missing ' ' ++ sign ++ shown

end Floating

end ScriptBundle.Shell
