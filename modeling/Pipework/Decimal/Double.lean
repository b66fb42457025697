import Pipework.Decimal.Rounding
import Pipework.Text.Basic

/-!
# Binary64 numbers and their text

A `Double` is kept as its 64 bits, so that equal means the same number. Its text has the fewest digits
that read back as it: positional for decimal exponents from -4 to 15 and always with a fraction, else
with an exponent of at least two digits.
-/

/-!
## Digits and blanks of every script

Where a number is read from text, the decimal digits of every script count as digits, and blanks around
the number do not count.
-/

namespace Pipework.Text.Numeral

/-- The zeros of the scripts beside ASCII; the other nine digits follow each. -/
def zeros : List Nat :=
  [0x660, 0x6F0, 0x7C0, 0x966, 0x9E6, 0xA66, 0xAE6, 0xB66, 0xBE6, 0xC66, 0xCE6, 0xD66, 0xDE6, 0xE50,
   0xED0, 0xF20, 0x1040, 0x1090, 0x17E0, 0x1810, 0x1946, 0x19D0, 0x1A80, 0x1A90, 0x1B50, 0x1BB0,
   0x1C40, 0x1C50, 0xA620, 0xA8D0, 0xA900, 0xA9D0, 0xA9F0, 0xAA50, 0xABF0, 0xFF10, 0x104A0, 0x10D30,
   0x11066, 0x110F0, 0x11136, 0x111D0, 0x112F0, 0x11450, 0x114D0, 0x11650, 0x116C0, 0x11730, 0x118E0,
   0x11950, 0x11C50, 0x11D50, 0x11DA0, 0x16A60, 0x16AC0, 0x16B50, 0x1D7CE, 0x1D7D8, 0x1D7E2, 0x1D7EC,
   0x1D7F6, 0x1E140, 0x1E2F0, 0x1E950, 0x1FBF0]

/-- The value of a decimal digit beside ASCII. -/
def digit? (c : Char) : Option Nat :=
  (zeros.find? fun z => z ≤ c.toNat && c.toNat < z + 10).map (c.toNat - ·)

/-- The blanks of ASCII. -/
def isBlank (c : Char) : Bool := c == ' ' || (9 ≤ c.toNat && c.toNat ≤ 13)

/-- The blanks beside ASCII. -/
def isWideBlank (c : Char) : Bool :=
  [0x85, 0xA0, 0x1680, 0x2028, 0x2029, 0x202F, 0x205F, 0x3000].contains c.toNat
    || (0x2000 ≤ c.toNat && c.toNat ≤ 0x200A)

/-- The ASCII character that stands for a rune in a number; one that has no place there becomes a
question mark. -/
def plain : Rune → Char
  | .stray _ | .half _ => '?'
  | .char c =>
    if c.toNat < 128 then c
    else if isWideBlank c then ' '
    else match digit? c with
      | some n => Char.ofNat (48 + n)
      | none => '?'

/-- A list of characters without the blanks around it. -/
def trim (cs : List Char) : List Char :=
  ((cs.dropWhile isBlank).reverse.dropWhile isBlank).reverse

/-- The characters without underscores, each of which must stand between two digits; `previous` is the
character in front. -/
def dropUnderscores? (previous : Char) : List Char → Option (List Char)
  | [] => some []
  | '_' :: rest =>
    if previous.isDigit && (rest.head?.map Char.isDigit).getD false then dropUnderscores? '_' rest
    else none
  | c :: rest => (dropUnderscores? c rest).map (c :: ·)

/-- The characters of a number as it is read: ASCII alone, without blanks around it and without the
underscores between its digits. -/
def read? (t : Text) : Option (List Char) := dropUnderscores? ' ' (trim (t.map plain))

end Pipework.Text.Numeral

/-! ## Numbers by their bits -/

namespace Pipework

/-- A binary64 number by its bits. -/
structure Double where
  bits : UInt64
deriving DecidableEq, Repr, Inhabited

namespace Double

/-- Positive infinity. -/
def infinity : Double := ⟨0x7FF0000000000000⟩

/-- Negative infinity. -/
def negInfinity : Double := ⟨0xFFF0000000000000⟩

/-- Not a number. -/
def nan : Double := ⟨0x7FF8000000000000⟩

/-- The sign bit. -/
def isNegative (d : Double) : Bool := d.bits >>> 63 == 1

/-- The eleven exponent bits. -/
def exponentField (d : Double) : Nat := (d.bits >>> 52).toNat % 2048

/-- The fifty-two fraction bits. -/
def fractionField (d : Double) : Nat := d.bits.toNat % Nat.pow 2 52

/-- The magnitude of a finite number other than zero. -/
def magnitude (d : Double) : Decimal.Binary :=
  if d.exponentField = 0 then ⟨d.fractionField, -1074, false⟩
  else ⟨Nat.pow 2 52 + d.fractionField, d.exponentField - 1075,
    d.fractionField == 0 && 1 < d.exponentField⟩

/-- The sign bit for a sign. -/
def signBits (negative : Bool) : Nat := if negative then Nat.pow 2 63 else 0

/-- The number of so many units, which have at most 53 binary digits; infinity where there are too
many. -/
def ofUnits (negative : Bool) (units : Nat) : Double :=
  let fields :=
    if units < Nat.pow 2 52 then units
    else
      let places := units.log2 - 52
      if 2046 ≤ places then 2047 * Nat.pow 2 52
      else (places + 1) * Nat.pow 2 52 + (units / Nat.pow 2 places - Nat.pow 2 52)
  ⟨(signBits negative + fields).toUInt64⟩

/-- How many units a finite number has, its sign aside. -/
def units (d : Double) : Nat :=
  if d.exponentField = 0 then d.fractionField
  else (Nat.pow 2 52 + d.fractionField) * Nat.pow 2 (d.exponentField - 1)

/-- The number nearest to `mantissa * 10 ^ exponent`. What is far beyond either end of the range is not
worked out. -/
def ofScientific (negative : Bool) (mantissa : Nat) (exponent : Int) : Double :=
  let unsigned :=
    if mantissa = 0 then 0
    else if 400 < exponent then Nat.pow 2 2200
    else if exponent < -(mantissa.log2 + 400 : Nat) then 0
    else
      Decimal.roundQuotient (mantissa * Nat.pow 10 exponent.toNat * Decimal.unitsOfOne)
        (Nat.pow 10 (-exponent).toNat)
  ofUnits negative unsigned

/-- Whether a number is not one. -/
def isNaN (d : Double) : Bool := d.exponentField == 2047 && d.fractionField != 0

/-- The whole number that a number is exactly, if it is one. -/
def toInt? (d : Double) : Option Int :=
  if d.exponentField = 2047 then none
  else
    let signed (n : Nat) : Int := if d.isNegative then -(n : Int) else n
    if d.units % Decimal.unitsOfOne = 0 then some (signed (d.units / Decimal.unitsOfOne)) else none

/-- Whether two numbers are equal: zeros are, and what is not a number is not even equal to itself. -/
def equals (d e : Double) : Bool :=
  !d.isNaN && !e.isNaN && (d == e || (d.toInt? == some 0 && e.toInt? == some 0))

/-- The digits of a natural number in base ten. -/
def decimalDigits (n : Nat) : List Char := Nat.toDigits 10 n

/-- Write a positive decimal: `0.0001` and `1000000000000000.0` are the last to go without exponent. -/
def writeDigits (d : Decimal.Digits) : List Char :=
  let digits := decimalDigits d.digits
  let point : Int := digits.length + d.exponent
  if -4 < point && point ≤ 16 then
    if point ≤ 0 then ['0', '.'] ++ List.replicate (-point).toNat '0' ++ digits
    else
      let whole := point.toNat
      let padded := digits ++ List.replicate (whole - digits.length) '0'
      let fraction := padded.drop whole
      padded.take whole ++ ['.'] ++ (if fraction.isEmpty then ['0'] else fraction)
  else
    let fraction := digits.drop 1
    let exponent := point - 1
    let places := decimalDigits exponent.natAbs
    digits.take 1 ++ (if fraction.isEmpty then [] else '.' :: fraction)
      ++ ['e', if exponent < 0 then '-' else '+']
      ++ List.replicate (2 - places.length) '0' ++ places

/-- The text of a number. -/
def text (d : Double) : Text :=
  let unsigned : List Char :=
    if d.exponentField = 2047 then
      if d.fractionField = 0 then ['i', 'n', 'f'] else ['n', 'a', 'n']
    else if d.exponentField = 0 && d.fractionField = 0 then ['0', '.', '0']
    else writeDigits (Decimal.shortest d.magnitude)
  ((if d.isNegative && !d.isNaN then ['-'] else []) ++ unsigned).map .char

/-- The digits at the front of a text: their value, their number, and the rest. -/
def readDigits : List Char → Nat × Nat × List Char
  | c :: rest => if c.isDigit then go (c.toNat - 48) 1 rest else (0, 0, c :: rest)
  | [] => (0, 0, [])
where
  go (value count : Nat) : List Char → Nat × Nat × List Char
    | c :: rest =>
      if c.isDigit then go (value * 10 + (c.toNat - 48)) (count + 1) rest else (value, count, c :: rest)
    | [] => (value, count, [])

/-- The exponent at the end of a number, zero if there is none. -/
def readExponent? : List Char → Option Int
  | [] => some 0
  | c :: rest =>
    if c.toLower == 'e' then
      let (negative, digits) : Bool × List Char := match rest with
        | '-' :: r => (true, r)
        | '+' :: r => (false, r)
        | r => (false, r)
      match readDigits digits with
      | (value, count, []) => if count = 0 then none else some (if negative then -value else value)
      | _ => none
    else none

/-- The number that some characters write: digits with an optional fraction and exponent, an infinity,
or not a number. -/
def ofChars? (chars : List Char) : Option Double :=
  let (negative, body) : Bool × List Char := match chars with
    | '-' :: r => (true, r)
    | '+' :: r => (false, r)
    | r => (false, r)
  let word := (String.ofList body).toLower
  if word == "inf" || word == "infinity" then some (if negative then negInfinity else infinity)
  else if word == "nan" then some nan
  else
    let (whole, wholeCount, rest) := readDigits body
    let (fraction, places, rest) : Nat × Nat × List Char := match rest with
      | '.' :: r => readDigits r
      | r => (0, 0, r)
    if wholeCount + places = 0 then none
    else do
      let exponent ← readExponent? rest
      return ofScientific negative (whole * Nat.pow 10 places + fraction) (exponent - places)

/-- The number that a text writes, blanks around it and underscores between its digits aside. -/
def parse? (t : Text) : Option Double := (Text.Numeral.read? t).bind ofChars?

end Double

end Pipework
