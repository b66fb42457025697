import Pipework.Text.Basic
import Pipework.Text.RangeTables

/-!
# Letters, numerals and identifiers

The character classes that a marker's name is read by. The two ways to write a marker use different
classes: a bare name is a letter or underscore followed by letters, numerals and underscores, a braced
name must be an identifier.
-/

namespace Pipework.Text.Letter

/-- Membership in a sorted list of ranges. -/
def inRanges : List (Nat × Nat) → Nat → Bool
  | [], _ => false
  | (low, high) :: rest, n => if n < low then false else n ≤ high || inRanges rest n

/-- A letter of any script. -/
def isLetter (c : Char) : Bool :=
  if c.toNat < 128 then c.isAlpha else inRanges letterRanges c.toNat

/-- A letter or numeral of any script. -/
def isAlphanumeric (c : Char) : Bool :=
  if c.toNat < 128 then c.isAlphanum
  else inRanges letterRanges c.toNat || inRanges numeralRanges c.toNat

/-- A character that may start an identifier. -/
def startsIdentifier (c : Char) : Bool :=
  c == '_' || (if c.toNat < 128 then c.isAlpha
    else (inRanges letterRanges c.toNat && !inRanges barredStartRanges c.toNat)
      || inRanges extraStartRanges c.toNat)

/-- A character that may follow the first of an identifier. -/
def continuesIdentifier (c : Char) : Bool :=
  startsIdentifier c || (if c.toNat < 128 then c.isDigit else inRanges innerRanges c.toNat)

end Pipework.Text.Letter

namespace Pipework.Text

/-- Whether a text is an identifier. -/
def isIdentifier : Text → Bool
  | .char c :: rest => Letter.startsIdentifier c && rest.all fun r => match r with
    | .char d => Letter.continuesIdentifier d
    | .stray _ | .half _ => false
  | _ => false

/-- A rune that may start a bare name. -/
def startsName : Rune → Bool
  | .char c => c == '_' || Letter.isLetter c
  | .stray _ | .half _ => false

/-- A rune that may continue a bare name. -/
def continuesName : Rune → Bool
  | .char c => c == '_' || Letter.isAlphanumeric c
  | .stray _ | .half _ => false

end Pipework.Text
