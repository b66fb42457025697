import Pipework.Text.Basic
import Pipework.Text.Literal

/-!
# Strings of runes

A string is made of characters only, and not every rune is one. A literal writes each other rune as an
escape of one 16-bit unit that is half of a pair: `\udc80` to `\udcff` are stray bytes by their last two
digits, the others are halves without their other half. Readers of literals know characters only. For
them a line is sheltered first:

* a lone half becomes the character that lies `0x800` above it, `U+E000` to `U+E7FF`;
* a character from `U+E000` on that the line has of its own gets the mark `U+E800` before it.

A marked character is itself and one of that block without a mark is a half, so different texts never
have the same sheltered string. Halves stay below the characters that follow them and above the others,
so sheltered strings are also ordered as their units are.
-/

namespace Pipework.Text

/-- One rune inside a literal. -/
def literalRune : Rune → List Char
  | .stray b => ['\\', 'u', 'd', 'c'] ++ Bytes.hexDigits b
  | .half unit => ['\\', 'u'] ++ Literal.hex 4 unit.toNat
  | .char c =>
    if c == '"' || c == '\\' then ['\\', c]
    else if c.toNat < 0x20 then ['\\', 'u', '0', '0'] ++ Bytes.hexDigits c.toNat.toUInt8
    else [c]

/-- A text as a literal between double quotes. -/
def literal (t : Text) : String := String.ofList ('"' :: t.flatMap literalRune ++ ['"'])

/-- The first character after the units that are halves of pairs. -/
def afterHalves : Char := Char.ofNat 0xE000

/-- The mark before a character that stands for itself. -/
def mark : Char := Char.ofNat 0xE800

/-- A character that is marked wherever it stands for itself. -/
def isMarked (c : Char) : Bool := afterHalves.toNat ≤ c.toNat

/-- How far above a half the character lies that stands for it. -/
def shelterShift : Nat := 0x800

/-- The unit that an escape with these four digits means. -/
def escapedUnit (digits : List Char) : Nat := digits.foldl (fun n d => n * 16 + Bytes.hexValue d) 0

/-- The first half of a pair. -/
def opensPair (unit : Nat) : Bool := 0xD800 ≤ unit && unit < 0xDC00

/-- The second half of a pair. -/
def closesPair (unit : Nat) : Bool := 0xDC00 ≤ unit && unit < 0xE000

/-- Whether a line goes on with the escape of the second half of a pair. -/
def continuesPair : List Char → Bool
  | '\\' :: 'u' :: a :: b :: c :: d :: _ => closesPair (escapedUnit [a, b, c, d])
  | _ => false

/-- Shelter the rest of a line, after what is done of it, last character first; `paired` if it starts
with the second half of a pair. A pair is a character that gets the mark, and an escaped backslash starts
no other escape. -/
def shelterOnto (done : List Char) (paired : Bool) : List Char → List Char
  | '\\' :: 'u' :: a :: b :: c :: d :: rest =>
    let unit := escapedUnit [a, b, c, d]
    let escape := [d, c, b, a, 'u', '\\']
    if paired then shelterOnto (escape ++ done) false rest
    else if opensPair unit && continuesPair rest then
      shelterOnto (escape ++ mark :: done) true rest
    else if opensPair unit || closesPair unit then
      shelterOnto (Char.ofNat (unit + shelterShift) :: done) false rest
    else if isMarked (Char.ofNat unit) then shelterOnto (escape ++ mark :: done) false rest
    else shelterOnto (escape ++ done) false rest
  | '\\' :: c :: rest => shelterOnto (c :: '\\' :: done) false rest
  | c :: rest => shelterOnto (if isMarked c then c :: mark :: done else c :: done) false rest
  | [] => done.reverse

/-- A line in which every rune of a literal is made of characters. -/
def shelter (line : String) : String := String.ofList (shelterOnto [] false line.toList)

/-- The rune of a half. -/
def ofUnit (unit : Nat) : Rune :=
  if 0xDC80 ≤ unit && unit ≤ 0xDCFF then .stray (unit - 0xDC00).toUInt8 else .half unit.toUInt16

/-- Read one more character of a sheltered string, after the runes so far, last one first, and perhaps
a mark. -/
def readSheltered : Text × Bool → Char → Text × Bool
  | (runes, true), c => (.char c :: runes, false)
  | (runes, false), c =>
    if c == mark then (runes, true)
    else if isMarked c then (ofUnit (c.toNat - shelterShift) :: runes, false)
    else (.char c :: runes, false)

/-- The text of a string from a sheltered line. -/
def ofSheltered (s : String) : Text := (s.toList.foldl readSheltered ([], false)).1.reverse

/-- The characters that stand for a rune in a sheltered line. -/
def shelterRune : Rune → List Char
  | .stray b => [Char.ofNat (0xDC00 + b.toNat + shelterShift)]
  | .half unit => [Char.ofNat (unit.toNat + shelterShift)]
  | .char c => if isMarked c then [mark, c] else [c]

/-- A text as a string of a sheltered line. -/
def toSheltered (t : Text) : String := String.ofList (t.flatMap shelterRune)

end Pipework.Text
