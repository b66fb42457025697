import Pipework.Text.Basic
import Pipework.Text.Letter
import Pipework.Text.RangeTables

/-!
# Quoted literals

How a text or a content is shown inside a message: between quotes, with everything that would not
print written as an escape. The quote is the apostrophe, unless the text holds apostrophes and no
double quote.
-/

namespace Pipework.Text.Literal

/-- A character that is shown as itself. -/
def isPrintable (c : Char) : Bool :=
  if c.toNat < 128 then 0x20 ≤ c.toNat && c.toNat != 0x7F
  else !Letter.inRanges unprintableRanges c.toNat

/-- The low `count` hexadecimal digits of a number. -/
def hex (count n : Nat) : List Char :=
  (List.range count).reverse.map fun i => Nat.digitChar (n / Nat.pow 16 i % 16)

/-- The quote that encloses a text with these characters. -/
def quoteFor (chars : List Char) : Char :=
  if chars.contains '\'' && !chars.contains '"' then '"' else '\''

/-- The escapes that texts and contents share. -/
def commonEscape (quote c : Char) : Option (List Char) :=
  if c == quote || c == '\\' then some ['\\', c]
  else if c == '\n' then some ['\\', 'n']
  else if c == '\r' then some ['\\', 'r']
  else if c == '\t' then some ['\\', 't']
  else none

/-- One rune of a text between quotes. -/
def escapeRune (quote : Char) : Rune → List Char
  | .stray b => ['\\', 'u', 'd', 'c'] ++ hex 2 b.toNat
  | .half unit => ['\\', 'u'] ++ hex 4 unit.toNat
  | .char c =>
    (commonEscape quote c).getD <|
      if isPrintable c then [c]
      else if c.toNat < 0x100 then ['\\', 'x'] ++ hex 2 c.toNat
      else if c.toNat < 0x10000 then ['\\', 'u'] ++ hex 4 c.toNat
      else ['\\', 'U'] ++ hex 8 c.toNat

/-- One byte of a content between quotes. -/
def escapeByte (quote : Char) (b : UInt8) : List Char :=
  let c := Char.ofNat b.toNat
  (commonEscape quote c).getD <|
    if 0x20 ≤ b && b < 0x7F then [c] else ['\\', 'x'] ++ hex 2 b.toNat

end Pipework.Text.Literal

namespace Pipework

/-- A text between quotes. -/
def Text.quoted (t : Text) : Text :=
  let quote := Text.Literal.quoteFor (t.filterMap Rune.toChar?)
  (quote :: t.flatMap (Text.Literal.escapeRune quote) ++ [quote]).map .char

/-- The quote that encloses a content. -/
def Bytes.quote (bytes : Bytes) : Char := Text.Literal.quoteFor (bytes.map fun b => Char.ofNat b.toNat)

/-- A content between quotes, marked with a `b`. -/
def Bytes.quoted (bytes : Bytes) : Text :=
  let quote := Bytes.quote bytes
  ('b' :: quote :: bytes.flatMap (Text.Literal.escapeByte quote) ++ [quote]).map .char

/-- A content that can grow, between quotes: apostrophes are escaped between double quotes too. -/
def Bytes.quotedGrowable (bytes : Bytes) : Text :=
  let quote := Bytes.quote bytes
  ('b' :: quote :: bytes.flatMap (Text.Literal.escapeByte '\'') ++ [quote]).map .char

end Pipework
