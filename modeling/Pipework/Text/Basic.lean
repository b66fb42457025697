/-!
# Text that may hold undecodable bytes

Names and arguments reach a process as bytes, yet are written and read as characters. A `Text` is a
list of runes: a character, or one stray byte that no character was read from. Reading bytes as text
never fails, and writing the text back gives the same bytes. A text that is given as 16-bit units can
also hold half of a pair, which is neither.
-/

namespace Pipework

/-- The content of a pipe, of a file or of a buffer. -/
abbrev Bytes := List UInt8

/-- One unit of text. -/
inductive Rune where
  /-- A Unicode character. -/
  | char (c : Char)
  /-- A byte that is no part of a well-formed character. -/
  | stray (b : UInt8)
  /-- One of the two units of a pair, without the other. -/
  | half (unit : UInt16)
deriving DecidableEq, Repr

instance : Inhabited Rune := ⟨.char ' '⟩

/-- The character of a rune that is one. -/
def Rune.toChar? : Rune → Option Char
  | .char c => some c
  | .stray _ | .half _ => none

/-- A rune that is a byte. -/
def Rune.isStray : Rune → Bool
  | .stray _ => true
  | .char _ | .half _ => false

instance : Coe Char Rune := ⟨.char⟩

/-- A sequence of runes. -/
abbrev Text := List Rune

/-- The runes of a string. -/
def Text.ofString (s : String) : Text := s.toList.map Rune.char

instance : Coe String Text := ⟨Text.ofString⟩

namespace Text

/-- Whether some rune is a byte. -/
def hasStray (t : Text) : Bool := t.any Rune.isStray

/-- The number that a text of decimal digits writes. -/
def toNat? (t : Text) : Option Nat := do
  let digits ← t.mapM Rune.toChar?
  if digits.all Char.isDigit then (String.ofList digits).toNat? else none

/-- The texts of a list, with a separator between neighbours. -/
def join (separator : Text) : List Text → Text
  | [] => []
  | [t] => t
  | t :: rest => t ++ separator ++ join separator rest

/-- The decimal text of a whole number. -/
def ofInt (n : Int) : Text := Text.ofString (toString n)

/-- The decimal text of a natural number. -/
def ofNat (n : Nat) : Text := Text.ofString (toString n)

end Text

end Pipework

/-!
## Hexadecimal contents

A content as two lower-case hexadecimal digits per byte. Reading takes digits of either case and leaves
out a last digit that stands alone.
-/

namespace Pipework.Bytes

/-- The two digits of a byte. -/
def hexDigits (b : UInt8) : List Char :=
  [Nat.digitChar (b.toNat / 16), Nat.digitChar (b.toNat % 16)]

/-- The digits of a content. -/
def hex (b : Bytes) : List Char := b.flatMap hexDigits

/-- What a digit counts. -/
def hexValue (c : Char) : Nat := if c.isDigit then c.toNat - 48 else c.toLower.toNat - 87

/-- The content of some digits. -/
def ofHex : List Char → Bytes
  | a :: b :: rest => (hexValue a * 16 + hexValue b).toUInt8 :: ofHex rest
  | _ => []

end Pipework.Bytes
