import Pipework.Text.Basic

/-!
# Character codings

A coding reads bytes as characters one byte at a time: a `Decoder` keeps what it has of an unfinished
character and answers each byte with the pieces that the byte completes. How the bytes are cut into
chunks therefore cannot show. A malformed sequence is one piece as soon as it can no longer become a
character: the longest start of a character, or one byte that starts none.
-/

namespace Pipework

/-- The codings that text can be written in. -/
inductive Coding where
  | utf8
  | latin1
  | ascii
  | utf16le
deriving DecidableEq, Repr, Inhabited

namespace Coding

/-- A character that belongs to a coding's name; any other separates its parts. -/
def isNamePart (c : Char) : Bool := c.isAlphanum || c == '.'

/-- A coding's name without case, with one underscore for each run of separators between its parts. -/
def normalizeName (name : List Char) : List Char :=
  go false (name.dropWhile (!isNamePart ·))
where
  go (gap : Bool) : List Char → List Char
    | [] => []
    | c :: rest =>
      if isNamePart c then
        if gap then '_' :: c.toLower :: go false rest else c.toLower :: go false rest
      else go true rest

/-- The name of each coding. -/
def name : Coding → String
  | utf8 => "utf_8"
  | latin1 => "latin_1"
  | ascii => "ascii"
  | utf16le => "utf_16_le"

/-- The other names each coding goes by. -/
def aliases : Coding → List String
  | utf8 => ["utf8", "u8", "utf", "utf8_ucs2", "utf8_ucs4", "cp65001"]
  | latin1 => ["latin1", "latin", "l1", "8859", "cp819", "csisolatin1", "ibm819", "iso8859",
      "iso8859_1", "iso_8859_1", "iso_8859_1_1987", "iso_ir_100"]
  | ascii => ["us_ascii", "us", "646", "ansi_x3.4_1968", "ansi_x3_4_1968", "ansi_x3.4_1986", "cp367",
      "csascii", "ibm367", "iso646_us", "iso_646.irv_1991", "iso_ir_6"]
  | utf16le => ["utf_16le", "unicodelittleunmarked"]

/-- Whether a coding goes by a name. In the other names a dot may stand for a separator. -/
def goesBy (coding : Coding) (wanted : String) : Bool :=
  let undotted := wanted.map fun c => if c == '.' then '_' else c
  coding.name == wanted || coding.aliases.contains wanted || coding.aliases.contains undotted

/-- The coding of a name. -/
def ofName? (name : Text) : Option Coding := do
  let chars ← name.mapM Rune.toChar?
  let wanted := String.ofList (normalizeName chars)
  [utf8, latin1, ascii, utf16le].find? (·.goesBy wanted)

/-- The bytes of one character, or `none` where the coding has none for it. -/
def encodeChar : Coding → Char → Option Bytes
  | utf8, c => some (String.utf8EncodeChar c)
  | latin1, c => if c.toNat < 0x100 then some [c.toNat.toUInt8] else none
  | ascii, c => if c.toNat < 0x80 then some [c.toNat.toUInt8] else none
  | utf16le, c =>
    let unit (u : Nat) : Bytes := [(u % 0x100).toUInt8, (u / 0x100).toUInt8]
    if c.toNat < 0x10000 then some (unit c.toNat)
    else
      let v := c.toNat - 0x10000
      some (unit (0xD800 + v / 0x400) ++ unit (0xDC00 + v % 0x400))

/-- The bytes of a rune: a stray byte has no place in any coding, and half of a pair has none. -/
def encodeRune (coding : Coding) : Rune → Option Bytes
  | .char c => coding.encodeChar c
  | .stray _ | .half _ => none

/-- The bytes of a text, or `none` when some rune has none. -/
def encode (coding : Coding) (t : Text) : Option Bytes :=
  (t.mapM coding.encodeRune).map List.flatten

end Coding

/-- What a decoder reads off: a character, or bytes that are none. -/
inductive Piece where
  | char (c : Char)
  | malformed (bytes : Bytes)
deriving DecidableEq, Repr

/-- The unfinished character that a decoder has seen so far. -/
inductive Unfinished where
  /-- Between characters. -/
  | none
  /-- In a UTF-8 sequence: the bytes seen, how many more are owed, the range the next one must lie
  in, and the value so far. -/
  | sequence (seen : Bytes) (owed : Nat) (low high : UInt8) (value : Nat)
  /-- In UTF-8, after the two bytes `ED` and `last` that start a surrogate: no byte can make them a
  character, yet they are malformed only when something follows. -/
  | surrogate (last : UInt8)
  /-- In UTF-16: the bytes seen of a unit, or of a pair of units. -/
  | units (seen : Bytes)
deriving DecidableEq, Repr

/-- A coding and where its reading stands. -/
structure Decoder where
  coding : Coding
  state : Unfinished := .none
deriving DecidableEq, Repr

namespace Decoder

/-- The first byte of a UTF-8 sequence. -/
def utf8First (b : UInt8) : Unfinished × List Piece :=
  if b < 0x80 then (.none, [.char (Char.ofNat b.toNat)])
  else if 0xC2 ≤ b && b ≤ 0xDF then (.sequence [b] 1 0x80 0xBF (b.toNat % 32), [])
  else if b == 0xE0 then (.sequence [b] 2 0xA0 0xBF 0, [])
  else if b == 0xED then (.sequence [b] 2 0x80 0x9F 13, [])
  else if 0xE1 ≤ b && b ≤ 0xEF then (.sequence [b] 2 0x80 0xBF (b.toNat % 16), [])
  else if b == 0xF0 then (.sequence [b] 3 0x90 0xBF 0, [])
  else if 0xF1 ≤ b && b ≤ 0xF3 then (.sequence [b] 3 0x80 0xBF (b.toNat % 8), [])
  else if b == 0xF4 then (.sequence [b] 3 0x80 0x8F 4, [])
  else (.none, [.malformed [b]])

/-- Whether two bytes start a surrogate in UTF-8. -/
def startsSurrogate (seen : Bytes) (b : UInt8) : Bool := seen == [0xED] && 0xA0 ≤ b && b ≤ 0xBF

/-- What the start of a surrogate amounts to: each of its bytes is malformed by itself. -/
def surrogatePieces (last : UInt8) : List Piece := [.malformed [0xED], .malformed [last]]

/-- One byte of UTF-8. A byte outside the owed range ends what was seen as malformed and is then
read afresh. -/
def utf8Step : Unfinished → UInt8 → Unfinished × List Piece
  | .sequence seen owed low high value, b =>
    if low ≤ b && b ≤ high then
      let value := value * 64 + b.toNat % 64
      if owed ≤ 1 then (.none, [.char (Char.ofNat value)])
      else (.sequence (seen ++ [b]) (owed - 1) 0x80 0xBF value, [])
    else if startsSurrogate seen b then (.surrogate b, [])
    else
      let (next, pieces) := utf8First b
      (next, .malformed seen :: pieces)
  | .surrogate last, b =>
    let (next, pieces) := utf8First b
    (next, surrogatePieces last ++ pieces)
  | _, b => utf8First b

/-- The unit of two bytes, low byte first. -/
def unit16 (low high : UInt8) : Nat := low.toNat + 256 * high.toNat

/-- One whole UTF-16 unit between characters. -/
def utf16Unit (b₀ b₁ : UInt8) : Unfinished × List Piece :=
  let u := unit16 b₀ b₁
  if 0xD800 ≤ u && u < 0xDC00 then (.units [b₀, b₁], [])
  else if 0xDC00 ≤ u && u < 0xE000 then (.none, [.malformed [b₀, b₁]])
  else (.none, [.char (Char.ofNat u)])

/-- One byte of UTF-16, low byte first. A first half without its second is malformed alone. -/
def utf16Step : Unfinished → UInt8 → Unfinished × List Piece
  | .units [b₀], b₁ => utf16Unit b₀ b₁
  | .units [b₀, b₁], b₂ => (.units [b₀, b₁, b₂], [])
  | .units [b₀, b₁, b₂], b₃ =>
    let low := unit16 b₂ b₃
    if 0xDC00 ≤ low && low < 0xE000 then
      (.none, [.char (Char.ofNat (0x10000 + (unit16 b₀ b₁ - 0xD800) * 0x400 + (low - 0xDC00)))])
    else
      let (next, pieces) := utf16Unit b₂ b₃
      (next, .malformed [b₀, b₁] :: pieces)
  | _, b => (.units [b], [])

/-- One byte of a coding. -/
def stepState : Coding → Unfinished → UInt8 → Unfinished × List Piece
  | .utf8, s, b => utf8Step s b
  | .latin1, _, b => (.none, [.char (Char.ofNat b.toNat)])
  | .ascii, _, b => (.none, [if b < 0x80 then .char (Char.ofNat b.toNat) else .malformed [b]])
  | .utf16le, s, b => utf16Step s b

/-- The decoder after some bytes, and the pieces they completed in order. -/
def feed (d : Decoder) (bytes : Bytes) : Decoder × List Piece :=
  let (state, out) := bytes.foldl (fun (state, out) b =>
    let (next, pieces) := stepState d.coding state b
    (next, pieces.reverseAux out)) (d.state, [])
  (⟨d.coding, state⟩, out.reverse)

/-- What an unfinished character amounts to when no byte follows. -/
def finish (d : Decoder) : List Piece :=
  match d.state with
  | .none => []
  | .sequence seen .. => [.malformed seen]
  | .surrogate last => surrogatePieces last
  | .units seen => [.malformed seen]

end Decoder

/-- The pieces of a whole content. -/
def Coding.pieces (coding : Coding) (bytes : Bytes) : List Piece :=
  let (d, pieces) := (Decoder.mk coding .none).feed bytes
  pieces ++ d.finish

namespace Piece

/-- The replacement character, U+FFFD. -/
def replacement : Char := '\uFFFD'

/-- Show a malformed piece as one replacement character. -/
def replaced : Piece → Rune
  | .char c => .char c
  | .malformed _ => .char replacement

/-- Keep the bytes of a malformed piece as stray runes. -/
def kept : Piece → Text
  | .char c => [.char c]
  | .malformed bytes => bytes.map .stray

/-- Refuse a malformed piece. -/
def strict? : Piece → Option Rune
  | .char c => some (.char c)
  | .malformed _ => none

end Piece

/-- The text of a content that must be well formed. -/
def Coding.decode? (coding : Coding) (bytes : Bytes) : Option Text :=
  (coding.pieces bytes).mapM Piece.strict?

/-- The text of a content with malformed pieces replaced. -/
def Coding.decodeReplacing (coding : Coding) (bytes : Bytes) : Text :=
  (coding.pieces bytes).map Piece.replaced

namespace Text

/-- The text of bytes that name a file or an argument: UTF-8, stray bytes kept. -/
def ofBytes (bytes : Bytes) : Text := (Coding.utf8.pieces bytes).flatMap Piece.kept

/-- The bytes of a text: UTF-8, stray bytes as they are, and a question mark for half of a pair. -/
def toBytes (t : Text) : Bytes := t.flatMap fun
  | .char c => String.utf8EncodeChar c
  | .stray b => [b]
  | .half _ => String.utf8EncodeChar '?'

end Text

end Pipework
