import Pipework.Proofs.Text.Decoding

/-!
# What a content consists of

Without looking at any decoder, a content can be cut into characters and malformed sequences
(`Coding.Splits`): where the bytes of a character stand it is this character, and elsewhere the longest start of a
character is malformed as a whole, or a single unit that starts none. There is one way only to do that, and it is
the way of the decoder, which never sees more than one byte at a time, as soon as the decoder deals with one
character and with one malformed sequence as it should (`Coding.Faithful.splits_iff`).
-/

namespace Pipework

namespace Coding

/-- How many bytes make a unit; a character is written in whole units. -/
def unit : Coding → Nat
  | utf16le => 2
  | utf8 | latin1 | ascii => 1

variable (coding : Coding)

/-- Some bytes are the start of the bytes of a character. -/
def Begins (start : Bytes) : Prop := ∃ c e, coding.encodeChar c = some e ∧ start <+: e

/-- A content has some character in front. -/
def HasChar (content : Bytes) : Prop := ∃ c e, coding.encodeChar c = some e ∧ e <+: content

/-- A content has the start of a character in front, which is made of whole units unless it is everything. -/
structure Fits (content start : Bytes) : Prop where
  nonempty : start ≠ []
  first : start <+: content
  begins : coding.Begins start
  whole : coding.unit ∣ start.length ∨ start = content

/-- What is malformed in front of a content that has no character there. -/
inductive Malformed (content : Bytes) : Bytes → Prop where
  /-- The longest start of a character. -/
  | longest {bad : Bytes} (fits : coding.Fits content bad)
    (longest : ∀ start, coding.Fits content start → start.length ≤ bad.length) : Malformed content bad
  /-- One unit, where no character starts. -/
  | unit (none : ∀ start, ¬ coding.Fits content start) : Malformed content (content.take coding.unit)

/-- A content is cut into characters and malformed sequences. -/
inductive Splits : Bytes → List Piece → Prop where
  | nil : Splits [] []
  | char {c : Char} {e rest : Bytes} {pieces : List Piece} (bytes : coding.encodeChar c = some e)
    (later : Splits rest pieces) : Splits (e ++ rest) (.char c :: pieces)
  | malformed {bad rest : Bytes} {pieces : List Piece} (nonempty : bad ≠ [])
    (noChar : ¬ coding.HasChar (bad ++ rest)) (first : coding.Malformed (bad ++ rest) bad)
    (later : Splits rest pieces) : Splits (bad ++ rest) (.malformed bad :: pieces)

variable {coding : Coding} {content a b e rest : Bytes} {c : Char} {pieces : List Piece}

theorem Begins.shorten (begins : coding.Begins b) (shorter : a <+: b) : coding.Begins a := by
  obtain ⟨c, e, bytes, first⟩ := begins
  exact ⟨c, e, bytes, shorter.trans first⟩

theorem Malformed.first (malformed : coding.Malformed content a) : a <+: content := by
  cases malformed with
  | longest fits => exact fits.first
  | unit => exact List.take_prefix ..

/-- Only one sequence is the malformed one. -/
theorem Malformed.unique (one : coding.Malformed content a) (other : coding.Malformed content b) : a = b := by
  cases one with
  | longest fits longest => cases other with
    | longest fits' longest' =>
      exact (List.prefix_of_prefix_length_le fits.first fits'.first (longest' a fits)).eq_of_length
        (Nat.le_antisymm (longest' a fits) (longest b fits'))
    | unit none => exact absurd fits (none a)
  | unit none => cases other with
    | longest fits => exact absurd fits (none b)
    | unit => rfl

end Coding

/-! ## Decoding to the end -/

namespace Decoder

/-- What a decoder reads off a content, if nothing comes after it. -/
def finishing (d : Decoder) (content : Bytes) : List Piece := (d.feed content).2 ++ (d.feed content).1.finish

@[simp] theorem finishing_nil (d : Decoder) : d.finishing [] = d.finish := rfl

theorem finishing_cons (d : Decoder) (b : UInt8) (rest : Bytes) : d.finishing (b :: rest)
    = (stepState d.coding d.state b).2 ++ finishing ⟨d.coding, (stepState d.coding d.state b).1⟩ rest := by
  rw [finishing, feed_cons]
  exact List.append_assoc ..

end Decoder

namespace Coding

variable {coding : Coding} {content a b e rest : Bytes} {c : Char} {pieces : List Piece}

theorem pieces_eq (coding : Coding) (content : Bytes) :
    coding.pieces content = Decoder.finishing ⟨coding, .none⟩ content := rfl

@[simp] theorem pieces_nil (coding : Coding) : coding.pieces [] = [] := rfl

variable (coding) in
/-- A decoder reads the bytes of a character as this character, and where none stands the malformed sequence. -/
structure Faithful : Prop where
  char : ∀ {c : Char} {e : Bytes} (rest : Bytes), coding.encodeChar c = some e →
    coding.pieces (e ++ rest) = .char c :: coding.pieces rest
  malformed : ∀ {content : Bytes}, content ≠ [] → ¬ coding.HasChar content →
    ∃ bad rest, content = bad ++ rest ∧ bad ≠ [] ∧ coding.Malformed content bad ∧
      coding.pieces content = .malformed bad :: coding.pieces rest
  nonempty : ∀ {c : Char} {e : Bytes}, coding.encodeChar c = some e → e ≠ []

/-- Its pieces are a cut of the content. -/
theorem Faithful.splits (faithful : coding.Faithful) (content : Bytes) :
    coding.Splits content (coding.pieces content) := by
  induction size : content.length using Nat.strongRecOn generalizing content with
  | ind n ih =>
    subst size
    by_cases empty : content = []
    · subst empty
      exact .nil
    by_cases hasChar : coding.HasChar content
    · obtain ⟨c, e, bytes, rest, rfl⟩ := hasChar
      rw [faithful.char rest bytes]
      refine .char bytes (ih _ ?_ rest rfl)
      have positive := List.length_pos_iff.mpr (faithful.nonempty bytes)
      rw [List.length_append]
      omega
    · obtain ⟨bad, rest, rfl, nonempty, malformed, read⟩ := faithful.malformed empty hasChar
      rw [read]
      refine .malformed nonempty hasChar malformed (ih _ ?_ rest rfl)
      have positive := List.length_pos_iff.mpr nonempty
      rw [List.length_append]
      omega

/-- There is no other cut. -/
theorem Faithful.splits_iff (faithful : coding.Faithful) :
    coding.Splits content pieces ↔ pieces = coding.pieces content := by
  refine ⟨fun splits => ?_, fun same => same ▸ faithful.splits content⟩
  induction splits with
  | nil => rfl
  | @char c e rest pieces bytes later ih => rw [faithful.char rest bytes, ih]
  | @malformed bad rest pieces nonempty noChar first later ih =>
    obtain ⟨bad', rest', same, -, malformed, read⟩ := faithful.malformed (by simp [nonempty]) noChar
    obtain rfl := first.unique malformed
    rw [read, ih, List.append_cancel_left same]

end Coding

end Pipework
