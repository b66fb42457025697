import Pipework.Proofs.Text.Pieces

/-!
# Codings with units of a fixed size

In Latin-1 and ASCII every unit is one byte, and stands by itself (`latin1_faithful`, `ascii_faithful`). In UTF-16 a
unit has two bytes, and a character has one unit, or two of which neither can stand alone (`utf16le_faithful`).
-/

namespace Pipework.Coding

variable {c : Char} {e content rest : Bytes}

/-- The character with a number. -/
theorem toNat_char {n : Nat} (valid : n.isValidChar) : (Char.ofNat n).toNat = n := by
  rw [Char.ofNat, dif_pos valid]
  rfl

/-! ## One byte -/

private theorem toNat_byte (x : UInt8) : (Char.ofNat x.toNat).toNat = x.toNat :=
  toNat_char (.inl (Nat.lt_trans x.toNat_lt (by decide)))

private theorem ofNat_byte {limit : Nat} (small : c.toNat < limit) (bound : limit ≤ 0x100) :
    c.toNat.toUInt8.toNat = c.toNat := by
  rw [Nat.toUInt8_eq, UInt8.toNat_ofNat', Nat.mod_eq_of_lt (by omega)]

private theorem latin1_bytes (bytes : latin1.encodeChar c = some e) :
    ∃ x : UInt8, e = [x] ∧ Char.ofNat x.toNat = c := by
  dsimp only [encodeChar] at bytes
  split at bytes
  · next small =>
    cases bytes
    exact ⟨_, rfl, by rw [ofNat_byte small (Nat.le_refl _), Char.ofNat_toNat]⟩
  · cases bytes

private theorem ascii_bytes (bytes : ascii.encodeChar c = some e) :
    ∃ x : UInt8, e = [x] ∧ x < 0x80 ∧ Char.ofNat x.toNat = c := by
  dsimp only [encodeChar] at bytes
  split at bytes
  · next small =>
    cases bytes
    have same := ofNat_byte small (by decide)
    exact ⟨_, rfl, UInt8.lt_iff_toNat_lt.mpr (by rw [same]; exact small), by rw [same, Char.ofNat_toNat]⟩
  · cases bytes

theorem latin1_faithful : latin1.Faithful where
  char rest bytes := by
    obtain ⟨x, rfl, same⟩ := latin1_bytes bytes
    rw [← same, List.singleton_append, pieces_eq, Decoder.finishing_cons]
    rfl
  malformed nonempty noChar := by
    obtain ⟨x, rest, rfl⟩ := List.exists_cons_of_ne_nil nonempty
    refine absurd ⟨Char.ofNat x.toNat, [x], ?_, rest, rfl⟩ noChar
    simp only [encodeChar, toNat_byte, if_pos x.toNat_lt, Nat.toUInt8_eq, UInt8.ofNat_toNat]
  nonempty bytes := by
    obtain ⟨x, rfl, -⟩ := latin1_bytes bytes
    simp

theorem ascii_faithful : ascii.Faithful where
  char rest bytes := by
    obtain ⟨x, rfl, small, same⟩ := ascii_bytes bytes
    rw [← same, List.singleton_append, pieces_eq, Decoder.finishing_cons]
    simp [Decoder.stepState, small, pieces_eq]
  malformed nonempty noChar := by
    obtain ⟨x, rest, rfl⟩ := List.exists_cons_of_ne_nil nonempty
    have large : ¬ x < 0x80 := fun small => by
      have small : x.toNat < 0x80 := UInt8.lt_iff_toNat_lt.mp small
      refine noChar ⟨Char.ofNat x.toNat, [x], ?_, rest, rfl⟩
      simp only [encodeChar, toNat_byte, if_pos small, Nat.toUInt8_eq, UInt8.ofNat_toNat]
    refine ⟨[x], rest, rfl, by simp, .unit fun start fits => ?_, ?_⟩
    · obtain ⟨c, e, bytes, begins⟩ := fits.begins
      obtain ⟨y, rfl, small, -⟩ := ascii_bytes bytes
      obtain ⟨z, others, rfl⟩ := List.exists_cons_of_ne_nil fits.nonempty
      cases (List.cons_prefix_cons.mp begins).1
      cases (List.cons_prefix_cons.mp fits.first).1
      exact large small
    · rw [pieces_eq, Decoder.finishing_cons]
      simp [Decoder.stepState, large, pieces_eq]
  nonempty bytes := by
    obtain ⟨x, rfl, -⟩ := ascii_bytes bytes
    simp

/-! ## Two bytes -/

open Decoder (unit16)

/-- The bytes of a unit, low byte first. -/
def units (u : Nat) : Bytes := [(u % 0x100).toUInt8, (u / 0x100).toUInt8]

theorem unit16_lt (x y : UInt8) : unit16 x y < 0x10000 := by
  have := x.toNat_lt
  have := y.toNat_lt
  unfold unit16
  omega

theorem units_unit16 (x y : UInt8) : units (unit16 x y) = [x, y] := by
  have := x.toNat_lt
  have low : unit16 x y % 0x100 = x.toNat := by
    unfold unit16
    omega
  have high : unit16 x y / 0x100 = y.toNat := by
    unfold unit16
    omega
  rw [units, low, high]
  simp

/-- Every unit consists of two bytes that make it. -/
theorem units_eq {u : Nat} (small : u < 0x10000) : ∃ x y, units u = [x, y] ∧ unit16 x y = u := by
  refine ⟨_, _, rfl, ?_⟩
  rw [unit16, Nat.toUInt8_eq, Nat.toUInt8_eq, UInt8.toNat_ofNat', UInt8.toNat_ofNat']
  omega

/-- A number is the first half of a pair. -/
def IsHigh (u : Nat) : Prop := 0xD800 ≤ u ∧ u < 0xDC00

/-- A number is the second half of a pair. -/
def IsLow (u : Nat) : Prop := 0xDC00 ≤ u ∧ u < 0xE000

/-- The number of the character of a pair. -/
def paired (high low : Nat) : Nat := 0x10000 + (high - 0xD800) * 0x400 + (low - 0xDC00)

/-- A character has one unit, which is no half of a pair, or two, which are a pair. -/
private theorem utf16_bytes (bytes : utf16le.encodeChar c = some e) :
    (∃ x y, e = [x, y] ∧ ¬ IsHigh (unit16 x y) ∧ ¬ IsLow (unit16 x y) ∧ Char.ofNat (unit16 x y) = c) ∨
      ∃ x y x' y', e = [x, y, x', y'] ∧ IsHigh (unit16 x y) ∧ IsLow (unit16 x' y') ∧
        Char.ofNat (paired (unit16 x y) (unit16 x' y')) = c := by
  have valid := c.valid
  change c.toNat.isValidChar at valid
  dsimp only [encodeChar] at bytes
  split at bytes
  · next small =>
    cases bytes
    obtain ⟨x, y, same, isUnit⟩ := units_eq small
    refine .inl ⟨x, y, same, ?_, ?_, by rw [isUnit, Char.ofNat_toNat]⟩
    · rw [isUnit, IsHigh]
      omega
    · rw [isUnit, IsLow]
      omega
  · next large =>
    cases bytes
    obtain ⟨x, y, same, isHigh⟩ := units_eq (u := 0xD800 + (c.toNat - 0x10000) / 0x400) (by omega)
    obtain ⟨x', y', same', isLow⟩ := units_eq (u := 0xDC00 + (c.toNat - 0x10000) % 0x400) (by omega)
    refine .inr ⟨x, y, x', y', ?_, ?_, ?_, ?_⟩
    · change units _ ++ units _ = _
      rw [same, same']
      rfl
    · rw [isHigh, IsHigh]
      omega
    · rw [isLow, IsLow]
      omega
    · have number : paired (0xD800 + (c.toNat - 0x10000) / 0x400) (0xDC00 + (c.toNat - 0x10000) % 0x400)
          = c.toNat := by
        unfold paired
        omega
      rw [isHigh, isLow, number, Char.ofNat_toNat]

private theorem encodeChar_unit {x y : UInt8} (noHigh : ¬ IsHigh (unit16 x y)) (noLow : ¬ IsLow (unit16 x y)) :
    utf16le.encodeChar (Char.ofNat (unit16 x y)) = some [x, y] := by
  have small := unit16_lt x y
  have valid : (unit16 x y).isValidChar := by
    unfold IsHigh at noHigh
    unfold IsLow at noLow
    unfold Nat.isValidChar
    omega
  simp only [encodeChar, toNat_char valid, if_pos small]
  exact congrArg some (units_unit16 x y)

private theorem encodeChar_pair {x y x' y' : UInt8} (isHigh : IsHigh (unit16 x y)) (isLow : IsLow (unit16 x' y')) :
    utf16le.encodeChar (Char.ofNat (paired (unit16 x y) (unit16 x' y'))) = some [x, y, x', y'] := by
  unfold IsHigh at isHigh
  unfold IsLow at isLow
  have large : ¬ paired (unit16 x y) (unit16 x' y') < 0x10000 := by
    unfold paired
    omega
  have valid : (paired (unit16 x y) (unit16 x' y')).isValidChar := by
    unfold paired Nat.isValidChar
    omega
  have high : 0xD800 + (paired (unit16 x y) (unit16 x' y') - 0x10000) / 0x400 = unit16 x y := by
    unfold paired
    omega
  have low : 0xDC00 + (paired (unit16 x y) (unit16 x' y') - 0x10000) % 0x400 = unit16 x' y' := by
    unfold paired
    omega
  simp only [encodeChar, toNat_char valid, if_neg large, high, low]
  change some (units _ ++ units _) = _
  rw [units_unit16, units_unit16]
  rfl

section Reading

variable {x y x' y' : UInt8}

private theorem pieces_unit (noHigh : ¬ IsHigh (unit16 x y)) (noLow : ¬ IsLow (unit16 x y)) (rest : Bytes) :
    utf16le.pieces (x :: y :: rest) = .char (Char.ofNat (unit16 x y)) :: utf16le.pieces rest := by
  unfold IsHigh at noHigh
  unfold IsLow at noLow
  simp [pieces_eq, Decoder.finishing_cons, Decoder.stepState, Decoder.utf16Step, Decoder.utf16Unit, noHigh, noLow]

private theorem pieces_low (isLow : IsLow (unit16 x y)) (rest : Bytes) :
    utf16le.pieces (x :: y :: rest) = .malformed [x, y] :: utf16le.pieces rest := by
  unfold IsLow at isLow
  have noHigh : ¬ (0xD800 ≤ unit16 x y ∧ unit16 x y < 0xDC00) := by omega
  simp [pieces_eq, Decoder.finishing_cons, Decoder.stepState, Decoder.utf16Step, Decoder.utf16Unit, noHigh, isLow]

private theorem pieces_pair (isHigh : IsHigh (unit16 x y)) (isLow : IsLow (unit16 x' y')) (rest : Bytes) :
    utf16le.pieces (x :: y :: x' :: y' :: rest)
      = .char (Char.ofNat (paired (unit16 x y) (unit16 x' y'))) :: utf16le.pieces rest := by
  unfold IsHigh at isHigh
  unfold IsLow at isLow
  unfold paired
  simp only [pieces_eq, Decoder.finishing_cons, Decoder.stepState, Decoder.utf16Step, Decoder.utf16Unit, isHigh,
    isLow, decide_true, Bool.and_self, if_true, List.nil_append, List.singleton_append]

private theorem pieces_alone (isHigh : IsHigh (unit16 x y)) (noLow : ¬ IsLow (unit16 x' y')) (rest : Bytes) :
    utf16le.pieces (x :: y :: x' :: y' :: rest) = .malformed [x, y] :: utf16le.pieces (x' :: y' :: rest) := by
  unfold IsHigh at isHigh
  unfold IsLow at noLow
  simp [pieces_eq, Decoder.finishing_cons, Decoder.stepState, Decoder.utf16Step, Decoder.utf16Unit, isHigh, noLow]

/-- What is left at the end is malformed as a whole. -/
private theorem pieces_rest (isHigh : IsHigh (unit16 x y)) (last : Bytes) (short : last.length < 2) :
    utf16le.pieces (x :: y :: last) = [.malformed (x :: y :: last)] := by
  unfold IsHigh at isHigh
  match last with
  | [] | [z] => simp [pieces_eq, Decoder.finishing_cons, Decoder.finishing_nil, Decoder.stepState, Decoder.utf16Step,
      Decoder.utf16Unit, isHigh, Decoder.finish]

/-- A second half begins no character. -/
private theorem begins_high (begins : utf16le.Begins (x :: y :: rest)) : ¬ IsLow (unit16 x y) := by
  obtain ⟨c, e, bytes, first⟩ := begins
  rcases utf16_bytes bytes with ⟨x', y', rfl, -, noLow, -⟩ | ⟨x', y', _, _, rfl, isHigh, -, -⟩
  all_goals
    simp only [List.cons_prefix_cons] at first
    obtain ⟨rfl, rfl, -⟩ := first
  · exact noLow
  · unfold IsHigh at isHigh
    unfold IsLow
    omega

/-- Some bytes that are the first half of a pair, and perhaps a byte more, begin a character. -/
private theorem begins_of_high (isHigh : IsHigh (unit16 x y)) (last : Bytes) (short : last.length < 2) :
    utf16le.Begins (x :: y :: last) := by
  have isLow (z : UInt8) : IsLow (unit16 z 0xDC) := by
    have := z.toNat_lt
    have : (0xDC : UInt8).toNat = 0xDC := rfl
    unfold IsLow unit16
    omega
  match last with
  | [] => exact ⟨_, _, encodeChar_pair isHigh (isLow 0), [0, 0xDC], rfl⟩
  | [z] => exact ⟨_, _, encodeChar_pair isHigh (isLow z), [0xDC], rfl⟩

/-- What fits in front of two units or more has at least one of them. -/
private theorem two_of_fits {start : Bytes} (fits : utf16le.Fits (x :: y :: rest) start) :
    ∃ more, start = x :: y :: more := by
  obtain ⟨others, same⟩ := fits.first
  match start with
  | [] => exact absurd rfl fits.nonempty
  | [_] =>
    rcases fits.whole with whole | all
    · exact absurd whole (show ¬ 2 ∣ 1 by decide)
    · cases all
  | _ :: _ :: more =>
    cases same
    exact ⟨more, rfl⟩

/-- A single byte in the end is malformed, as the start of a character. -/
private theorem malformed_byte (x : UInt8) : utf16le.Malformed [x] [x] := by
  have noHigh : ¬ IsHigh (unit16 x 0) := by
    have := x.toNat_lt
    have : (0 : UInt8).toNat = 0 := rfl
    unfold IsHigh unit16
    omega
  have noLow : ¬ IsLow (unit16 x 0) := by
    have := x.toNat_lt
    have : (0 : UInt8).toNat = 0 := rfl
    unfold IsLow unit16
    omega
  exact .longest ⟨by simp, List.prefix_rfl, ⟨_, _, encodeChar_unit noHigh noLow, [0], rfl⟩, .inr rfl⟩
    fun start fits => fits.first.length_le

/-- The first half of a pair is malformed alone, when the second half does not follow. -/
private theorem malformed_alone (isHigh : IsHigh (unit16 x y)) (noLow : ¬ IsLow (unit16 x' y')) :
    utf16le.Malformed (x :: y :: x' :: y' :: rest) [x, y] := by
  refine .longest ⟨by simp, ⟨_, rfl⟩, begins_of_high isHigh [] (by simp), .inl (Nat.dvd_refl 2)⟩ fun start fits => ?_
  obtain ⟨more, rfl⟩ := two_of_fits fits
  obtain ⟨others, same⟩ := fits.first
  match more with
  | [] => exact Nat.le_refl _
  | [_] =>
    rcases fits.whole with whole | all
    · exact absurd whole (show ¬ 2 ∣ 3 by decide)
    · cases all
  | _ :: _ :: _ =>
    cases same
    obtain ⟨c, e, bytes, first⟩ := fits.begins
    rcases utf16_bytes bytes with ⟨_, _, rfl, -⟩ | ⟨_, _, _, _, rfl, -, isLow, -⟩
    all_goals simp only [List.cons_prefix_cons] at first
    · exact absurd first.2.2 (by simp)
    · obtain ⟨-, -, rfl, rfl, -⟩ := first
      exact absurd isLow noLow

theorem utf16le_faithful : utf16le.Faithful where
  char rest bytes := by
    rcases utf16_bytes bytes with ⟨x, y, rfl, noHigh, noLow, rfl⟩ | ⟨x, y, x', y', rfl, isHigh, isLow, rfl⟩
    · exact pieces_unit noHigh noLow rest
    · exact pieces_pair isHigh isLow rest
  malformed {content} nonempty noChar := by
    match content with
    | [] => exact absurd rfl nonempty
    | [x] => exact ⟨[x], [], rfl, nonempty, malformed_byte x, rfl⟩
    | x :: y :: rest =>
      by_cases isLow : IsLow (unit16 x y)
      · refine ⟨[x, y], rest, rfl, by simp, .unit fun start fits => ?_, pieces_low isLow rest⟩
        obtain ⟨more, rfl⟩ := two_of_fits fits
        exact begins_high fits.begins isLow
      · by_cases isHigh : IsHigh (unit16 x y)
        · match rest with
          | [] | [z] =>
            exact ⟨_, [], (List.append_nil _).symm, nonempty,
              .longest ⟨nonempty, List.prefix_rfl, begins_of_high isHigh _ (by simp), .inr rfl⟩
                fun start fits => fits.first.length_le, pieces_rest isHigh _ (by simp)⟩
          | x' :: y' :: rest =>
            have noLow : ¬ IsLow (unit16 x' y') := fun isLow =>
              noChar ⟨_, _, encodeChar_pair isHigh isLow, rest, rfl⟩
            exact ⟨[x, y], x' :: y' :: rest, rfl, by simp, malformed_alone isHigh noLow,
              pieces_alone isHigh noLow rest⟩
        · exact absurd ⟨_, _, encodeChar_unit isHigh isLow, rest, rfl⟩ noChar
  nonempty bytes := by
    rcases utf16_bytes bytes with ⟨x, y, rfl, -⟩ | ⟨x, y, x', y', rfl, -⟩ <;> simp

end Reading

end Pipework.Coding
