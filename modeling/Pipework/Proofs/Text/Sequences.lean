import Mathlib.Algebra.Group.Nat.Defs
import Pipework.Proofs.Text.Units

/-!
# UTF-8

A character is written as a first byte that tells how many follow, and bytes with six bits of it each. The decoder
keeps the range in which the next byte must lie; it is exactly the range of the bytes with which what was seen
still begins some character (`Owes.begins_iff`). So a sequence that the decoder gives up is the longest start of a
character (`utf8_faithful`).
-/

namespace Pipework.Coding

variable {c : Char} {e seen content rest : Bytes} {owed value : Nat} {low high x : UInt8}

/-! ## The bytes of a character -/

/-- The last bytes of a character with a number. -/
def tails : Nat → Nat → Bytes
  | 0, _ => []
  | k + 1, n => (n / 64 ^ k % 64 + 0x80).toUInt8 :: tails k n

/-- How many bytes follow the first byte of a character with a number. -/
def following (n : Nat) : Nat :=
  if n < 0x80 then 0 else if n < 0x800 then 1 else if n < 0x10000 then 2 else 3

/-- The first byte of a character that so many bytes follow, with the bits that they leave to it. -/
def leading : Nat → Nat → UInt8
  | 0, v => v.toUInt8
  | 1, v => (v % 32 + 0xC0).toUInt8
  | 2, v => (v % 16 + 0xE0).toUInt8
  | _, v => (v % 8 + 0xF0).toUInt8

theorem utf8EncodeChar_eq (c : Char) : String.utf8EncodeChar c
    = leading (following c.toNat) (c.toNat / 64 ^ following c.toNat) :: tails (following c.toNat) c.toNat := by
  have number : c.val.toNat = c.toNat := rfl
  unfold String.utf8EncodeChar following
  dsimp only
  rw [number]
  by_cases one : c.toNat < 0x80
  · rw [if_pos (by omega), if_pos one]
    simp [leading, tails]
  · rw [if_neg (by omega), if_neg one]
    by_cases two : c.toNat < 0x800
    · rw [if_pos (by omega), if_pos two]
      simp [leading, tails]
    · rw [if_neg (by omega), if_neg two]
      by_cases three : c.toNat < 0x10000
      · rw [if_pos (by omega), if_pos three]
        simp [leading, tails]
      · rw [if_neg (by omega), if_neg three]
        simp [leading, tails]

@[simp] theorem length_tails (k n : Nat) : (tails k n).length = k := by
  induction k with
  | zero => rfl
  | succ k ih => rw [tails, List.length_cons, ih]

theorem drop_tails (k j n : Nat) : (tails (k + j) n).drop k = tails j n := by
  induction k with
  | zero => rw [Nat.zero_add, List.drop_zero]
  | succ k ih => rw [Nat.succ_add, tails, List.drop_succ_cons, ih]

/-! ## What was seen of a character -/

/-- What was seen is the start of exactly the characters that have as many bytes and begin with the value, and
the next byte of one of them can be any in the range. -/
structure Owes (seen : Bytes) (owed : Nat) (low high : UInt8) (value : Nat) : Prop where
  some : seen ≠ []
  more : 0 < owed
  starts : ∀ c : Char, seen <+: String.utf8EncodeChar c ↔
    following c.toNat + 1 = seen.length + owed ∧ c.toNat / 64 ^ owed = value
  next : ∀ x : UInt8, low ≤ x ∧ x ≤ high ↔ (0x80 ≤ x.toNat ∧ x.toNat < 0xC0) ∧
    ∃ c : Char, following c.toNat + 1 = seen.length + owed ∧
      c.toNat / 64 ^ (owed - 1) = value * 64 + x.toNat % 64

namespace Owes

variable (owes : Owes seen owed low high value)
include owes

/-- The rest of a character that begins so. -/
theorem eq_append (first : seen <+: String.utf8EncodeChar c) : String.utf8EncodeChar c = seen ++ tails owed c.toNat := by
  obtain ⟨length, -⟩ := (owes.starts c).mp first
  obtain ⟨later, same⟩ := first
  rw [← same]
  congr 1
  have positive := List.length_pos_iff.mpr owes.some
  have dropped : (String.utf8EncodeChar c).drop seen.length = tails owed c.toNat := by
    obtain ⟨k, known⟩ : ∃ k, seen.length = k + 1 := ⟨seen.length - 1, by omega⟩
    have total : following c.toNat = k + owed := by omega
    rw [utf8EncodeChar_eq, known, List.drop_succ_cons, total, drop_tails]
  rwa [← same, List.drop_left] at dropped

/-- What was seen goes on with a byte in the characters that have its bits next. -/
theorem continues (c : Char) (x : UInt8) : seen ++ [x] <+: String.utf8EncodeChar c ↔
    (0x80 ≤ x.toNat ∧ x.toNat < 0xC0) ∧ following c.toNat + 1 = seen.length + owed ∧
      c.toNat / 64 ^ (owed - 1) = value * 64 + x.toNat % 64 := by
  obtain ⟨k, rfl⟩ := Nat.exists_eq_succ_of_ne_zero (Nat.ne_of_gt owes.more)
  have divided : c.toNat / 64 ^ (k + 1) = c.toNat / 64 ^ k / 64 := by
    rw [Nat.pow_succ, Nat.div_div_eq_div_mul]
  have next (first : seen <+: String.utf8EncodeChar c) :
      seen ++ [x] <+: String.utf8EncodeChar c ↔ x.toNat = c.toNat / 64 ^ k % 64 + 0x80 := by
    rw [owes.eq_append first, List.prefix_append_right_inj, tails, List.cons_prefix_cons,
      Nat.toUInt8_eq, ← UInt8.toNat_inj, UInt8.toNat_ofNat', Nat.mod_eq_of_lt (by omega)]
    simp
  rw [Nat.succ_sub_one]
  constructor
  · intro goesOn
    have first := (List.prefix_append seen [x]).trans goesOn
    obtain ⟨length, same⟩ := (owes.starts c).mp first
    have byte := (next first).mp goesOn
    refine ⟨by omega, length, ?_⟩
    rw [divided] at same
    omega
  · rintro ⟨bounds, length, same⟩
    refine (next ((owes.starts c).mpr ⟨length, ?_⟩)).mpr (by omega)
    rw [divided]
    omega

/-- A byte goes on with some character exactly when it is in the range. -/
theorem begins_iff (x : UInt8) : utf8.Begins (seen ++ [x]) ↔ low ≤ x ∧ x ≤ high := by
  rw [owes.next x]
  constructor
  · rintro ⟨c, _, ⟨⟩, first⟩
    obtain ⟨bounds, there⟩ := (owes.continues c x).mp first
    exact ⟨bounds, c, there⟩
  · rintro ⟨bounds, c, there⟩
    exact ⟨c, _, rfl, (owes.continues c x).mpr ⟨bounds, there⟩⟩

/-- What was seen begins a character, as the range is not empty. -/
theorem begins (some : low ≤ high) : utf8.Begins seen :=
  ((owes.begins_iff low).mpr ⟨UInt8.le_refl low, some⟩).shorten (List.prefix_append ..)

end Owes

theorem following_cases (n : Nat) : n < 0x80 ∧ following n = 0 ∨ (0x80 ≤ n ∧ n < 0x800) ∧ following n = 1 ∨
    (0x800 ≤ n ∧ n < 0x10000) ∧ following n = 2 ∨ 0x10000 ≤ n ∧ following n = 3 := by
  unfold following
  repeat' split
  all_goals omega

/-- After its second byte a character can go on with any bits. -/
private theorem exists_sibling {m j : Nat} (inner : j + 2 ≤ following c.toNat) (same : m / 64 = c.toNat / 64 ^ (j + 1)) :
    ∃ d : Char, following d.toNat = following c.toNat ∧ d.toNat / 64 ^ j = m := by
  have valid := c.valid
  change c.toNat.isValidChar at valid
  have number := following_cases c.toNat
  have number' := following_cases (m * 64 ^ j)
  have cases : j = 0 ∨ j = 1 := by omega
  have isValid : (m * 64 ^ j).isValidChar := by
    unfold Nat.isValidChar at valid ⊢
    rcases cases with rfl | rfl <;> omega
  refine ⟨Char.ofNat (m * 64 ^ j), ?_⟩
  rw [toNat_char isValid]
  rcases cases with rfl | rfl <;> omega

/-- After a byte in the range as much is known as before. -/
theorem Owes.push (owes : Owes seen owed low high value) (inner : 1 < owed) (inRange : low ≤ x ∧ x ≤ high) :
    Owes (seen ++ [x]) (owed - 1) 0x80 0xBF (value * 64 + x.toNat % 64) := by
  obtain ⟨bounds, c, length, same⟩ := (owes.next x).mp inRange
  have positive := List.length_pos_iff.mpr owes.some
  have total : (seen ++ [x]).length + (owed - 1) = seen.length + owed := by
    rw [List.length_append, List.length_singleton]
    omega
  refine ⟨by simp, by omega, fun d => ?_, fun y => ?_⟩
  · rw [owes.continues d x, total]
    exact and_iff_right bounds
  · have range : (0x80 : UInt8) ≤ y ∧ y ≤ 0xBF ↔ 0x80 ≤ y.toNat ∧ y.toNat < 0xC0 := by
      rw [UInt8.le_iff_toNat_le, UInt8.le_iff_toNat_le, Nat.lt_succ_iff]
      rfl
    rw [range, total, iff_self_and]
    intro _
    obtain ⟨d, alike, number⟩ := exists_sibling (c := c) (j := owed - 2)
      (m := (value * 64 + x.toNat % 64) * 64 + y.toNat % 64) (by omega) (by
        rw [show owed - 2 + 1 = owed - 1 by omega, same]
        omega)
    exact ⟨d, alike ▸ length, by rw [Nat.sub_sub]; exact number⟩

/-! ## The first byte -/

/-- The number that the first byte of a character adds its bits to. -/
def base : Nat → Nat
  | 0 => 0
  | 1 => 0xC0
  | 2 => 0xE0
  | _ => 0xF0

theorem singleton_prefix_iff (c : Char) (x : UInt8) : [x] <+: String.utf8EncodeChar c ↔
    x.toNat = base (following c.toNat) + c.toNat / 64 ^ following c.toNat := by
  have valid := c.valid
  change c.toNat.isValidChar at valid
  unfold Nat.isValidChar at valid
  have byte (m : Nat) (small : m < 0x100) : x = m.toUInt8 ↔ x.toNat = m := by
    rw [← UInt8.toNat_inj, Nat.toUInt8_eq, UInt8.toNat_ofNat', Nat.mod_eq_of_lt small]
  rw [utf8EncodeChar_eq, List.cons_prefix_cons, and_iff_left List.nil_prefix]
  rcases following_cases c.toNat with ⟨number, known⟩ | ⟨number, known⟩ | ⟨number, known⟩ | ⟨number, known⟩
  all_goals
    simp only [known, leading, base, Nat.reducePow, Nat.pow_zero, Nat.div_one, Nat.pow_one]
    rw [byte _ (by omega)]
    omega

/-- A byte that is a character by itself is the first of no other. -/
private theorem eq_of_singleton_prefix {d : Char} (alone : String.utf8EncodeChar d = [x])
    (first : [x] <+: String.utf8EncodeChar c) : c = d := by
  have mine := (singleton_prefix_iff d x).mp (alone ▸ List.prefix_rfl)
  have known : following d.toNat = 0 := by
    have length := congrArg List.length alone
    rw [utf8EncodeChar_eq] at length
    simpa using length
  rw [singleton_prefix_iff] at first
  have number := following_cases d.toNat
  rcases following_cases c.toNat with ⟨small, same⟩ | ⟨large, same⟩ | ⟨large, same⟩ | ⟨large, same⟩
  all_goals simp only [known, same, base, Nat.pow_zero, Nat.div_one] at mine first
  · exact Char.toNat_inj.mp (by omega)
  all_goals omega

/-- The numbers that the bits of a first and a second byte can be. -/
def Room : Nat → Nat → Prop
  | 1, m => 0x80 ≤ m ∧ m < 0x800
  | 2, m => 0x20 ≤ m ∧ m < 0x400 ∧ ¬ (0x360 ≤ m ∧ m < 0x380)
  | _, m => 0x10 ≤ m ∧ m < 0x110

private theorem room_iff {m : Nat} (few : owed = 1 ∨ owed = 2 ∨ owed = 3) :
    (∃ c : Char, following c.toNat = owed ∧ c.toNat / 64 ^ (owed - 1) = m) ↔ Room owed m := by
  constructor
  · rintro ⟨c, known, rfl⟩
    have valid := c.valid
    change c.toNat.isValidChar at valid
    unfold Nat.isValidChar at valid
    have number := following_cases c.toNat
    rcases few with rfl | rfl | rfl
    all_goals
      simp only [Room, Nat.reduceSub, Nat.reducePow, Nat.pow_zero, Nat.div_one, Nat.pow_one]
      omega
  · intro room
    have number := following_cases (m * 64 ^ (owed - 1))
    have valid : (m * 64 ^ (owed - 1)).isValidChar := by
      unfold Nat.isValidChar
      rcases few with rfl | rfl | rfl <;> simp only [Room] at room <;> omega
    refine ⟨Char.ofNat (m * 64 ^ (owed - 1)), ?_⟩
    rw [toNat_char valid]
    rcases few with rfl | rfl | rfl <;> simp only [Room] at room <;> omega

/-- What a first byte owes. -/
private theorem owes_first (few : owed = 1 ∧ value < 32 ∨ owed = 2 ∧ value < 16 ∨ owed = 3 ∧ value < 8)
    (first : x.toNat = base owed + value)
    (range : ∀ y : Nat, low.toNat ≤ y ∧ y ≤ high.toNat ↔ (0x80 ≤ y ∧ y < 0xC0) ∧ Room owed (value * 64 + y % 64)) :
    Owes [x] owed low high value where
  some := by simp
  more := by omega
  starts c := by
    have valid := c.valid
    change c.toNat.isValidChar at valid
    unfold Nat.isValidChar at valid
    rw [singleton_prefix_iff, first]
    rcases following_cases c.toNat with ⟨number, known⟩ | ⟨number, known⟩ | ⟨number, known⟩ | ⟨number, known⟩
    all_goals
      rw [known]
      rcases few with ⟨rfl, small⟩ | ⟨rfl, small⟩ | ⟨rfl, small⟩ <;> simp [base] <;> omega
  next y := by
    have few : owed = 1 ∨ owed = 2 ∨ owed = 3 := by omega
    rw [UInt8.le_iff_toNat_le, UInt8.le_iff_toNat_le, range, ← room_iff few]
    simp only [List.length_singleton, Nat.add_comm 1 owed, Nat.add_right_cancel_iff]

open Decoder (utf8First)

/-- A first byte is a character, or owes more bytes, or begins no character. -/
theorem utf8First_cases (x : UInt8) :
    (∃ c, String.utf8EncodeChar c = [x] ∧ utf8First x = (.none, [.char c])) ∨
      (∃ owed low high value, Owes [x] owed low high value ∧ utf8.Begins [x] ∧
        utf8First x = (.sequence [x] owed low high value, [])) ∨
      ¬ utf8.Begins [x] ∧ utf8First x = (.none, [.malformed [x]]) := by
  have bound := x.toNat_lt
  unfold utf8First
  by_cases one : x < 0x80
  · left
    have small : x.toNat < 0x80 := UInt8.lt_iff_toNat_lt.mp one
    have same : (Char.ofNat x.toNat).toNat = x.toNat := toNat_char (.inl (by omega))
    refine ⟨Char.ofNat x.toNat, ?_, if_pos one⟩
    rw [utf8EncodeChar_eq, same]
    simp [following, small, leading, tails]
  rw [if_neg one]
  right
  simp only [Bool.and_eq_true, decide_eq_true_eq, beq_iff_eq, UInt8.le_iff_toNat_le, ← UInt8.toNat_inj,
    UInt8.reduceToNat]
  have large : 0x80 ≤ x.toNat := by simpa [UInt8.lt_iff_toNat_lt] using one
  have owing {owed value : Nat} {low high : UInt8} (owes : Owes [x] owed low high value) (some : low ≤ high) :
      ∃ owed' low' high' value', Owes [x] owed' low' high' value' ∧ utf8.Begins [x] ∧
        (Unfinished.sequence [x] owed low high value, ([] : List Piece))
          = (.sequence [x] owed' low' high' value', []) := ⟨_, _, _, _, owes, owes.begins some, rfl⟩
  -- Seven kinds of first bytes owe some more.
  iterate 7
    split
    · exact .inl (owing (owes_first (by omega) (by simp only [base]; omega)
        (by simp only [Room, UInt8.reduceToNat]; omega)) (by decide))
  refine .inr ⟨?_, rfl⟩
  rintro ⟨c, _, ⟨⟩, first⟩
  rw [singleton_prefix_iff] at first
  have valid := c.valid
  change c.toNat.isValidChar at valid
  unfold Nat.isValidChar at valid
  rcases following_cases c.toNat with ⟨number, known⟩ | ⟨number, known⟩ | ⟨number, known⟩ | ⟨number, known⟩
  all_goals
    simp only [known, base, Nat.reducePow, Nat.pow_zero, Nat.div_one, Nat.pow_one] at first
    omega

/-! ## Decoding -/

/-- The state of a decoder that has seen something of a character. -/
private theorem sequenceStep_inRange (inRange : low ≤ x ∧ x ≤ high) :
    Decoder.stepState utf8 (.sequence seen owed low high value) x
      = if owed ≤ 1 then (.none, [.char (Char.ofNat (value * 64 + x.toNat % 64))])
        else (.sequence (seen ++ [x]) (owed - 1) 0x80 0xBF (value * 64 + x.toNat % 64), []) := by
  simp [Decoder.stepState, Decoder.utf8Step, inRange]

/-- A character is read to its end. -/
private theorem Owes.char (owes : Owes seen owed low high value) (first : seen <+: String.utf8EncodeChar c)
    (rest : Bytes) : Decoder.finishing ⟨utf8, .sequence seen owed low high value⟩ (tails owed c.toNat ++ rest)
      = .char c :: utf8.pieces rest := by
  induction owed generalizing seen low high value with
  | zero => exact absurd owes.more (Nat.lt_irrefl 0)
  | succ k ih =>
    generalize known : (c.toNat / 64 ^ k % 64 + 0x80).toUInt8 = x
    have goesOn : seen ++ [x] <+: String.utf8EncodeChar c := by
      rw [owes.eq_append first, List.prefix_append_right_inj, tails, known]
      exact ⟨_, rfl⟩
    have inRange := (owes.begins_iff x).mp ⟨c, _, rfl, goesOn⟩
    rw [tails, known, List.cons_append, Decoder.finishing_cons, sequenceStep_inRange inRange]
    split
    · next last =>
      obtain rfl : k = 0 := by omega
      obtain ⟨-, -, same⟩ := (owes.continues c x).mp goesOn
      simp only [Nat.add_sub_cancel, Nat.pow_zero, Nat.div_one] at same
      rw [← same, Char.ofNat_toNat]
      rfl
    · next inner => exact ih (owes.push (by omega) inRange) goesOn

/-- Some bytes fit that begin a character, as every byte is a unit. -/
private theorem fits_of_begins (nonempty : seen ≠ []) (begins : utf8.Begins seen) (rest : Bytes) :
    utf8.Fits (seen ++ rest) seen :=
  ⟨nonempty, ⟨rest, rfl⟩, begins, .inl (Nat.one_dvd _)⟩

/-- The start of a surrogate is read as two malformed bytes when it ends. -/
private theorem finishing_surrogate (last : UInt8) (rest : Bytes) :
    Decoder.finishing ⟨utf8, .surrogate last⟩ rest
      = .malformed [0xED] :: .malformed [last] :: utf8.pieces rest := by
  cases rest with
  | nil => rfl
  | cons y rest =>
    rw [Decoder.finishing_cons, pieces_eq, Decoder.finishing_cons]
    rfl

/-- What cannot go on is malformed, and what comes then is read afresh. -/
private theorem finishing_outOfRange (outside : ¬ (low ≤ x ∧ x ≤ high)) (rest : Bytes) :
    Decoder.finishing ⟨utf8, .sequence seen owed low high value⟩ (x :: rest)
      = .malformed seen :: utf8.pieces (x :: rest) := by
  rw [Decoder.finishing_cons, pieces_eq, Decoder.finishing_cons]
  simp only [Decoder.stepState, Decoder.utf8Step]
  rw [if_neg (by simpa using outside)]
  split
  · next surrogate =>
    simp only [Decoder.startsSurrogate, Bool.and_eq_true, beq_iff_eq, decide_eq_true_eq] at surrogate
    obtain ⟨⟨rfl, atLeast⟩, atMost⟩ := surrogate
    have first : utf8First x = (.none, [.malformed [x]]) := by
      simp only [UInt8.le_iff_toNat_le, UInt8.reduceToNat] at atLeast atMost
      simp only [utf8First, Bool.and_eq_true, decide_eq_true_eq, beq_iff_eq, UInt8.lt_iff_toNat_lt,
        UInt8.le_iff_toNat_le, ← UInt8.toNat_inj, UInt8.reduceToNat]
      repeat rw [if_neg (by omega)]
    rw [first, List.nil_append, finishing_surrogate]
    rfl
  · rfl

/-- A decoder gives up the longest start of a character, where there is no character. -/
private theorem Owes.malformed (owes : Owes seen owed low high value) (begins : utf8.Begins seen) {rest : Bytes}
    (noChar : ¬ utf8.HasChar (seen ++ rest)) : ∃ bad later, seen ++ rest = bad ++ later ∧ bad ≠ [] ∧
      utf8.Malformed (seen ++ rest) bad ∧
      Decoder.finishing ⟨utf8, .sequence seen owed low high value⟩ rest = .malformed bad :: utf8.pieces later := by
  induction rest generalizing seen owed low high value with
  | nil =>
    exact ⟨seen, [], rfl, owes.some, .longest (fits_of_begins owes.some begins [])
      fun start fits => by simpa using fits.first.length_le, rfl⟩
  | cons x rest ih =>
    have regrouped : seen ++ x :: rest = (seen ++ [x]) ++ rest := by simp
    by_cases inRange : low ≤ x ∧ x ≤ high
    · have goesOn := (owes.begins_iff x).mpr inRange
      have inner : 1 < owed := Nat.lt_of_not_le fun last => by
        obtain rfl : owed = 1 := Nat.le_antisymm last owes.more
        obtain ⟨c, _, ⟨⟩, first⟩ := goesOn
        have whole : seen ++ [x] = String.utf8EncodeChar c := by
          refine first.eq_of_length ?_
          rw [owes.eq_append ((List.prefix_append seen [x]).trans first)]
          simp
        exact noChar ⟨c, _, rfl, rest, by rw [← whole, regrouped]⟩
      rw [regrouped] at noChar ⊢
      obtain ⟨bad, later, same, nonempty, malformed, read⟩ := ih (owes.push inner inRange) goesOn noChar
      refine ⟨bad, later, same, nonempty, malformed, ?_⟩
      rw [Decoder.finishing_cons, sequenceStep_inRange inRange, if_neg (by omega), List.nil_append, read]
    · refine ⟨seen, x :: rest, rfl, owes.some,
        .longest (fits_of_begins owes.some begins _) fun start fits => Nat.le_of_not_lt fun longer => ?_,
        finishing_outOfRange inRange rest⟩
      refine inRange ((owes.begins_iff x).mp (fits.begins.shorten ?_))
      refine List.prefix_of_prefix_length_le ⟨rest, regrouped.symm⟩ fits.first ?_
      rw [List.length_append, List.length_singleton]
      omega

theorem utf8_faithful : utf8.Faithful where
  char {c _} rest bytes := by
    cases bytes
    obtain ⟨x, later, bytes⟩ := List.exists_cons_of_ne_nil (String.utf8EncodeChar_ne_nil (c := c))
    have first : [x] <+: String.utf8EncodeChar c := ⟨later, bytes.symm⟩
    rcases utf8First_cases x with ⟨d, alone, read⟩ | ⟨_, _, _, _, owes, begins, read⟩ | ⟨none, -⟩
    · obtain rfl := eq_of_singleton_prefix alone first
      rw [alone, List.singleton_append, pieces_eq, Decoder.finishing_cons]
      simp only [Decoder.stepState, Decoder.utf8Step]
      rw [read]
      rfl
    · rw [owes.eq_append first, List.append_assoc, List.singleton_append, pieces_eq, Decoder.finishing_cons]
      simp only [Decoder.stepState, Decoder.utf8Step]
      rw [read]
      exact owes.char first rest
    · exact absurd ⟨c, _, rfl, first⟩ none
  malformed {content} nonempty noChar := by
    obtain ⟨x, rest, rfl⟩ := List.exists_cons_of_ne_nil nonempty
    rcases utf8First_cases x with ⟨d, alone, -⟩ | ⟨_, _, _, _, owes, begins, read⟩ | ⟨none, read⟩
    · exact absurd ⟨d, [x], congrArg some alone, rest, rfl⟩ noChar
    · obtain ⟨bad, later, same, nonempty, malformed, finishing⟩ := owes.malformed begins noChar
      refine ⟨bad, later, same, nonempty, malformed, ?_⟩
      rw [pieces_eq, Decoder.finishing_cons]
      simp only [Decoder.stepState, Decoder.utf8Step]
      rw [read]
      exact finishing
    · refine ⟨[x], rest, rfl, by simp, .unit fun start fits => none (fits.begins.shorten ?_), ?_⟩
      · exact List.prefix_of_prefix_length_le ⟨rest, rfl⟩ fits.first
          (List.length_pos_iff.mpr fits.nonempty)
      · rw [pieces_eq, Decoder.finishing_cons]
        simp only [Decoder.stepState, Decoder.utf8Step]
        rw [read]
        rfl
  nonempty bytes := by
    cases bytes
    exact String.utf8EncodeChar_ne_nil

/-- **The decoder is right.** Fed byte by byte, in whatever chunks, a decoder cuts a content into its characters and
malformed sequences, in the only way there is. -/
theorem splits_iff (coding : Coding) {pieces : List Piece} :
    coding.Splits content pieces ↔ pieces = coding.pieces content := by
  cases coding with
  | utf8 => exact utf8_faithful.splits_iff
  | latin1 => exact latin1_faithful.splits_iff
  | ascii => exact ascii_faithful.splits_iff
  | utf16le => exact utf16le_faithful.splits_iff

end Pipework.Coding
