import Pipework.Proofs.Template.Moving

/-!
# Templates side by side

A template that is read by itself leaves the reader between words, so a blank behind it hands nothing on
to what follows: no pending text, no open quotes and no name that is still looked for. What follows is
then read as it is read alone, only further to the right. The first part is an induction over the first
template that ends in a look at the mode (`answer_append_separator`); the second is reading with all places
moved alike (`State.answer_moved`).
-/

namespace Pipework.Template

variable {α : Type}

/-! ## Further to the right -/

/-- The token at a place `k` runes further on. -/
def Token.shift (k : Nat) : Token α → Token α
  | literal text pos quoted => literal text (pos + k) quoted
  | marker name value pos quoted => marker name value (pos + k) quoted

/-- The word and its tokens at places `k` runes further on. -/
def Word.shift (k : Nat) (w : Word α) : Word α := ⟨w.pos + k, w.tokens.map (Token.shift k)⟩

/-! ## Behind a blank -/

/-- No blank goes on with a name. -/
private theorem continuesName_of_separator {c : Rune} (separates : isSeparator c = true) :
    Text.continuesName c = false := by
  simp only [isSeparator, Bool.or_eq_true, decide_eq_true_eq] at separates
  rcases separates with (rfl | rfl) | rfl <;> decide

namespace State

variable {lookup : Text → Option α}

/-- Where a text could end, a blank ends its last word and nothing else is left over: the words are those
that the text has by itself. -/
private theorem stepMode_separator {s : State α} {words : List (Word α)} (ends : s.finish lookup = .ok words)
    {c : Rune} (separates : isSeparator c = true) :
    ∃ moved, s.stepMode lookup c = .ok moved ∧ moved.mode = .blank ∧ moved.words = words := by
  unfold finish at ends
  unfold stepMode
  cases mode : s.mode with
  | blank =>
    rw [mode] at ends
    cases ends
    exact ⟨s, by simp only [separates, if_true], mode, rfl⟩
  | bare =>
    rw [mode] at ends
    cases ends
    exact ⟨s.endWord, by simp only [stepBare, separates, if_true], rfl, rfl⟩
  | name start within soFar =>
    have other := continuesName_of_separator separates
    simp only [mode] at ends
    simp only [other, Bool.false_eq_true, if_false]
    cases bound : s.bind lookup start within soFar with
    | error fault =>
      rw [bound] at ends
      cases ends
    | ok marked =>
      rw [bound] at ends
      cases within with
      | some opened => cases ends
      | none =>
        cases ends
        refine ⟨marked.endWord, ?_, rfl, rfl⟩
        simp only [Except.map, stepAround, stepBare, separates, if_true]
  | escaped | single | double | doubleEscaped | marker | braced =>
    rw [mode] at ends
    cases ends

/-- Behind a text that can be read and a blank, the reader stands between words. -/
theorem answer_append_separator {s : State α} {a : Text} {words : List (Word α)}
    (read : s.answer lookup a = .ok words) {c : Rune} (separates : isSeparator c = true) (b : Text) :
    s.answer lookup (a ++ c :: b) =
      ({ pos := s.pos + a.length + 1, words := words } : State α).answer lookup b := by
  induction a generalizing s with
  | nil =>
    obtain ⟨moved, stepped, blank, sameWords⟩ := stepMode_separator read separates
    have between : ({ pos := s.pos + 1, words := words } : State α).mode = .blank := rfl
    rw [List.nil_append, answer_of_stepMode stepped, answer_blank (s := moved.counted) blank, List.length_nil,
      Nat.add_zero, answer_blank between]
    simp only [fresh, counted, pos_of_stepMode stepped, sameWords]
  | cons r a ih =>
    rw [answer_cons] at read
    rw [List.cons_append, answer_cons]
    cases stepped : s.stepMode lookup r with
    | error fault =>
      rw [stepped] at read
      cases read
    | ok moved =>
      rw [stepped] at read
      have place : moved.counted.pos + a.length + 1 = s.pos + (r :: a).length + 1 := by
        have counts : moved.counted.pos = s.pos + 1 := congrArg (· + 1) (pos_of_stepMode stepped)
        rw [counts, List.length_cons, Nat.add_assoc s.pos, Nat.add_comm 1]
      rw [← place]
      exact ih read

end State

/-! ## Whole templates -/

theorem words?_append_separator {lookup : Text → Option α} {a : Text} {words : List (Word α)}
    (read : words? lookup a = .ok words) {c : Rune} (separates : isSeparator c = true) (b : Text) :
    words? lookup (a ++ c :: b) = State.answerMoved (· + (a.length + 1)) words (words? lookup b) := by
  have joined := State.answer_append_separator (s := {}) read separates b
  have right : (({} : State α).moved (· + (a.length + 1)) words).answer lookup b =
      State.answerMoved (· + (a.length + 1)) words (words? lookup b) :=
    State.answer_moved (.inl rfl) fun p _ _ => Nat.add_right_comm p 1 _
  have place : 0 + a.length + 1 = 0 + (a.length + 1) := Nat.add_assoc _ _ _
  have between : ({ pos := 0 + a.length + 1, words := words } : State α).answer lookup b =
      (({} : State α).moved (· + (a.length + 1)) words).answer lookup b := by
    rw [State.answer_blank rfl,
      State.answer_blank (s := ({} : State α).moved (· + (a.length + 1)) words) rfl]
    simp only [State.fresh, State.moved, place, List.map_nil, List.append_nil]
  exact (joined.trans between).trans right

/-- **Reading takes a template apart at its blanks.** Where a template can be read, whatever stands behind
it and a blank is read as it is read alone: its words follow the words of the first, all places moved on by
the length of the first and the blank, and if it cannot be read, the whole fails with the same fault, so
many runes further on. -/
theorem tokenize_append_separator (a b : Text) {c : Rune}
    (separates : c = .char ' ' ∨ c = .char '\t' ∨ c = .char '\n') (bindings : Bindings α)
    {words : List (Word α)} (read : tokenize a bindings = .ok words) :
    (∀ others, tokenize b bindings = .ok others →
      tokenize (a ++ c :: b) bindings = .ok (words ++ others.map (Word.shift (a.length + 1)))) ∧
    (∀ e, tokenize b bindings = .error e → ∃ p : Nat, e = ⟨e.fault, b, some p⟩ ∧
      tokenize (a ++ c :: b) bindings = .error ⟨e.fault, a ++ c :: b, some ((p + (a.length + 1) : Nat))⟩) := by
  have isSeparated : isSeparator c = true := by
    simpa only [isSeparator, Bool.or_eq_true, decide_eq_true_eq, or_assoc] using separates
  have alone : words? bindings.get? a = .ok words := words?_of_tokenize read
  have joined := words?_append_separator alone isSeparated b
  constructor
  · intro others readOthers
    have behind := words?_of_tokenize readOthers
    unfold tokenize
    rw [joined, behind]
    rfl
  · intro e failed
    unfold tokenize at failed ⊢
    cases behind : words? bindings.get? b with
    | ok others =>
      rw [behind] at failed
      cases failed
    | error fault =>
      rw [behind] at failed
      cases failed
      refine ⟨fault.2, rfl, ?_⟩
      rw [joined, behind]
      rfl

/-- Behind a marker that only the blank ends, quotes are opened five runes further on than alone. -/
theorem tokenize_behind_marker :
    tokenize "cp$n\t'a b' $n" [("n", 7)] =
        .ok [⟨0, [.literal "cp" 0 false, .marker "n" 7 2 false]⟩, ⟨5, [.literal "a b" 6 false]⟩,
          ⟨11, [.marker "n" 7 11 false]⟩] ∧
      tokenize "cp$n\t$n 'b" [("n", 7)] = .error ⟨.openSingleQuote, "cp$n\t$n 'b", some 8⟩ := by
  have first : tokenize "cp$n" [("n", 7)] = .ok [⟨0, [.literal "cp" 0 false, .marker "n" 7 2 false]⟩] := rfl
  have words : tokenize "'a b' $n" [("n", 7)] =
      .ok [⟨0, [.literal "a b" 1 false]⟩, ⟨6, [.marker "n" 7 6 false]⟩] := rfl
  have open' : tokenize "$n 'b" [("n", 7)] = .error ⟨.openSingleQuote, "$n 'b", some 3⟩ := rfl
  have tab : Rune.char '\t' = .char ' ' ∨ Rune.char '\t' = .char '\t' ∨ Rune.char '\t' = .char '\n' :=
    .inr (.inl rfl)
  obtain ⟨p, same, fails⟩ := (tokenize_append_separator "cp$n" "$n 'b" tab _ first).2 _ open'
  cases same
  exact ⟨(tokenize_append_separator "cp$n" "'a b' $n" tab _ first).1 _ words, fails⟩

end Pipework.Template
