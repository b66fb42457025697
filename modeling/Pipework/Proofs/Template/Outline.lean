import Pipework.Proofs.Template.Acceptance

/-!
# Reading does not look at values

The reader carries values and never opens them: reading with other values is reading, and then
putting those values in the places of the first ones (`tokenize_map`). So two bindings of the same
names give the same outline, or the same error (`tokenize_outline`).
-/

namespace Pipework.Template

variable {α β : Type}

/-! ## Other values in the places of the first ones -/

/-- The draft with other values. -/
def Draft.map (f : α → β) (d : Draft α) : Draft β :=
  ⟨d.pos, d.tokens.map (Token.map f), d.pending, d.hasQuotes⟩

/-- The state with other values. -/
def State.map (f : α → β) (s : State α) : State β :=
  ⟨s.pos, s.mode, s.draft.map f, s.words.map (Word.map f)⟩

/-- The bindings with other values. -/
def Bindings.map (f : α → β) (bindings : Bindings α) : Bindings β :=
  List.map (fun binding => (binding.1, f binding.2)) bindings

variable {f : α → β}

namespace Draft

theorem push_map (d : Draft α) (pos : Nat) (r : Rune) : (d.map f).push pos r = (d.push pos r).map f := by
  rcases d with ⟨_, _, _ | ⟨start, text⟩, _⟩ <;> rfl

theorem flush_map (d : Draft α) (quoted : Bool) : (d.map f).flush quoted = (d.flush quoted).map f := by
  rcases d with ⟨_, tokens, _ | ⟨start, text⟩, _⟩
  · rfl
  · simp [flush, map, Token.map]

theorem mark_map (d : Draft α) (name : Text) (value : α) (pos : Nat) (quoted : Bool) :
    (d.map f).mark name (f value) pos quoted = (d.mark name value pos quoted).map f := by
  simp [mark, map, Token.map]

theorem finish?_map (d : Draft α) : (d.map f).finish? = d.finish?.map (Word.map f) := by
  rcases d with ⟨pos, tokens, _ | ⟨start, text⟩, quotes⟩
  · cases tokens <;> cases quotes <;> rfl
  · simp [finish?, flush, map, Word.map, Token.map]

end Draft

namespace State

theorem endWord_map (s : State α) : (s.map f).endWord = s.endWord.map f := by
  simp only [endWord, map, Draft.finish?_map, List.map_append]
  cases s.draft.finish? <;> rfl

theorem stepBare_map (s : State α) (r : Rune) : (s.map f).stepBare r = (s.stepBare r).map f := by
  unfold stepBare
  split
  · exact endWord_map s
  split
  · rfl
  split
  · rfl
  split
  · rfl
  split
  · simp only [map, Draft.flush_map]
  · simp only [map, Draft.push_map]

theorem stepDouble_map (s : State α) (opened : Nat) (r : Rune) :
    (s.map f).stepDouble opened r = (s.stepDouble opened r).map f := by
  unfold stepDouble
  split
  · simp only [map, Draft.flush_map]
  split
  · rfl
  split
  · simp only [map, Draft.flush_map]
  · simp only [map, Draft.push_map]

theorem stepAround_map (s : State α) (within : Option Nat) (r : Rune) :
    (s.map f).stepAround within r = (s.stepAround within r).map f := by
  cases within with
  | none => exact stepBare_map s r
  | some opened => exact stepDouble_map s opened r

variable {lookup : Text → Option α} {lookup' : Text → Option β}

theorem bind_map (agree : ∀ name, lookup' name = (lookup name).map f) (s : State α) (start : Nat)
    (within : Option Nat) (name : Text) :
    (s.map f).bind lookup' start within name = (s.bind lookup start within name).map (State.map f) := by
  unfold bind
  rw [agree name]
  cases lookup name with
  | none => rfl
  | some value => simp only [Option.map_some, map, Draft.mark_map, Except.map]

/-- One rune: no rule asks for more than the mode, the places and which names are bound. -/
theorem stepMode_map (agree : ∀ name, lookup' name = (lookup name).map f) (s : State α) (r : Rune) :
    (s.map f).stepMode lookup' r = (s.stepMode lookup r).map (State.map f) := by
  have sameMode : (s.map f).mode = s.mode := rfl
  unfold stepMode
  rw [sameMode]
  cases s.mode with
  | blank =>
    dsimp only
    split
    · rfl
    · exact congrArg Except.ok (stepBare_map { s with draft := ⟨s.pos, [], none, false⟩ } r)
  | bare => exact congrArg Except.ok (stepBare_map s r)
  | escaped =>
    dsimp only
    split
    · rfl
    · simp only [map, Draft.push_map, Except.map]
  | single opened =>
    dsimp only
    split
    · rfl
    · simp only [map, Draft.push_map, Except.map]
  | double opened => exact congrArg Except.ok (stepDouble_map s opened r)
  | doubleEscaped opened =>
    dsimp only
    split
    · rfl
    split <;> simp only [map, Draft.push_map, Except.map]
  | marker start within =>
    dsimp only
    split
    · rfl
    split <;> rfl
  | name start within soFar =>
    dsimp only
    split
    · rfl
    · rw [bind_map agree]
      cases s.bind lookup start within soFar with
      | error fault => rfl
      | ok marked => exact congrArg Except.ok (stepAround_map marked within r)
  | braced start within soFar =>
    dsimp only
    split
    · split
      · exact bind_map agree s start within soFar
      · rfl
    · rfl

theorem answer_map (agree : ∀ name, lookup' name = (lookup name).map f) (t : Text) (s : State α) :
    (s.map f).answer lookup' t = (s.answer lookup t).map (List.map (Word.map f)) := by
  induction t generalizing s with
  | nil =>
    have sameMode : (s.map f).mode = s.mode := rfl
    simp only [answer_nil, finish, sameMode]
    cases s.mode with
    | blank | escaped | single | double | doubleEscaped | marker | braced => rfl
    | bare => exact congrArg (fun ended : State β => Except.ok ended.words) (endWord_map s)
    | name start within soFar =>
      simp only [bind_map agree]
      cases s.bind lookup start within soFar with
      | error fault => rfl
      | ok marked =>
        cases within with
        | none => exact congrArg (fun ended : State β => Except.ok ended.words) (endWord_map marked)
        | some opened => rfl
  | cons r t ih =>
    rw [answer_cons, answer_cons, stepMode_map agree]
    cases s.stepMode lookup r with
    | error fault => rfl
    | ok moved => exact ih moved.counted

end State

/-! ## Templates -/

theorem words?_map {lookup : Text → Option α} {lookup' : Text → Option β}
    (agree : ∀ name, lookup' name = (lookup name).map f) (template : Text) :
    words? lookup' template = (words? lookup template).map (List.map (Word.map f)) :=
  State.answer_map agree template {}

namespace Bindings

/-- The names that are bound. -/
def names (bindings : Bindings α) : List Text := List.map Prod.fst bindings

theorem get?_cons (binding : Text × α) (bindings : Bindings α) (name : Text) :
    get? (binding :: bindings) name = if binding.1 = name then some binding.2 else bindings.get? name := by
  unfold get?
  rw [List.find?_cons]
  by_cases here : binding.1 = name
  · simp [here]
  · simp [beq_eq_false_iff_ne.mpr here, here]

theorem get?_map (bindings : Bindings α) (name : Text) :
    (bindings.map f).get? name = (bindings.get? name).map f := by
  induction bindings with
  | nil => rfl
  | cons binding bindings ih =>
    have first : map f (binding :: bindings) = (binding.1, f binding.2) :: map f bindings := rfl
    rw [first, get?_cons, get?_cons, ih]
    split <;> rfl

/-- What is left of the value of a name without the value: whether the name is bound. -/
theorem get?_map_unit (bindings : Bindings α) (name : Text) :
    (bindings.get? name).map (fun _ => ()) = if name ∈ bindings.names then some () else none := by
  induction bindings with
  | nil => rfl
  | cons binding bindings ih =>
    have first : names (binding :: bindings) = binding.1 :: names bindings := rfl
    rw [get?_cons, first]
    by_cases here : binding.1 = name
    · simp [here]
    · simp only [here, if_false, ih, List.mem_cons, Ne.symm here, false_or]

end Bindings

/-- Reading under other values of the same names puts those values in the places of the first. -/
theorem tokenize_map (f : α → β) (template : Text) (bindings : Bindings α) :
    tokenize template (bindings.map f) = (tokenize template bindings).map (List.map (Word.map f)) := by
  unfold tokenize
  rw [words?_map bindings.get?_map]
  cases words? bindings.get? template <;> rfl

/-- A word without its values: positions, kinds of tokens, texts, names and quotes. -/
def Word.outline (w : Word α) : Word Unit := w.map fun _ => ()

/-- Bindings of the same names give words of the same outline, or the same error. -/
theorem tokenize_outline (template : Text) {first : Bindings α} {second : Bindings β}
    (sameNames : ∀ name, name ∈ first.names ↔ name ∈ second.names) :
    (tokenize template first).map (List.map Word.outline) =
      (tokenize template second).map (List.map Word.outline) := by
  have agree (name : Text) :
      (first.get? name).map (fun _ => ()) = (second.get? name).map (fun _ => ()) := by
    simp only [Bindings.get?_map_unit, sameNames name]
  have read : (words? first.get? template).map (List.map Word.outline) =
      (words? second.get? template).map (List.map Word.outline) :=
    (words?_map (fun _ => rfl) template).symm.trans (words?_map agree template)
  unfold tokenize
  cases one : words? first.get? template <;> cases two : words? second.get? template <;>
    rw [one, two] at read <;> simp_all [Except.map]

end Pipework.Template
