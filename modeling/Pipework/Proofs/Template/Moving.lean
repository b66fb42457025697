import Pipework.Proofs.Template.Reading

/-!
# Moving places

The reader is never asked where it is. It writes down the place it is at, or the one before it where a
backslash turns out to keep its meaning, and goes on to the next. So a map of places that keeps these
neighbours together commutes with reading: what is found from a state whose places were moved is what is
found from the state, its places moved (`answer_moved`). A map that moves no place up to the end of a text
moves nothing of what the text leads to (`leadMoved_run`).
-/

namespace Pipework.Template

variable {α : Type}

/-! ## Tokens, words and states elsewhere -/

/-- The token at the place that a map gives it. -/
def Token.moved (f : Nat → Nat) : Token α → Token α
  | literal text pos quoted => literal text (f pos) quoted
  | marker name value pos quoted => marker name value (f pos) quoted

/-- The word and its tokens at the places that a map gives them. -/
def Word.moved (f : Nat → Nat) (w : Word α) : Word α := ⟨f w.pos, w.tokens.map (Token.moved f)⟩

/-- The mode with the places it remembers moved. -/
def Mode.moved (f : Nat → Nat) : Mode → Mode
  | .blank => .blank
  | .bare => .bare
  | .escaped => .escaped
  | .single opened => .single (f opened)
  | .double opened => .double (f opened)
  | .doubleEscaped opened => .doubleEscaped (f opened)
  | .marker start within => .marker (f start) (within.map f)
  | .name start within soFar => .name (f start) (within.map f) soFar
  | .braced start within soFar => .braced (f start) (within.map f) soFar

namespace Draft

/-- The draft with its places moved. -/
def moved (f : Nat → Nat) (d : Draft α) : Draft α :=
  ⟨f d.pos, d.tokens.map (Token.moved f), d.pending.map fun (start, text) => (f start, text), d.hasQuotes⟩

variable {f : Nat → Nat}

theorem push_moved (d : Draft α) (pos : Nat) (r : Rune) :
    (d.moved f).push (f pos) r = (d.push pos r).moved f := by
  rcases d with ⟨_, _, _ | ⟨start, text⟩, _⟩ <;> rfl

theorem flush_moved (d : Draft α) (quoted : Bool) : (d.moved f).flush quoted = (d.flush quoted).moved f := by
  rcases d with ⟨_, tokens, _ | ⟨start, text⟩, _⟩
  · rfl
  · simp [flush, moved, Token.moved]

theorem mark_moved (d : Draft α) (name : Text) (value : α) (pos : Nat) (quoted : Bool) :
    (d.moved f).mark name value (f pos) quoted = (d.mark name value pos quoted).moved f := by
  simp [mark, moved, Token.moved]

theorem finish?_moved (d : Draft α) : (d.moved f).finish? = d.finish?.map (Word.moved f) := by
  rcases d with ⟨pos, tokens, _ | ⟨start, text⟩, quotes⟩
  · cases tokens <;> cases quotes <;> rfl
  · simp [finish?, flush, moved, Word.moved, Token.moved]

end Draft

namespace State

/-- The state with its places moved, behind some words that were read before. -/
def moved (f : Nat → Nat) (before : List (Word α)) (s : State α) : State α :=
  ⟨f s.pos, s.mode.moved f, s.draft.moved f, before ++ s.words.map (Word.moved f)⟩

/-- What is found when the places are moved, behind some words: those words and the others moved, or the
fault at the place that the map gives it. -/
def answerMoved (f : Nat → Nat) (before : List (Word α)) :
    Except (Fault × Nat) (List (Word α)) → Except (Fault × Nat) (List (Word α))
  | .ok words => .ok (before ++ words.map (Word.moved f))
  | .error (fault, pos) => .error (fault, f pos)

/-- What some runes lead to when the places are moved, behind some words. -/
def leadMoved (f : Nat → Nat) (before : List (Word α)) :
    Except (Fault × Nat) (State α) → Except (Fault × Nat) (State α)
  | .ok s => .ok (s.moved f before)
  | .error (fault, pos) => .error (fault, f pos)

/-- The map keeps the reader beside the rune it has just read. Between words it need not: there the reader
does not look back. -/
def Beside (f : Nat → Nat) (s : State α) : Prop := s.mode = .blank ∨ f s.pos = f (s.pos - 1) + 1

variable {f : Nat → Nat} {before : List (Word α)}

theorem Beside.back {s : State α} (beside : s.Beside f) (inWord : s.mode ≠ .blank) :
    f s.pos - 1 = f (s.pos - 1) := by
  rcases beside with blank | together
  · exact absurd blank inWord
  · omega

@[simp] theorem modeAround_moved (within : Option Nat) :
    (modeAround within).moved f = modeAround (within.map f) := by
  cases within <;> rfl

theorem counted_moved {s : State α} (next : f (s.pos + 1) = f s.pos + 1) :
    (s.moved f before).counted = s.counted.moved f before := by
  simp only [counted, moved, next]

theorem beside_counted {s : State α} (next : f (s.pos + 1) = f s.pos + 1) : s.counted.Beside f :=
  .inr next

theorem endWord_moved (s : State α) : (s.moved f before).endWord = s.endWord.moved f before := by
  simp only [endWord, moved, Draft.finish?_moved, List.map_append, List.append_assoc]
  cases s.draft.finish? <;> rfl

/-! ## One rune -/

theorem stepBare_moved (s : State α) (r : Rune) :
    (s.moved f before).stepBare r = (s.stepBare r).moved f before := by
  unfold stepBare
  split
  · exact endWord_moved s
  split
  · rfl
  split
  · rfl
  split
  · rfl
  split
  · simp only [moved, Draft.flush_moved, Mode.moved, Option.map_none]
  · simp only [moved, Draft.push_moved, Mode.moved]

theorem stepDouble_moved (s : State α) (opened : Nat) (r : Rune) :
    (s.moved f before).stepDouble (f opened) r = (s.stepDouble opened r).moved f before := by
  unfold stepDouble
  split
  · simp only [moved, Draft.flush_moved, Mode.moved]
  split
  · rfl
  split
  · simp only [moved, Draft.flush_moved, Mode.moved, Option.map_some]
  · simp only [moved, Draft.push_moved, Mode.moved]

theorem stepAround_moved (s : State α) (within : Option Nat) (r : Rune) :
    (s.moved f before).stepAround (within.map f) r = (s.stepAround within r).moved f before := by
  cases within with
  | none => exact stepBare_moved s r
  | some opened => exact stepDouble_moved s opened r

variable {lookup : Text → Option α}

theorem bind_moved (s : State α) (start : Nat) (within : Option Nat) (name : Text) :
    (s.moved f before).bind lookup (f start) (within.map f) name =
      leadMoved f before (s.bind lookup start within name) := by
  unfold bind
  cases lookup name with
  | none => rfl
  | some value =>
    simp only [leadMoved, moved, modeAround_moved, Option.isSome_map, Draft.mark_moved]

/-- One rune: every place that a rule writes down is the reader's or the one before it. -/
theorem stepMode_moved (s : State α) (beside : s.Beside f) (r : Rune) :
    (s.moved f before).stepMode lookup r = leadMoved f before (s.stepMode lookup r) := by
  have sameMode : (s.moved f before).mode = s.mode.moved f := rfl
  unfold stepMode
  rw [sameMode]
  cases mode : s.mode with
  | blank =>
    dsimp only [Mode.moved]
    split
    · rfl
    · exact congrArg Except.ok (stepBare_moved { s with draft := ⟨s.pos, [], none, false⟩ } r)
  | bare => exact congrArg Except.ok (stepBare_moved s r)
  | escaped =>
    dsimp only [Mode.moved]
    split
    · rfl
    · simp only [leadMoved, moved, Draft.push_moved, Mode.moved]
  | single opened =>
    dsimp only [Mode.moved]
    split
    · rfl
    · simp only [leadMoved, moved, Draft.push_moved, Mode.moved]
  | double opened => exact congrArg Except.ok (stepDouble_moved s opened r)
  | doubleEscaped opened =>
    have back : f s.pos - 1 = f (s.pos - 1) := beside.back (by rw [mode]; exact Mode.noConfusion)
    dsimp only [Mode.moved]
    split
    · rfl
    split <;> simp only [leadMoved, moved, back, Draft.push_moved, Mode.moved]
  | marker start within =>
    dsimp only [Mode.moved]
    split
    · rfl
    split <;> rfl
  | name start within soFar =>
    dsimp only [Mode.moved]
    split
    · rfl
    · rw [bind_moved]
      cases s.bind lookup start within soFar with
      | error fault => rfl
      | ok marked => exact congrArg Except.ok (stepAround_moved marked within r)
  | braced start within soFar =>
    dsimp only [Mode.moved]
    split
    · split
      · exact bind_moved s start within soFar
      · rfl
    · rfl

/-- The end of the text. -/
theorem finish_moved (s : State α) (beside : s.Beside f) :
    (s.moved f before).finish lookup = answerMoved f before (s.finish lookup) := by
  have sameMode : (s.moved f before).mode = s.mode.moved f := rfl
  unfold finish
  rw [sameMode]
  cases mode : s.mode with
  | blank | single | double | doubleEscaped | marker | braced => rfl
  | bare => exact congrArg (fun ended : State α => Except.ok ended.words) (endWord_moved s)
  | escaped =>
    have back : f s.pos - 1 = f (s.pos - 1) := beside.back (by rw [mode]; exact Mode.noConfusion)
    exact congrArg (fun pos => Except.error (Fault.trailingBackslash, pos)) back
  | name start within soFar =>
    simp only [Mode.moved, bind_moved]
    cases s.bind lookup start within soFar with
    | error fault => rfl
    | ok marked =>
      cases within with
      | none => exact congrArg (fun ended : State α => Except.ok ended.words) (endWord_moved marked)
      | some opened => rfl

/-! ## Where the reader is -/

@[simp] theorem pos_stepBare (s : State α) (r : Rune) : (s.stepBare r).pos = s.pos := by
  unfold stepBare
  repeat' split
  all_goals rfl

@[simp] theorem pos_stepDouble (s : State α) (opened : Nat) (r : Rune) : (s.stepDouble opened r).pos = s.pos := by
  unfold stepDouble
  repeat' split
  all_goals rfl

@[simp] theorem pos_stepAround (s : State α) (within : Option Nat) (r : Rune) :
    (s.stepAround within r).pos = s.pos := by
  cases within with
  | none => exact pos_stepBare s r
  | some opened => exact pos_stepDouble s opened r

theorem pos_of_bind {s marked : State α} {start : Nat} {within : Option Nat} {name : Text}
    (bound : s.bind lookup start within name = .ok marked) : marked.pos = s.pos := by
  unfold bind at bound
  split at bound
  · cases bound
  · cases bound
    rfl

/-- No rule moves the reader: a rune is counted when it was read. -/
theorem pos_of_stepMode {s moved : State α} {r : Rune} (stepped : s.stepMode lookup r = .ok moved) :
    moved.pos = s.pos := by
  unfold stepMode at stepped
  cases mode : s.mode with
  | blank =>
    simp only [mode] at stepped
    split at stepped <;> cases stepped
    · rfl
    · exact pos_stepBare _ r
  | bare =>
    simp only [mode] at stepped
    cases stepped
    exact pos_stepBare s r
  | double opened =>
    simp only [mode] at stepped
    cases stepped
    exact pos_stepDouble s opened r
  | escaped | single =>
    simp only [mode] at stepped
    split at stepped <;> cases stepped <;> rfl
  | doubleEscaped opened =>
    simp only [mode] at stepped
    split at stepped
    · cases stepped
      rfl
    split at stepped <;> cases stepped <;> rfl
  | marker start within =>
    simp only [mode] at stepped
    split at stepped
    · cases stepped
      rfl
    split at stepped <;> cases stepped
    rfl
  | name start within soFar =>
    simp only [mode] at stepped
    split at stepped
    · cases stepped
      rfl
    · cases bound : s.bind lookup start within soFar with
      | error fault =>
        rw [bound] at stepped
        cases stepped
      | ok marked =>
        rw [bound] at stepped
        cases stepped
        exact (pos_stepAround marked within r).trans (pos_of_bind bound)
  | braced start within soFar =>
    simp only [mode] at stepped
    split at stepped
    · split at stepped
      · exact pos_of_bind stepped
      · cases stepped
    · cases stepped
      rfl

/-! ## Whole texts -/

theorem run_cons (s : State α) (r : Rune) (t : Text) :
    s.run lookup (r :: t) = (s.stepMode lookup r).bind fun moved => moved.counted.run lookup t := by
  unfold run
  rw [List.foldlM_cons]
  unfold step
  rcases s.stepMode lookup r with fault | moved <;> rfl

/-- A text is read in two parts, one after the other. -/
theorem answer_append (lookup : Text → Option α) (s : State α) (t rest : Text) :
    s.answer lookup (t ++ rest) = (s.run lookup t).bind fun last => last.answer lookup rest := by
  unfold answer run
  rw [List.foldlM_append]
  rcases List.foldlM (step lookup) s t with fault | last <;> rfl

theorem words?_append (lookup : Text → Option α) (t rest : Text) :
    words? lookup (t ++ rest) = (({} : State α).run lookup t).bind fun last => last.answer lookup rest :=
  answer_append lookup {} t rest

/-- The reader counts the runes of a text. -/
theorem pos_of_run {s last : State α} {t : Text} (led : s.run lookup t = .ok last) :
    last.pos = s.pos + t.length := by
  induction t generalizing s with
  | nil =>
    cases led
    rfl
  | cons r t ih =>
    rw [run_cons] at led
    cases stepped : s.stepMode lookup r with
    | error fault =>
      rw [stepped] at led
      cases led
    | ok moved =>
      rw [stepped] at led
      have counts : moved.counted.pos = s.pos + 1 := congrArg (· + 1) (pos_of_stepMode stepped)
      rw [ih led, counts, List.length_cons]
      omega

/-- The map takes the places of a text and the one behind it to places in a row. -/
def Keeps (f : Nat → Nat) (start : Nat) (t : Text) : Prop :=
  ∀ p, start ≤ p → p < start + t.length → f (p + 1) = f p + 1

theorem Keeps.head {start : Nat} {r : Rune} {t : Text} (keeps : Keeps f start (r :: t)) :
    f (start + 1) = f start + 1 :=
  keeps start (Nat.le_refl start) (Nat.lt_add_of_pos_right t.length.succ_pos)

theorem Keeps.tail {start : Nat} {r : Rune} {t : Text} (keeps : Keeps f start (r :: t)) :
    Keeps f (start + 1) t := by
  intro p low high
  refine keeps p (Nat.le_of_succ_le low) ?_
  rw [List.length_cons]
  omega

/-- Behind a text that was read, the reader is beside its last rune. -/
theorem beside_of_run {s last : State α} {t : Text} (beside : s.Beside f) (keeps : Keeps f s.pos t)
    (led : s.run lookup t = .ok last) : last.Beside f := by
  cases t with
  | nil =>
    cases led
    exact beside
  | cons r t =>
    have pos : last.pos = s.pos + t.length + 1 := pos_of_run led
    refine .inr ?_
    rw [pos]
    exact keeps (s.pos + t.length) (Nat.le_add_right _ _) (Nat.lt_succ_self _)

theorem run_moved {s : State α} {t : Text} (beside : s.Beside f) (keeps : Keeps f s.pos t) :
    (s.moved f before).run lookup t = leadMoved f before (s.run lookup t) := by
  induction t generalizing s with
  | nil => rfl
  | cons r t ih =>
    rw [run_cons, run_cons, stepMode_moved s beside]
    cases stepped : s.stepMode lookup r with
    | error fault => rfl
    | ok moved =>
      have pos : moved.pos = s.pos := pos_of_stepMode stepped
      rw [← pos] at keeps
      have later := ih (s := moved.counted) (beside_counted keeps.head) keeps.tail
      rw [← counted_moved keeps.head] at later
      exact later

/-- **Reading does not ask for places.** What is found where the places are moved is what is found where they
are not, with its places moved. -/
theorem answer_moved {s : State α} {t : Text} (beside : s.Beside f) (keeps : Keeps f s.pos t) :
    (s.moved f before).answer lookup t = answerMoved f before (s.answer lookup t) := by
  unfold answer
  rw [run_moved beside keeps]
  cases led : s.run lookup t with
  | error fault => rfl
  | ok last => exact finish_moved last (beside_of_run beside keeps led)

/-- A map that moves no place of a text moves nothing of what the text leads to. -/
theorem leadMoved_run (lookup : Text → Option α) {t : Text} (fixed : ∀ p, p ≤ t.length → f p = p) :
    leadMoved f [] (({} : State α).run lookup t) = ({} : State α).run lookup t := by
  have unmoved : ({} : State α).moved f [] = {} := by
    have first : f 0 = 0 := fixed 0 (Nat.zero_le _)
    simp [moved, Mode.moved, Draft.moved, first]
  have keeps : Keeps f ({} : State α).pos t := by
    intro p _ high
    have inside : p + 1 ≤ t.length := by rwa [Nat.zero_add] at high
    rw [fixed (p + 1) inside, fixed p (Nat.le_of_succ_le inside)]
  rw [← run_moved (.inl rfl) keeps, unmoved]

end State

end Pipework.Template
