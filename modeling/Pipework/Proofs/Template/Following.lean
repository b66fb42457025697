import Pipework.Proofs.Template.Faults
import Pipework.Proofs.Template.Outline

/-!
# Where a marker may follow

Whether a dollar sign behind a text opens a marker is told by the text alone: with all its names bound, the text
can be read, or it breaks off between double quotes (`Ends`). The reader that comes through such a text is outside
quotes or between these, perhaps at the end of a bare name that is still to be looked up; then the marker is read in
the text around that name (`leaves_of_welcomes`). Which names are bound decides only whether the reader comes through
(`run_more`), so under other bindings the marker is read there or the text has failed before it (`exists_leaves`).
-/

namespace Pipework.Template

variable {α : Type} {lookup : Text → Option α}

/-! ## More names bound -/

section More

variable {more : Text → Option α} (extended : ∀ name value, lookup name = some value → more name = some value)
include extended

namespace State

theorem bind_more {s marked : State α} {start : Nat} {within : Option Nat} {name : Text}
    (binds : s.bind lookup start within name = .ok marked) : s.bind more start within name = .ok marked := by
  unfold bind at binds ⊢
  split at binds <;> cases binds
  next value found => rw [extended name value found]

theorem stepMode_more {s moved : State α} {r : Rune} (stepped : s.stepMode lookup r = .ok moved) :
    s.stepMode more r = .ok moved := by
  unfold stepMode at stepped ⊢
  cases mode : s.mode with
  | blank | bare | escaped | single | double | doubleEscaped | marker =>
    simp only [mode] at stepped ⊢
    exact stepped
  | name start within soFar =>
    simp only [mode] at stepped ⊢
    split at stepped
    next continues =>
      rw [if_pos continues]
      exact stepped
    next ended =>
      cases binds : s.bind lookup start within soFar with
      | error fault =>
        rw [binds] at stepped
        cases stepped
      | ok marked =>
        rw [binds] at stepped
        rw [if_neg ended, bind_more extended binds]
        exact stepped
  | braced start within soFar =>
    simp only [mode] at stepped ⊢
    split at stepped
    next closes =>
      split at stepped
      next identifier =>
        rw [if_pos closes, if_pos identifier]
        exact bind_more extended stepped
      next => cases stepped
    next open' =>
      rw [if_neg open']
      exact stepped

/-- Reading goes the same way where more names are bound. -/
theorem run_more {s last : State α} {t : Text} (led : s.run lookup t = .ok last) : s.run more t = .ok last := by
  induction t generalizing s with
  | nil => exact led
  | cons r t ih =>
    rw [run_cons] at led ⊢
    cases stepped : s.stepMode lookup r with
    | error fault =>
      rw [stepped] at led
      cases led
    | ok moved =>
      rw [stepped] at led
      rw [stepMode_more extended stepped]
      exact ih led

end State

end More

/-! ## Where a marker may follow -/

/-- A marker may follow in a mode: outside quotes or between double quotes, also right behind a bare name. -/
inductive Mode.Welcomes : Mode → Option Nat → Prop
  | blank : Welcomes .blank none
  | around (within : Option Nat) : Welcomes (State.modeAround within) within
  | name (start : Nat) (within : Option Nat) (soFar : Text) : Welcomes (.name start within soFar) within

namespace State

/-- Nothing is wrong with a text so far, so it can be read on. -/
private theorem exists_run_of_ends {t : Text} {within : Option Nat} (ends : Ends lookup t within) :
    ∃ s, ({} : State α).run lookup t = .ok s := by
  have readable : ∃ rest, Reads lookup (t ++ rest) := by
    cases within with
    | none => exact ⟨[], by rw [List.append_nil]; exact ends⟩
    | some opened => exact ⟨_, ends.closed⟩
  obtain ⟨rest, words, read⟩ := readable
  have parts := words?_append lookup t rest
  cases led : ({} : State α).run lookup t with
  | ok s => exact ⟨s, rfl⟩
  | error fault =>
    rw [led, read] at parts
    cases parts

/-- Where a text can end, a marker may follow. -/
private theorem welcomes_of_finish {s : State α} {words : List (Word α)} (ends : s.finish lookup = .ok words) :
    s.mode.Welcomes none := by
  unfold finish at ends
  cases mode : s.mode with
  | blank => exact .blank
  | bare => exact .around none
  | escaped | single | double | doubleEscaped | marker | braced =>
    rw [mode] at ends
    cases ends
  | name start within soFar =>
    simp only [mode] at ends
    cases binds : s.bind lookup start within soFar with
    | error fault =>
      rw [binds] at ends
      cases ends
    | ok marked =>
      rw [binds] at ends
      cases within with
      | none => exact .name start none soFar
      | some opened => cases ends

/-- Where a text breaks off between double quotes, a marker may follow: a double quote behind it closes these, and is
not freed of its meaning by a backslash. -/
private theorem welcomes_of_unclosed {s : State α} {opened : Nat}
    (unclosed : s.finish lookup = .error (.openDoubleQuote, opened)) {words : List (Word α)}
    (closed : s.answer lookup [.char '"'] = .ok words) : s.mode.Welcomes (some opened) := by
  unfold finish at unclosed
  cases mode : s.mode with
  | blank | bare | escaped | single | marker | braced =>
    rw [mode] at unclosed
    cases unclosed
  | double opened' =>
    rw [mode] at unclosed
    cases unclosed
    exact .around (some opened)
  | doubleEscaped opened' =>
    have freed : s.stepMode lookup (.char '"') =
        .ok { s with mode := .double opened', draft := s.draft.push s.pos (.char '"') } := by
      simp [stepMode, mode, isDoubleEscapable]
    rw [answer_of_stepMode freed] at closed
    cases closed
  | name start within soFar =>
    simp only [mode] at unclosed
    cases binds : s.bind lookup start within soFar with
    | error fault =>
      rw [binds] at unclosed
      unfold bind at binds
      split at binds <;> cases binds
      cases unclosed
    | ok marked =>
      rw [binds] at unclosed
      cases within with
      | none => cases unclosed
      | some opened' =>
        cases unclosed
        exact .name start (some opened) soFar

/-- A text that ends outside quotes or between double quotes leads the reader to where a marker may follow. -/
theorem welcomes_of_ends {t : Text} {within : Option Nat} (ends : Ends lookup t within) :
    ∃ s, ({} : State α).run lookup t = .ok s ∧ s.mode.Welcomes within := by
  obtain ⟨s, led⟩ := exists_run_of_ends ends
  have whole : words? lookup t = s.finish lookup := by
    unfold words?
    rw [led]
    rfl
  refine ⟨s, led, ?_⟩
  cases within with
  | none =>
    obtain ⟨words, read⟩ := ends
    exact welcomes_of_finish (whole.symm.trans read)
  | some opened =>
    obtain ⟨words, closed⟩ := ends.closed
    have parts := words?_append lookup t [.char '"']
    rw [led] at parts
    exact welcomes_of_unclosed (whole.symm.trans ends.unclosed) (parts.symm.trans closed)

end State

/-- What a text leads to where a marker follows: the fault that was met in the text, or the state in which the marker
is read. It has no place that a map moves. -/
structure Leaves (lookup : Text → Option α) (f : Nat → Nat) (t : Text) (within : Option Nat)
    (lead : Except (Fault × Nat) (State α)) : Prop where
  reads : ∀ rest, (∀ r ∈ rest.head?, Text.continuesName r = false) →
    words? lookup (t ++ rest) = lead.bind fun s => s.answer lookup rest
  unmoved : State.leadMoved f [] lead = lead
  around : ∀ s, lead = .ok s → s.mode = State.modeAround within ∧ s.pos = t.length

namespace State

theorem moved_of_leadMoved {f : Nat → Nat} {s : State α} (unmoved : leadMoved f [] (.ok s) = .ok s) : s.moved f [] = s :=
  Except.ok.inj unmoved

/-- Where a marker may follow, it is read in the text around it, once a bare name that comes right before it is looked
up. -/
theorem leaves_of_welcomes {f : Nat → Nat} {t : Text} {within : Option Nat} {s : State α}
    (led : ({} : State α).run lookup t = .ok s) (unmoved : s.moved f [] = s) (welcomes : s.mode.Welcomes within) :
    ∃ lead, Leaves lookup f t within lead := by
  have pos : s.pos = t.length := (pos_of_run led).trans (Nat.zero_add _)
  have parts (rest : Text) : words? lookup (t ++ rest) = s.answer lookup rest := by
    rw [words?_append, led]
    rfl
  have samePos : f s.pos = s.pos := congrArg State.pos unmoved
  have sameWords : [] ++ s.words.map (Word.moved f) = s.words := congrArg State.words unmoved
  have sameMode : s.mode.moved f = s.mode := congrArg State.mode unmoved
  generalize mode : s.mode = m at welcomes
  cases welcomes with
  | blank =>
    refine ⟨.ok s.fresh, fun rest _ => (parts rest).trans (answer_blank mode rest), ?_, ?_⟩
    · refine congrArg Except.ok ?_
      unfold fresh moved Draft.moved
      simp only [samePos, sameWords, Mode.moved, List.map_nil, Option.map_none]
    · rintro _ same
      cases same
      exact ⟨rfl, pos⟩
  | around =>
    refine ⟨.ok s, fun rest _ => parts rest, congrArg Except.ok unmoved, ?_⟩
    rintro _ same
    cases same
    exact ⟨mode, pos⟩
  | name start _ soFar =>
    rw [mode] at sameMode
    injection sameMode with sameStart sameWithin
    refine ⟨s.bind lookup start within soFar, fun rest ended => (parts rest).trans (answer_name_ended mode ended),
      ?_, fun marked binds => ⟨mode_of_bind binds, (pos_of_bind binds).trans pos⟩⟩
    rw [← bind_moved, unmoved, sameStart, sameWithin]

end State

/-- Where a text ends does not hang on the values of its names. -/
theorem ends_of_map {β : Type} {g : α → β} {lookup' : Text → Option β}
    (agree : ∀ name, lookup' name = (lookup name).map g) {t : Text} {within : Option Nat}
    (ends : Ends lookup' t within) : Ends lookup t within := by
  have reads {t : Text} (reads : Reads lookup' t) : Reads lookup t := by
    obtain ⟨words, read⟩ := reads
    rw [words?_map agree] at read
    cases found : words? lookup t with
    | ok words => exact ⟨words, found⟩
    | error fault =>
      rw [found] at read
      cases read
  cases within with
  | none => exact reads ends
  | some opened =>
    refine ⟨ends.quote, ?_, reads ends.closed⟩
    have unclosed := ends.unclosed
    rw [words?_map agree] at unclosed
    cases found : words? lookup t with
    | ok words =>
      rw [found] at unclosed
      cases unclosed
    | error fault =>
      rw [found] at unclosed
      cases unclosed
      rfl

/-- Behind a text that ends outside quotes or between double quotes when all its names are bound, a marker is read in
the text around it, unless a name of the text is not bound. -/
theorem exists_leaves (lookup : Text → Option α) (value : α) {f : Nat → Nat} {t : Text} {within : Option Nat}
    (ends : Ends (fun _ => some ()) t within) (fixed : ∀ p, p ≤ t.length → f p = p) :
    ∃ lead, Leaves lookup f t within lead := by
  have unmoved : State.leadMoved f [] _ = _ := State.leadMoved_run lookup fixed
  cases led : ({} : State α).run lookup t with
  | error fault =>
    rw [led] at unmoved
    refine ⟨.error fault, fun rest _ => ?_, unmoved, fun _ none => nomatch none⟩
    rw [State.words?_append, led]
  | ok s =>
    rw [led] at unmoved
    -- with a value for every other name, the text leads to the same state
    let more (name : Text) : Option α := some ((lookup name).getD value)
    have endsMore : Ends more t within := ends_of_map (g := fun _ => ()) (fun _ => rfl) ends
    obtain ⟨last, ledMore, welcomes⟩ := State.welcomes_of_ends endsMore
    have sameRun : ({} : State α).run more t = .ok s := by
      refine State.run_more (fun name value found => ?_) led
      simp only [more, found, Option.getD_some]
    rw [sameRun] at ledMore
    cases ledMore
    exact State.leaves_of_welcomes led (State.moved_of_leadMoved unmoved) welcomes

end Pipework.Template
