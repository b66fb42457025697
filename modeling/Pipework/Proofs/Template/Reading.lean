import Mathlib.Data.List.Forall2
import Pipework.Proofs.Template.Signs

/-!
# Reading a derivation

The reader goes through each part of a derivation and comes out where it was, with the part's atoms
added to its draft. From the parts this goes to rows, to fields and to a whole template: what a
layout stands for is read as the words of the layout.
-/

namespace Pipework.Template

variable {α : Type}

/-! ## The draft -/

namespace Draft

/-- What the draft says so far. -/
def atoms (d : Draft α) : List (Atom α) :=
  d.tokens.flatMap Token.atoms ++ (d.pending.elim [] Prod.snd).map .rune

/-- Whether ending the word here makes it a word. -/
def shown (d : Draft α) : Bool := d.hasQuotes || !d.tokens.isEmpty || d.pending.isSome

@[simp] theorem atoms_push (d : Draft α) (pos : Nat) (r : Rune) :
    (d.push pos r).atoms = d.atoms ++ [.rune r] := by
  rcases d with ⟨_, tokens, _ | ⟨start, text⟩, _⟩ <;> simp [push, atoms]

@[simp] theorem shown_push (d : Draft α) (pos : Nat) (r : Rune) : (d.push pos r).shown = true := by
  rcases d with ⟨_, tokens, _ | ⟨start, text⟩, _⟩ <;> simp [push, shown]

@[simp] theorem atoms_flush (d : Draft α) (quoted : Bool) : (d.flush quoted).atoms = d.atoms := by
  rcases d with ⟨_, tokens, _ | ⟨start, text⟩, _⟩ <;> simp [flush, atoms, Token.atoms]

@[simp] theorem shown_flush (d : Draft α) (quoted : Bool) : (d.flush quoted).shown = d.shown := by
  rcases d with ⟨_, tokens, _ | ⟨start, text⟩, _⟩ <;> simp [flush, shown]

/-- A marker goes behind everything that was read, for the text before it was flushed. -/
theorem atoms_mark_flush (d : Draft α) (name : Text) (value : α) (pos : Nat) (quoted : Bool) :
    ((d.flush quoted).mark name value pos quoted).atoms = d.atoms ++
      [.marker name value quoted] := by
  rcases d with ⟨_, tokens, _ | ⟨start, text⟩, _⟩ <;> simp [flush, mark, atoms, Token.atoms]

@[simp] theorem shown_mark (d : Draft α) (name : Text) (value : α) (pos : Nat) (quoted : Bool) :
    (d.mark name value pos quoted).shown = true := by
  simp [mark, shown]

/-- The finished word says what the draft said. -/
theorem map_atoms_finish? (d : Draft α) :
    d.finish?.map Word.atoms = if d.shown then some d.atoms else none := by
  rcases d with ⟨_, tokens, _ | ⟨start, text⟩, quotes⟩
  · cases tokens <;> cases quotes <;> simp [finish?, flush, shown, atoms, Word.atoms, Token.atoms]
  · simp [finish?, flush, shown, atoms, Word.atoms, Token.atoms]

end Draft

/-! ## Single runes -/

namespace State

variable {lookup : Text → Option α}

/-- What reading the rest of a template comes to. -/
def answer (lookup : Text → Option α) (s : State α) (t : Text) :
    Except (Fault × Nat) (List (Word α)) := do
  let s ← s.run lookup t
  s.finish lookup

/-- The state with one rune more counted. -/
def counted (s : State α) : State α := { s with pos := s.pos + 1 }

@[simp] theorem mode_counted (s : State α) : s.counted.mode = s.mode := rfl

@[simp] theorem draft_counted (s : State α) : s.counted.draft = s.draft := rfl

@[simp] theorem words_counted (s : State α) : s.counted.words = s.words := rfl

@[simp] theorem answer_nil (s : State α) : s.answer lookup [] = s.finish lookup := rfl

theorem answer_cons (s : State α) (r : Rune) (t : Text) :
    s.answer lookup (r :: t) =
      (s.stepMode lookup r).bind fun moved => moved.counted.answer lookup t := by
  unfold answer run
  rw [List.foldlM_cons]
  unfold step
  rcases s.stepMode lookup r with fault | moved <;> rfl

theorem answer_of_stepMode {s moved : State α} {r : Rune}
    (stepped : s.stepMode lookup r = .ok moved) (t : Text) :
    s.answer lookup (r :: t) = moved.counted.answer lookup t := by
  rw [answer_cons, stepped]
  rfl

theorem answer_of_two {s first second : State α} {r q : Rune}
    (one : s.stepMode lookup r = .ok first) (two : first.counted.stepMode lookup q = .ok second)
    (rest : Text) :
    s.answer lookup ([r, q] ++ rest) = second.counted.answer lookup rest := by
  rw [List.cons_append, answer_of_stepMode one]
  exact answer_of_stepMode two rest

/-- The text around a marker is read by its own rules, with a marker in it or not. -/
theorem stepMode_around {s : State α} {within : Option Nat} (mode : s.mode = modeAround within)
    (r : Rune) : s.stepMode lookup r = .ok (s.stepAround within r) := by
  unfold stepMode
  rw [mode]
  cases within <;> rfl

/-- A dollar sign makes the pending text a token and opens a marker, in quotes or not. -/
theorem stepAround_dollar (s : State α) (within : Option Nat) :
    s.stepAround within (.char '$') =
      { s with mode := .marker s.pos within, draft := s.draft.flush within.isSome } := by
  cases within <;> rfl

/-- The state after quotes were opened. -/
def quoting (s : State α) (mode : Mode) : State α :=
  { s with mode := mode, draft := { s.draft with hasQuotes := true } }

/-- The state after a marker. -/
def marked (s : State α) (m : Marker α) (start : Nat) (within : Option Nat) : State α :=
  { s with mode := modeAround within, draft := s.draft.mark m.name m.value start within.isSome }

theorem bind_of_bound {m : Marker α} (bound : lookup m.name = some m.value) (s : State α)
    (start : Nat) (within : Option Nat) :
    s.bind lookup start within m.name = .ok (s.marked m start within) := by
  unfold bind
  rw [bound]
  rfl

/-- Behind a marker the text around it goes on. -/
theorem mode_of_bind {s bound : State α} {start : Nat} {within : Option Nat} {name : Text}
    (binds : s.bind lookup start within name = .ok bound) : bound.mode = modeAround within := by
  unfold bind at binds
  split at binds <;> cases binds
  rfl

end State

/-! ## Names -/

namespace State

variable {lookup : Text → Option α} {start : Nat} {within : Option Nat}

/-- A bare name grows by the runes that continue it. -/
theorem answer_name {run : Text} (continues : ∀ c ∈ run, Text.continuesName c = true)
    {s : State α} {soFar : Text} (mode : s.mode = .name start within soFar) (rest : Text) :
    s.answer lookup (run ++ rest) =
      ({ s with mode := .name start within (soFar ++ run), pos := s.pos + run.length } :
        State α).answer lookup rest := by
  induction run generalizing s soFar with
  | nil =>
    rcases s with ⟨pos, _, draft, words⟩
    cases mode
    simp
  | cons c run ih =>
    have first : Text.continuesName c = true := continues c List.mem_cons_self
    have stepped : s.stepMode lookup c =
        .ok { s with mode := .name start within (soFar ++ [c]) } := by
      simp only [stepMode, mode, first, if_true]
    rw [List.cons_append, answer_of_stepMode stepped,
      ih (fun d member => continues d (List.mem_cons_of_mem c member)) rfl]
    simp only [counted, List.append_assoc, List.cons_append, List.nil_append, List.length_cons]
    congr 2
    omega

/-- A braced name grows by whatever does not close it. -/
theorem answer_braced {run : Text} (inside : .char '\x7d' ∉ run)
    {s : State α} {soFar : Text} (mode : s.mode = .braced start within soFar) (rest : Text) :
    s.answer lookup (run ++ rest) =
      ({ s with mode := .braced start within (soFar ++ run), pos := s.pos + run.length } :
        State α).answer lookup rest := by
  induction run generalizing s soFar with
  | nil =>
    rcases s with ⟨pos, _, draft, words⟩
    cases mode
    simp
  | cons c run ih =>
    have first : c ≠ .char '\x7d' := fun same => inside (same ▸ List.mem_cons_self)
    have stepped : s.stepMode lookup c =
        .ok { s with mode := .braced start within (soFar ++ [c]) } := by
      simp only [stepMode, mode, first, if_false]
    rw [List.cons_append, answer_of_stepMode stepped,
      ih (fun member => inside (List.mem_cons_of_mem c member)) rfl]
    simp only [counted, List.append_assoc, List.cons_append, List.nil_append, List.length_cons]
    congr 2
    omega

/-- Where nothing continues a bare name, the name is looked up and reading goes on around it. -/
theorem answer_name_ended {name : Text} {s : State α} (mode : s.mode = .name start within name) {rest : Text}
    (ended : ∀ r ∈ rest.head?, Text.continuesName r = false) :
    s.answer lookup rest = (s.bind lookup start within name).bind fun marked => marked.answer lookup rest := by
  cases rest with
  | nil =>
    rw [answer_nil]
    unfold finish
    simp only [mode]
    cases bound : s.bind lookup start within name with
    | error fault => rfl
    | ok marked =>
      have around := mode_of_bind bound
      simp only [Except.bind, answer_nil, finish, around]
      cases within <;> rfl
  | cons r rest =>
    have other : Text.continuesName r = false := ended r rfl
    have stepped : s.stepMode lookup r = (s.bind lookup start within name).map fun s => s.stepAround within r := by
      simp only [stepMode, mode, other, Bool.false_eq_true, if_false]
    rw [answer_cons, stepped]
    cases bound : s.bind lookup start within name with
    | error fault => rfl
    | ok marked => exact (answer_of_stepMode (stepMode_around (mode_of_bind bound) r) rest).symm

/-- Behind a dollar sign, a bare name is read as far as it goes and looked up. -/
theorem answer_bare {name : Text} (bareName : IsBareName name) {s : State α}
    (mode : s.mode = .marker start within) {rest : Text}
    (ended : ∀ r ∈ rest.head?, Text.continuesName r = false) :
    s.answer lookup (name ++ rest) =
      (bind { s with pos := s.pos + name.length } lookup start within name).bind fun marked =>
        marked.answer lookup rest := by
  cases bareName with
  | intro r run starts continues =>
    have noBrace : r ≠ .char '\x7b' := by
      rintro rfl
      revert starts
      decide
    have opened : s.stepMode lookup r = .ok { s with mode := .name start within [r] } := by
      simp [stepMode, mode, noBrace, starts]
    have counts : s.pos + (r :: run).length = s.pos + 1 + run.length := by
      simp only [List.length_cons]
      omega
    rw [List.cons_append, answer_of_stepMode opened, answer_name continues rfl, counts]
    exact answer_name_ended rfl ended

end State

/-! ## Signs -/

namespace Draft

theorem atoms_take (d : Draft α) (sign : Sign α) : (d.take sign).atoms = d.atoms ++ sign.atoms := by
  cases sign with
  | rune r => exact atoms_push d _ _
  | marker m pos inside => exact atoms_mark_flush d _ _ _ _
  | close _ => exact (atoms_flush d true).trans (List.append_nil _).symm

theorem shown_take (d : Draft α) (sign : Sign α) : (d.take sign).shown = (d.shown || sign.shows) := by
  cases sign with
  | rune r => exact (shown_push d _ _).trans (Bool.or_true _).symm
  | marker m pos inside => exact (shown_mark _ _ _ _ _).trans (Bool.or_true _).symm
  | close _ => exact (shown_flush d true).trans (Bool.or_false _).symm

/-- A draft that took signs says what they say, behind what it said. -/
theorem atoms_takeAll (d : Draft α) (signs : List (Sign α)) (quotes : Bool) :
    (d.takeAll signs quotes).atoms = d.atoms ++ signs.flatMap Sign.atoms := by
  have same : (d.takeAll signs quotes).atoms = (signs.foldl take d).atoms := rfl
  rw [same]
  clear same
  induction signs generalizing d with
  | nil => exact (List.append_nil _).symm
  | cons sign signs ih =>
    rw [List.foldl_cons, ih, atoms_take, List.append_assoc, List.flatMap_cons]

/-- A draft that took signs shows a word when it did before, or quotes were opened, or a sign shows it. -/
theorem shown_takeAll (d : Draft α) (signs : List (Sign α)) (quotes : Bool) :
    (d.takeAll signs quotes).shown = (d.shown || (quotes || signs.any Sign.shows)) := by
  have same : (d.takeAll signs quotes).shown = ((signs.foldl take d).shown || quotes) := by
    unfold shown takeAll
    rw [hasQuotes_foldl_take]
    cases d.hasQuotes <;> cases quotes <;> simp
  have signsShown : (signs.foldl take d).shown = (d.shown || signs.any Sign.shows) := by
    clear same
    induction signs generalizing d with
    | nil => exact (Bool.or_false _).symm
    | cons sign signs ih => rw [List.foldl_cons, ih, shown_take, List.any_cons, Bool.or_assoc]
  rw [same, signsShown, Bool.or_assoc, Bool.or_comm (signs.any _)]

end Draft

namespace State

variable {lookup : Text → Option α}

/-- The state after a text of `n` runes from which the draft took signs. -/
def past (s : State α) (n : Nat) (signs : List (Sign α)) (quotes : Bool) : State α :=
  { s with pos := s.pos + n, draft := s.draft.takeAll signs quotes }

theorem past_unquoted (s : State α) (n : Nat) (signs : List (Sign α)) :
    s.past n signs false = { s with pos := s.pos + n, draft := signs.foldl Draft.take s.draft } := by
  simp only [past, Draft.takeAll_unquoted]

theorem past_past (s : State α) (n m : Nat) (one two : List (Sign α)) (quotes₁ quotes₂ : Bool) :
    (s.past n one quotes₁).past m two quotes₂ = s.past (n + m) (one ++ two) (quotes₁ || quotes₂) := by
  simp only [past, Draft.takeAll_append, Nat.add_assoc]

/-- Reading `t` in a state, before `rest`, takes signs and leaves the mode as it was. -/
def Takes (lookup : Text → Option α) (s : State α) (t rest : Text) (signs : List (Sign α))
    (quotes : Bool) : Prop :=
  s.answer lookup (t ++ rest) = (s.past t.length signs quotes).answer lookup rest

/-- A row is taken when each of its parts is. -/
theorem takes_row {β : Type} {mode : Mode} {render : β → Text} {Allowed : β → Text → Prop}
    {signs : Nat → β → List (Sign α)} {quotes : β → Bool}
    (takes : ∀ (part : β) (rest : Text) (s : State α), s.mode = mode → Allowed part rest →
      s.Takes lookup (render part) rest (signs s.pos part) (quotes part))
    {parts : List β} {rest : Text} (allowed : AllAllowed render Allowed parts rest) {s : State α}
    (ready : s.mode = mode) :
    s.Takes lookup (renderAll render parts) rest (placeAll render signs s.pos parts)
      (parts.any quotes) := by
  induction parts generalizing s with
  | nil =>
    unfold Takes
    exact congrArg (answer lookup · rest) (s.past_unquoted 0 []).symm
  | cons part parts ih =>
    obtain ⟨here, later⟩ := allowed
    have one : s.Takes lookup (render part) _ (signs s.pos part) (quotes part) := takes part _ s ready here
    have two := ih later (s := s.past (render part).length (signs s.pos part) (quotes part)) ready
    unfold Takes at one two ⊢
    rw [past_past] at two
    rw [renderAll, List.flatMap_cons, List.append_assoc, ← renderAll, one, two, List.length_append]
    rfl

/-- A state goes on in its own mode. -/
theorem stays {s : State α} {mode : Mode} (same : s.mode = mode) (draft : Draft α) :
    ({ s with mode := mode, draft := draft } : State α) = { s with draft := draft } := by
  rw [← same]

end State

/-! ## Parts -/

section Parts

variable {lookup : Text → Option α}

/-- Opening braces and an identifier bind the marker once the braces close. -/
private theorem Marker.answer_braced {m : Marker α} {rest : Text}
    (bound : lookup m.name = some m.value) (inside : .char '\x7d' ∉ m.name)
    (identifier : Text.isIdentifier m.name = true) {s : State α}
    {start : Nat} {within : Option Nat} (mode : s.mode = .marker start within) :
    s.answer lookup (.char '\x7b' :: (m.name ++ .char '\x7d' :: rest)) =
      (State.marked { s with pos := s.pos + 1 + m.name.length + 1 } m start within).answer lookup
        rest := by
  have opened : s.stepMode lookup (.char '\x7b') =
      .ok { s with mode := .braced start within [] } := by
    simp [State.stepMode, mode]
  have closed : ({ s with mode := .braced start within m.name, pos := s.pos + 1 + m.name.length } :
      State α).stepMode lookup (.char '\x7d') =
        .ok (State.marked { s with pos := s.pos + 1 + m.name.length } m start within) := by
    simp only [State.stepMode, identifier, if_true, State.bind_of_bound bound]
    rfl
  rw [State.answer_of_stepMode opened, State.answer_braced inside rfl, List.nil_append]
  exact State.answer_of_stepMode closed rest

/-- A marker is read by the same rules in quotes and outside of them. -/
theorem Marker.takes {m : Marker α} {rest : Text} (allowed : m.Allowed lookup rest) {s : State α}
    (within : Option Nat) (mode : s.mode = State.modeAround within) :
    s.Takes lookup m.render rest [.marker m s.pos within.isSome] false := by
  have dollar : s.stepMode lookup (.char '$') = .ok (s.stepAround within (.char '$')) :=
    State.stepMode_around mode _
  rw [State.stepAround_dollar] at dollar
  have after (n : Nat) : s.past n [.marker m s.pos within.isSome] false =
      State.marked { s with pos := s.pos + n, draft := s.draft.flush within.isSome } m s.pos within := by
    rw [State.past_unquoted, State.marked, ← mode]
    rfl
  unfold State.Takes
  rw [after]
  unfold render
  split
  next braced =>
    obtain ⟨inside, identifier⟩ := allowed.identifier braced
    rw [List.cons_append, List.cons_append, List.append_assoc, State.answer_of_stepMode dollar,
      List.singleton_append, Marker.answer_braced allowed.bound inside identifier rfl]
    simp only [State.counted, State.marked, List.length_cons, List.length_append, List.length_nil]
    congr 2
    omega
  next bare =>
    obtain ⟨bareName, ended⟩ := allowed.bareName (Bool.eq_false_iff.mpr bare)
    rw [List.cons_append, State.answer_of_stepMode dollar, State.answer_bare bareName rfl ended,
      State.bind_of_bound allowed.bound]
    simp only [Except.bind, State.counted, State.marked, List.length_cons]
    congr 2
    omega

/-- A part between double quotes leaves the quotes open. -/
theorem Inner.takes {opened : Nat} (part : Inner α) (rest : Text) (s : State α)
    (mode : s.mode = .double opened) (allowed : part.Allowed lookup rest) :
    s.Takes lookup part.render rest (part.signs s.pos) false := by
  have backslash : s.stepMode lookup (.char '\\') =
      .ok { s with mode := .doubleEscaped opened } := by
    simp [State.stepMode, State.stepDouble, mode]
  unfold State.Takes
  cases part with
  | plain r =>
    obtain ⟨noQuote, noBackslash, noDollar⟩ := allowed
    have read : s.stepMode lookup r = .ok { s with draft := s.draft.push s.pos r } := by
      rw [← State.stays mode]
      simp [State.stepMode, State.stepDouble, mode, noQuote, noBackslash, noDollar]
    rw [State.past_unquoted]
    exact State.answer_of_stepMode read rest
  | escaped r =>
    have escapable : isDoubleEscapable r = true := allowed
    have noFeed : r ≠ .char '\n' := by
      rintro rfl
      revert escapable
      decide
    have read : ({ s with mode := .doubleEscaped opened } : State α).counted.stepMode lookup r =
        .ok { s.counted with draft := s.draft.push (s.pos + 1) r } := by
      rw [← State.stays (s := s.counted) mode]
      simp only [State.stepMode, State.mode_counted, noFeed, if_false, escapable, if_true]
      rfl
    rw [State.past_unquoted]
    exact State.answer_of_two backslash read rest
  | joined =>
    have read : ({ s with mode := .doubleEscaped opened } : State α).counted.stepMode lookup
        (.char '\n') = .ok s.counted := by
      have same := State.stays (s := s.counted) mode s.draft
      simp only [State.stepMode, State.mode_counted, if_true]
      exact congrArg Except.ok same
    rw [State.past_unquoted]
    exact State.answer_of_two backslash read rest
  | kept r =>
    obtain ⟨noFeed, noEscape⟩ := allowed
    have read : ({ s with mode := .doubleEscaped opened } : State α).counted.stepMode lookup r =
        .ok { s.counted with draft := (s.draft.push s.pos (.char '\\')).push (s.pos + 1) r } := by
      rw [← State.stays (s := s.counted) mode]
      simp only [State.stepMode, State.mode_counted, noFeed, if_false, noEscape, Bool.false_eq_true]
      rfl
    rw [State.past_unquoted]
    exact State.answer_of_two backslash read rest
  | marker m => exact Marker.takes allowed (some opened) mode

/-- Text between apostrophes stands for itself. -/
private theorem takes_between (lookup : Text → Option α) {opened : Nat} {t : Text}
    (inside : .char '\'' ∉ t) (rest : Text) {s : State α} (mode : s.mode = .single opened) :
    s.Takes lookup t rest
      (placeAll (fun r => [r]) (fun n r => [.rune ⟨r, n, false⟩]) s.pos t) false := by
  induction t generalizing s with
  | nil =>
    unfold State.Takes
    rw [State.past_unquoted]
    rfl
  | cons r t ih =>
    have first : r ≠ .char '\'' := fun same => inside (same ▸ List.mem_cons_self)
    have read : s.stepMode lookup r = .ok { s with draft := s.draft.push s.pos r } := by
      rw [← State.stays mode]
      simp only [State.stepMode, mode, first, if_false]
    have later := ih (fun member => inside (List.mem_cons_of_mem r member))
      (s := ({ s with draft := s.draft.push s.pos r } : State α).counted) mode
    unfold State.Takes at later ⊢
    rw [State.past_unquoted] at later ⊢
    rw [List.cons_append, State.answer_of_stepMode read, later, State.counted]
    simp only [List.length_cons, placeAll]
    congr 2
    omega

/-- Quotes around a text that is taken make a part of the field that the quotes stand in. -/
private theorem takes_quotes {quote : Rune} {t rest : Text} {signs closing : List (Sign α)}
    {s : State α} {inner : Mode} (mode : s.mode = .bare)
    (opening : s.stepMode lookup quote = .ok (s.quoting inner))
    (inside : (s.quoting inner).counted.Takes lookup t (quote :: rest) signs false)
    (closes : ∀ last : State α, last.mode = inner → last.stepMode lookup quote =
      .ok { last with mode := .bare, draft := closing.foldl Draft.take last.draft }) :
    s.Takes lookup (quote :: (t ++ [quote])) rest (signs ++ closing) true := by
  unfold State.Takes at inside ⊢
  have closed := closes ((s.quoting inner).counted.past t.length signs false) rfl
  have ends : ({ (s.quoting inner).counted.past t.length signs false with
      mode := .bare
      draft := closing.foldl Draft.take ((s.quoting inner).counted.past t.length signs false).draft } :
      State α).counted = s.past (quote :: (t ++ [quote])).length (signs ++ closing) true := by
    have counts : s.pos + 1 + t.length + 1 = s.pos + (t.length + 1 + 1) := by omega
    simp only [State.past, State.quoting, State.counted, Draft.takeAll, Draft.foldl_take_quoting,
      List.foldl_append, List.length_cons, List.length_append, List.length_nil, Bool.or_false,
      Bool.or_true, mode, counts, Nat.zero_add]
  rw [List.cons_append, List.append_assoc, State.answer_of_stepMode opening, List.singleton_append, inside,
    State.answer_of_stepMode closed, ends]

/-- A part of a field leaves its word open. -/
theorem Piece.takes (part : Piece α) (rest : Text) (s : State α) (mode : s.mode = .bare)
    (allowed : part.Allowed lookup rest) :
    s.Takes lookup part.render rest (part.signs s.pos) part.quotes := by
  have backslash : s.stepMode lookup (.char '\\') = .ok { s with mode := .escaped } := by
    simp [State.stepMode, State.stepBare, isSeparator, mode]
  cases part with
  | plain r =>
    obtain ⟨noSeparator, noBackslash, noApostrophe, noQuote, noDollar⟩ := allowed
    have read : s.stepMode lookup r = .ok { s with draft := s.draft.push s.pos r } := by
      rw [← State.stays mode]
      simp [State.stepMode, State.stepBare, mode, noSeparator, noBackslash, noApostrophe, noQuote,
        noDollar]
    unfold State.Takes
    rw [quotes, State.past_unquoted]
    exact State.answer_of_stepMode read rest
  | escaped r =>
    have noFeed : r ≠ .char '\n' := allowed
    have read : ({ s with mode := .escaped } : State α).counted.stepMode lookup r =
        .ok { s.counted with draft := s.draft.push (s.pos + 1) r } := by
      rw [← State.stays (s := s.counted) mode]
      simp only [State.stepMode, State.mode_counted, noFeed, if_false]
      rfl
    unfold State.Takes
    rw [quotes, State.past_unquoted]
    exact State.answer_of_two backslash read rest
  | joined =>
    have read : ({ s with mode := .escaped } : State α).counted.stepMode lookup (.char '\n') =
        .ok s.counted := by
      have same := State.stays (s := s.counted) mode s.draft
      simp only [State.stepMode, State.mode_counted, if_true]
      exact congrArg Except.ok same
    unfold State.Takes
    rw [quotes, State.past_unquoted]
    exact State.answer_of_two backslash read rest
  | single t =>
    have opening : s.stepMode lookup (.char '\'') = .ok (s.quoting (.single s.pos)) := by
      simp [State.stepMode, State.stepBare, State.quoting, isSeparator, mode]
    have closing (last : State α) (inQuotes : last.mode = .single s.pos) :
        last.stepMode lookup (.char '\'') = .ok { last with mode := .bare } := by
      simp only [State.stepMode, inQuotes, if_true]
    have inside := takes_between lookup allowed (.char '\'' :: rest)
      (s := (s.quoting (.single s.pos)).counted) rfl
    rw [signs, ← List.append_nil (placeAll _ _ _ t)]
    exact takes_quotes mode opening inside closing
  | double parts =>
    have opening : s.stepMode lookup (.char '"') = .ok (s.quoting (.double s.pos)) := by
      simp [State.stepMode, State.stepBare, State.quoting, isSeparator, mode]
    have closing (last : State α) (inQuotes : last.mode = .double s.pos) :
        last.stepMode lookup (.char '"') =
          .ok { last with mode := .bare, draft := last.draft.flush true } := by
      simp only [State.stepMode, inQuotes, State.stepDouble, if_true]
    have each (part : Inner α) (rest : Text) (s' : State α) (mode : s'.mode = .double s.pos)
        (allowed : part.Allowed lookup rest) :
        s'.Takes lookup part.render rest (part.signs s'.pos) ((fun _ => false) part) :=
      part.takes rest s' mode allowed
    have inside := State.takes_row each allowed (s := (s.quoting (.double s.pos)).counted) rfl
    rw [List.any_eq_false.mpr fun _ _ => Bool.false_ne_true] at inside
    exact takes_quotes mode opening inside closing
  | marker m => exact Marker.takes allowed none mode

end Parts

/-! ## Fields and templates -/

/-- Reading `t` before `rest` leads from one state to another of the same mode, and adds to the
draft. -/
structure Passes (lookup : Text → Option α) (s : State α) (t rest : Text) (s' : State α)
    (atoms : List (Atom α)) (shows : Bool) : Prop where
  answer : s.answer lookup (t ++ rest) = s'.answer lookup rest
  mode : s'.mode = s.mode
  words : s'.words = s.words
  atoms : s'.draft.atoms = s.draft.atoms ++ atoms
  shown : s'.draft.shown = (s.draft.shown || shows)

section Layouts

variable {lookup : Text → Option α}

/-- The state in which the next word starts, if one does. -/
def State.fresh (s : State α) : State α :=
  { s with mode := .bare, draft := ⟨s.pos, [], none, false⟩ }

/-- The first rune of a word is read as any other, for no rune of a word keeps the mode between
words. -/
private theorem State.stepBare_fresh (s : State α) {r : Rune} (inWord : isSeparator r = false) :
    ({ s with draft := ⟨s.pos, [], none, false⟩ } : State α).stepBare r = s.fresh.stepBare r := by
  unfold stepBare
  simp only [inWord, Bool.false_eq_true, if_false]
  split
  · rfl
  split
  · rfl
  split
  · rfl
  split <;> rfl

/-- Between words the reader may as well be in a word that has nothing in it. -/
theorem State.answer_blank {s : State α} (mode : s.mode = .blank) (t : Text) :
    s.answer lookup t = s.fresh.answer lookup t := by
  induction t generalizing s with
  | nil =>
    have ended : s.fresh.endWord.words = s.words := List.append_nil s.words
    simp only [answer_nil, finish, mode, fresh]
    exact congrArg Except.ok ended.symm
  | cons r t ih =>
    have bare : s.fresh.stepMode lookup r = .ok (s.fresh.stepBare r) := rfl
    rw [answer_of_stepMode bare]
    cases separator : isSeparator r with
    | true =>
      have stays : s.stepMode lookup r = .ok s := by
        simp only [stepMode, mode, separator, if_true]
      have ends : s.fresh.stepBare r = s.fresh.endWord := by
        simp only [stepBare, separator, if_true]
      have same : s.fresh.endWord.counted.fresh = s.counted.fresh := by
        simp [fresh, endWord, counted, Draft.finish?, Draft.flush]
      rw [answer_of_stepMode stays, ends, ih (s := s.counted) mode,
        ih (s := s.fresh.endWord.counted) rfl, same]
    | false =>
      have starts : s.stepMode lookup r = .ok (s.fresh.stepBare r) := by
        rw [← s.stepBare_fresh separator]
        simp only [stepMode, mode, separator, Bool.false_eq_true, if_false]
      rw [answer_of_stepMode starts]

/-- Where the parts of a field end, the field's word is added. -/
private theorem Passes.endWord {s s' : State α} {t rest : Text} {field : List (Piece α)}
    (passes : Passes lookup s.fresh t rest s' (field.flatMap Piece.atoms) (field.any Piece.shows)) :
    s'.endWord.words.map Word.atoms = s.words.map Word.atoms ++ (fieldWord? field).toList := by
  have atoms : s'.draft.atoms = field.flatMap Piece.atoms := passes.atoms
  have shown : s'.draft.shown = field.any Piece.shows := passes.shown
  have words : s'.words = s.words := passes.words
  have read := s'.draft.map_atoms_finish?
  rw [atoms, shown] at read
  unfold State.endWord fieldWord?
  rw [List.map_append, words, ← read, Option.toList_map]

/-- The parts of a field are read from its start, and leave its word open. -/
private theorem Field.passes {field : List (Piece α)} {rest : Text}
    (allowed : AllAllowed Piece.render (Piece.Allowed lookup) field rest) (s : State α) :
    Passes lookup s.fresh (renderAll Piece.render field) rest
      (s.fresh.past (renderAll Piece.render field).length (⟨s.pos, field⟩ : Field α).signs
        (field.any Piece.quotes)) (field.flatMap Piece.atoms) (field.any Piece.shows) where
  answer := State.takes_row Piece.takes allowed (s := s.fresh) rfl
  mode := rfl
  words := rfl
  atoms := by rw [State.past, Draft.atoms_takeAll, Field.atoms_signs]
  shown := by
    have shows := (⟨s.pos, field⟩ : Field α).shows_eq
    rw [State.past, Draft.shown_takeAll, ← shows]
    rfl

/-- Where the parts of a field end, the field's word is added, if it is one. -/
private theorem Field.endWord {field : List (Piece α)} {rest : Text}
    (allowed : AllAllowed Piece.render (Piece.Allowed lookup) field rest) (s : State α) :
    ∃ (s' : State α) (read : List (Word α)),
      s.fresh.answer lookup (renderAll Piece.render field ++ rest) = s'.answer lookup rest ∧
        s'.mode = .bare ∧ s'.pos = s.pos + (renderAll Piece.render field).length ∧
          s'.endWord.words = s.words ++ read ∧ read.map Word.atoms = (fieldWord? field).toList ∧
            List.Forall₂ Field.Gives ([⟨s.pos, field⟩].filter Field.shows) read := by
  have passes := Field.passes allowed s
  obtain ⟨sources, cuts, finished⟩ := Draft.finish?_takeAll (⟨s.pos, field⟩ : Field α)
  have added := passes.endWord
  refine ⟨_, _, passes.answer, passes.mode, rfl, rfl, ?_, ?_⟩
  · rw [State.endWord, List.map_append] at added
    exact List.append_cancel_left added
  · have draft : (s.fresh.past (renderAll Piece.render field).length (⟨s.pos, field⟩ : Field α).signs
        (field.any Piece.quotes)).draft.finish? = _ := finished
    rw [draft]
    cases shows : (⟨s.pos, field⟩ : Field α).shows with
    | true =>
      rw [List.filter_cons_of_pos shows, List.filter_nil, if_pos rfl]
      exact .cons ⟨sources, cuts, rfl⟩ .nil
    | false =>
      rw [List.filter_cons_of_neg (Bool.eq_false_iff.mp shows), List.filter_nil, if_neg Bool.false_ne_true]
      exact .nil

/-- A template is read field by field: each field that is a word gives one, cut from its signs. -/
theorem Layout.reads {l : Layout α} (allowed : l.Allowed lookup) (s : State α) :
    ∃ read, s.fresh.answer lookup l.render = .ok (s.words ++ read) ∧ read.map Word.atoms = l.words ∧
      List.Forall₂ Field.Gives ((l.fields s.pos).filter Field.shows) read := by
  induction l generalizing s with
  | last field =>
    obtain ⟨s', read, answer, bare, _, words, atoms, gives⟩ := Field.endWord allowed s
    refine ⟨read, ?_, atoms, gives⟩
    rw [List.append_nil] at answer
    rw [render, answer, State.answer_nil]
    simp only [State.finish, bare, words]
  | more field separator rest ih =>
    obtain ⟨fieldAllowed, separates, restAllowed⟩ := allowed
    obtain ⟨s', read, answer, bare, pos, words, atoms, gives⟩ := Field.endWord fieldAllowed s
    have ends : s'.stepMode lookup separator = .ok s'.endWord := by
      simp only [State.stepMode, bare, State.stepBare, separates, if_true]
    obtain ⟨others, readOthers, atomsOthers, givesOthers⟩ := ih restAllowed s'.endWord.counted
    have next : s'.endWord.counted.pos = s.pos + (renderAll Piece.render field).length + 1 :=
      congrArg (· + 1) pos
    refine ⟨read ++ others, ?_, ?_, ?_⟩
    · rw [render, answer, State.answer_of_stepMode ends, State.answer_blank rfl, readOthers,
        State.words_counted, words, List.append_assoc]
    · rw [List.map_append, atoms, atomsOthers, Layout.words]
    · rw [next] at givesOthers
      rw [fields, ← List.singleton_append, List.filter_append]
      exact List.rel_append gives givesOthers

/-- What a layout stands for is read as the words of the layout. -/
theorem Layout.answer {l : Layout α} (allowed : l.Allowed lookup) (s : State α) :
    ∃ words, s.fresh.answer lookup l.render = .ok words ∧
      words.map Word.atoms = s.words.map Word.atoms ++ l.words := by
  obtain ⟨read, answer, atoms, _⟩ := Layout.reads allowed s
  exact ⟨s.words ++ read, answer, by rw [List.map_append, atoms]⟩

end Layouts

section Whole

variable {template : Text} {bindings : Bindings α} {words : List (Word α)}

/-- A template that is read has the words that the reader finds. -/
theorem words?_of_tokenize (read : tokenize template bindings = .ok words) :
    words? bindings.get? template = .ok words := by
  unfold tokenize at read
  split at read <;> cases read
  assumption

theorem tokenize_of_words? (found : words? bindings.get? template = .ok words) :
    tokenize template bindings = .ok words := by
  unfold tokenize
  rw [found]

/-- A template that is not read has the fault that the reader meets, and its place. -/
theorem exists_fault_of_tokenize {e : SyntaxError} (failed : tokenize template bindings = .error e) :
    ∃ p : Nat, words? bindings.get? template = .error (e.fault, p) ∧ e = ⟨e.fault, template, some (p : Int)⟩ := by
  unfold tokenize at failed
  split at failed <;> cases failed
  next fault p found => exact ⟨p, found, rfl⟩

theorem tokenize_of_fault {fault : Fault} {p : Nat} (failed : words? bindings.get? template = .error (fault, p)) :
    tokenize template bindings = .error ⟨fault, template, some (p : Int)⟩ := by
  unfold tokenize
  rw [failed]

end Whole

end Pipework.Template
