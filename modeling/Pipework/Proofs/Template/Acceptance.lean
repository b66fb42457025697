import Pipework.Proofs.Template.Reading

/-!
# Which templates are read

From the text that is left to read, each mode asks for something of the grammar: to complete a
field, or parts between double quotes and the quotes that close them. Whatever the reader accepts
gives its mode what the mode asks for. So an accepted template has a derivation, and reading that
derivation says which words the template was read as.
-/

namespace Pipework.Template

variable {α : Type} {lookup : Text → Option α}

/-! ## Rests of a derivation -/

/-- The text has a derivation. -/
def Splits (lookup : Text → Option α) (t : Text) : Prop :=
  ∃ l : Layout α, l.Allowed lookup ∧ l.render = t

/-- The text goes on between double quotes, closes them and has a derivation after that. -/
def Closes (lookup : Text → Option α) (t : Text) : Prop :=
  ∃ (parts : List (Inner α)) (rest : Text),
    AllAllowed Inner.render (Inner.Allowed lookup) parts (.char '"' :: rest) ∧
      Splits lookup rest ∧ renderAll Inner.render parts ++ .char '"' :: rest = t

/-- What the text around a marker asks of the text that is left. -/
def GoesOn (lookup : Text → Option α) : Option Nat → Text → Prop
  | none => Splits lookup
  | some _ => Closes lookup

theorem Splits.nil : Splits lookup [] := ⟨.last [], trivial, rfl⟩

theorem Splits.separator {r : Rune} (separates : isSeparator r = true) {rest : Text}
    (splits : Splits lookup rest) : Splits lookup (r :: rest) := by
  obtain ⟨l, allowed, rfl⟩ := splits
  exact ⟨.more [] r l, ⟨trivial, separates, allowed⟩, rfl⟩

/-- A part goes before the first field. -/
theorem Splits.piece (part : Piece α) {rest : Text} (allowed : part.Allowed lookup rest)
    (splits : Splits lookup rest) : Splits lookup (part.render ++ rest) := by
  obtain ⟨l, others, rfl⟩ := splits
  cases l with
  | last field =>
    refine ⟨.last (part :: field), ⟨?_, others⟩, rfl⟩
    rw [List.append_nil]
    exact allowed
  | more field separator l =>
    obtain ⟨fieldAllowed, separates, restAllowed⟩ := others
    exact ⟨.more (part :: field) separator l, ⟨⟨allowed, fieldAllowed⟩, separates, restAllowed⟩,
      List.append_assoc _ _ _⟩

theorem Closes.quote {rest : Text} (splits : Splits lookup rest) :
    Closes lookup (.char '"' :: rest) :=
  ⟨[], rest, trivial, splits, rfl⟩

/-- A part goes before those that are left between the quotes. -/
theorem Closes.inner (part : Inner α) {rest : Text} (allowed : part.Allowed lookup rest)
    (closes : Closes lookup rest) : Closes lookup (part.render ++ rest) := by
  obtain ⟨parts, after, others, splits, rfl⟩ := closes
  exact ⟨part :: parts, after, ⟨allowed, others⟩, splits, List.append_assoc _ _ _⟩

/-- Double quotes that are closed are a part of a field. -/
theorem Closes.splits {t : Text} (closes : Closes lookup t) : Splits lookup (.char '"' :: t) := by
  obtain ⟨parts, rest, allowed, splits, rfl⟩ := closes
  have quoted := splits.piece (.double parts) allowed
  rwa [Piece.render, List.cons_append, List.append_assoc] at quoted

theorem GoesOn.marker {within : Option Nat} {m : Marker α} {rest : Text}
    (allowed : m.Allowed lookup rest) (goesOn : GoesOn lookup within rest) :
    GoesOn lookup within (m.render ++ rest) := by
  cases within with
  | none => exact Splits.piece (.marker m) allowed goesOn
  | some opened => exact Closes.inner (.marker m) allowed goesOn

/-! ## What a mode asks for -/

/-- What a mode asks of the text that is left. A mode in the middle of a part asks for the rest of
it. -/
def Mode.Asks (lookup : Text → Option α) : Mode → Text → Prop
  | .blank, t | .bare, t => Splits lookup t
  | .escaped, t => Splits lookup (.char '\\' :: t)
  | .single _, t => ∃ inside rest, .char '\'' ∉ inside ∧ Splits lookup rest ∧
      inside ++ .char '\'' :: rest = t
  | .double _, t => Closes lookup t
  | .doubleEscaped _, t => Closes lookup (.char '\\' :: t)
  | .marker _ within, t => GoesOn lookup within (.char '$' :: t)
  | .name _ within soFar, t => IsBareName soFar → GoesOn lookup within (.char '$' :: (soFar ++ t))
  | .braced _ within soFar, t => .char '\x7d' ∉ soFar →
      GoesOn lookup within (.char '$' :: .char '\x7b' :: (soFar ++ t))

namespace State

/-- Outside quotes, what is asked after a rune makes up what was asked before it. -/
theorem asks_stepBare {s : State α} {r : Rune} {t : Text}
    (asked : (s.stepBare r).mode.Asks lookup t) : Splits lookup (r :: t) := by
  unfold stepBare at asked
  split at asked
  next separates => exact Splits.separator separates asked
  next noSeparator =>
  split at asked
  next backslash =>
    subst backslash
    exact asked
  next noBackslash =>
  split at asked
  next apostrophe =>
    subst apostrophe
    obtain ⟨inside, rest, noApostrophe, splits, rfl⟩ := asked
    have quoted := splits.piece (.single inside) noApostrophe
    rwa [Piece.render, List.cons_append, List.append_assoc] at quoted
  next noApostrophe =>
  split at asked
  next quote =>
    subst quote
    exact Closes.splits asked
  next noQuote =>
  split at asked
  next dollar =>
    subst dollar
    exact asked
  next noDollar =>
    exact Splits.piece (.plain r)
      ⟨Bool.eq_false_iff.mpr noSeparator, noBackslash, noApostrophe, noQuote, noDollar⟩ asked

/-- Between double quotes, what is asked after a rune makes up what was asked before it. -/
theorem asks_stepDouble {s : State α} {opened : Nat} {r : Rune} {t : Text}
    (asked : (s.stepDouble opened r).mode.Asks lookup t) : Closes lookup (r :: t) := by
  unfold stepDouble at asked
  split at asked
  next quote =>
    subst quote
    exact Closes.quote asked
  next noQuote =>
  split at asked
  next backslash =>
    subst backslash
    exact asked
  next noBackslash =>
  split at asked
  next dollar =>
    subst dollar
    exact asked
  next noDollar => exact Closes.inner (.plain r) ⟨noQuote, noBackslash, noDollar⟩ asked

theorem asks_stepAround {s : State α} {within : Option Nat} {r : Rune} {t : Text}
    (asked : (s.stepAround within r).mode.Asks lookup t) : GoesOn lookup within (r :: t) := by
  cases within with
  | none => exact asks_stepBare asked
  | some opened => exact asks_stepDouble asked

/-- A marker that is bound goes on in the text around it. -/
private theorem bind_ok {s moved : State α} {start : Nat} {within : Option Nat} {name : Text}
    (bound : s.bind lookup start within name = .ok moved) :
    ∃ value, lookup name = some value ∧ moved.mode = modeAround within := by
  unfold bind at bound
  split at bound
  · cases bound
  next value found =>
    cases bound
    exact ⟨value, found, rfl⟩

private theorem asks_modeAround {within : Option Nat} {t : Text} :
    (modeAround within).Asks lookup t ↔ GoesOn lookup within t := by
  cases within <;> exact Iff.rfl

/-- A bare name that is bound and that nothing continues makes a marker. -/
private theorem goesOn_bare {within : Option Nat} {name : Text} {value : α} {rest : Text}
    (bareName : IsBareName name) (found : lookup name = some value)
    (ended : ∀ r ∈ rest.head?, Text.continuesName r = false) (goesOn : GoesOn lookup within rest) :
    GoesOn lookup within (.char '$' :: (name ++ rest)) :=
  GoesOn.marker (m := ⟨false, name, value⟩)
    ⟨found, fun braced => absurd braced Bool.false_ne_true, fun _ => ⟨bareName, ended⟩⟩ goesOn

/-- A braced name that is bound makes a marker. -/
private theorem goesOn_braced {within : Option Nat} {name : Text} {value : α} {rest : Text}
    (inside : .char '\x7d' ∉ name) (identifier : Text.isIdentifier name = true)
    (found : lookup name = some value) (goesOn : GoesOn lookup within rest) :
    GoesOn lookup within (.char '$' :: .char '\x7b' :: (name ++ .char '\x7d' :: rest)) := by
  have marker := GoesOn.marker (m := ⟨true, name, value⟩)
    ⟨found, fun _ => ⟨inside, identifier⟩, fun bare => absurd bare.symm Bool.false_ne_true⟩ goesOn
  rwa [Marker.render, if_pos rfl, List.cons_append, List.cons_append, List.append_assoc] at marker

/-- A rune after a bare name continues it, or the marker ends before the rune. -/
private theorem asks_name {s moved : State α} {r : Rune} {start : Nat} {within : Option Nat}
    {soFar t : Text} (mode : s.mode = .name start within soFar)
    (stepped : s.stepMode lookup r = .ok moved)
    (asked : moved.mode.Asks lookup t) : (Mode.name start within soFar).Asks lookup (r :: t) := by
  intro bareName
  simp only [stepMode, mode] at stepped
  split at stepped
  next continues =>
    cases stepped
    have goesOn := asked (bareName.snoc continues)
    rwa [List.append_assoc] at goesOn
  next noContinues =>
    rcases bound : s.bind lookup start within soFar with fault | marked
    · rw [bound] at stepped
      cases stepped
    · rw [bound] at stepped
      cases stepped
      obtain ⟨value, found, _⟩ := bind_ok bound
      have ended : ∀ c ∈ (r :: t).head?, Text.continuesName c = false := by
        rintro c same
        cases same
        exact Bool.eq_false_iff.mpr noContinues
      exact goesOn_bare bareName found ended (asks_stepAround asked)

/-- A rune after a braced name is a part of it or closes it. -/
private theorem asks_braced {s moved : State α} {r : Rune} {start : Nat} {within : Option Nat}
    {soFar t : Text} (mode : s.mode = .braced start within soFar)
    (stepped : s.stepMode lookup r = .ok moved)
    (asked : moved.mode.Asks lookup t) : (Mode.braced start within soFar).Asks lookup (r :: t) := by
  intro inside
  simp only [stepMode, mode] at stepped
  by_cases brace : r = .char '\x7d'
  · subst brace
    simp only [if_true] at stepped
    split at stepped
    next identifier =>
      obtain ⟨value, found, around⟩ := bind_ok stepped
      rw [around] at asked
      exact goesOn_braced inside identifier found (asks_modeAround.mp asked)
    next => cases stepped
  · simp only [brace, if_false] at stepped
    cases stepped
    have longer : .char '\x7d' ∉ soFar ++ [r] := by
      simp [inside, Ne.symm brace]
    have goesOn := asked longer
    rwa [List.append_assoc] at goesOn

/-- One step: what is asked after a rune makes up what was asked before it. -/
theorem asks_stepMode {s moved : State α} {r : Rune} (stepped : s.stepMode lookup r = .ok moved)
    {t : Text} (asked : moved.mode.Asks lookup t) : s.mode.Asks lookup (r :: t) := by
  cases mode : s.mode with
  | blank =>
    simp only [stepMode, mode] at stepped
    split at stepped
    next separates =>
      cases stepped
      rw [mode] at asked
      exact Splits.separator separates asked
    next =>
      cases stepped
      exact asks_stepBare asked
  | bare =>
    simp only [stepMode, mode] at stepped
    cases stepped
    exact asks_stepBare asked
  | escaped =>
    simp only [stepMode, mode] at stepped
    split at stepped
    next feed =>
      cases stepped
      subst feed
      exact Splits.piece .joined trivial asked
    next noFeed =>
      cases stepped
      exact Splits.piece (.escaped r) noFeed asked
  | single opened =>
    simp only [stepMode, mode] at stepped
    split at stepped
    next apostrophe =>
      cases stepped
      subst apostrophe
      exact ⟨[], t, List.not_mem_nil, asked, rfl⟩
    next noApostrophe =>
      cases stepped
      obtain ⟨inside, rest, without, splits, rfl⟩ := asked
      exact ⟨r :: inside, rest, List.not_mem_cons_of_ne_of_not_mem (Ne.symm noApostrophe) without,
        splits, rfl⟩
  | double opened =>
    simp only [stepMode, mode] at stepped
    cases stepped
    exact asks_stepDouble asked
  | doubleEscaped opened =>
    simp only [stepMode, mode] at stepped
    split at stepped
    next feed =>
      cases stepped
      subst feed
      exact Closes.inner .joined trivial asked
    next noFeed =>
    split at stepped
    next escapable =>
      cases stepped
      exact Closes.inner (.escaped r) escapable asked
    next noEscape =>
      cases stepped
      exact Closes.inner (.kept r) ⟨noFeed, Bool.eq_false_iff.mpr noEscape⟩ asked
  | marker start within =>
    simp only [stepMode, mode] at stepped
    split at stepped
    next brace =>
      cases stepped
      subst brace
      exact asked List.not_mem_nil
    next =>
    split at stepped
    next starts =>
      cases stepped
      exact asked (.intro r [] starts fun _ member => absurd member List.not_mem_nil)
    next => cases stepped
  | name start within soFar => exact asks_name mode stepped asked
  | braced start within soFar => exact asks_braced mode stepped asked

/-- What is read to the end gives its mode what the mode asks for. -/
theorem asks_of_answer {s : State α} {t : Text} {words : List (Word α)}
    (read : s.answer lookup t = .ok words) : s.mode.Asks lookup t := by
  induction t generalizing s with
  | nil =>
    rw [answer_nil] at read
    unfold finish at read
    cases mode : s.mode with
    | blank | bare => exact Splits.nil
    | escaped | single | double | doubleEscaped | marker | braced =>
      simp only [mode] at read
      cases read
    | name start within soFar =>
      intro bareName
      simp only [mode] at read
      rcases bound : s.bind lookup start within soFar with fault | marked
      · rw [bound] at read
        cases read
      · rw [bound] at read
        obtain ⟨value, found, _⟩ := bind_ok bound
        cases within with
        | none => exact goesOn_bare bareName found (fun _ none => nomatch none) Splits.nil
        | some opened => cases read
  | cons r t ih =>
    rcases stepped : s.stepMode lookup r with fault | moved
    · rw [answer_cons, stepped] at read
      cases read
    · rw [answer_of_stepMode stepped] at read
      have asked := ih read
      rw [mode_counted] at asked
      exact asks_stepMode stepped asked

end State

/-! ## Templates -/

/-- The grammar is not ambiguous: the derivations of a template agree on its words. -/
theorem Layout.words_eq_of_render_eq {l₁ l₂ : Layout α} (allowed₁ : l₁.Allowed lookup)
    (allowed₂ : l₂.Allowed lookup) (same : l₁.render = l₂.render) : l₁.words = l₂.words := by
  obtain ⟨ws₁, read₁, spelled₁⟩ := l₁.answer allowed₁ {}
  obtain ⟨ws₂, read₂, spelled₂⟩ := l₂.answer allowed₂ {}
  rw [same, read₂] at read₁
  cases read₁
  exact spelled₁.symm.trans spelled₂

/-- The reader accepts a template exactly when the template has a derivation whose markers are all
bound, and then the words are those of the derivation. -/
theorem words?_iff (template : Text) (words : List (List (Atom α))) :
    (∃ ws, words? lookup template = .ok ws ∧ ws.map Word.atoms = words) ↔
      ∃ l : Layout α, l.Allowed lookup ∧ l.render = template ∧ l.words = words := by
  have start : words? lookup template = ({} : State α).fresh.answer lookup template :=
    State.answer_blank rfl template
  constructor
  · rintro ⟨ws, read, rfl⟩
    rw [start] at read
    obtain ⟨l, allowed, rfl⟩ := State.asks_of_answer read
    obtain ⟨again, sameRead, spelled⟩ := l.answer allowed {}
    rw [read] at sameRead
    cases sameRead
    exact ⟨l, allowed, rfl, spelled.symm⟩
  · rintro ⟨l, allowed, rfl, rfl⟩
    obtain ⟨ws, read, spelled⟩ := l.answer allowed {}
    exact ⟨ws, start.trans read, spelled⟩

/-- A template is read under some bindings exactly when it has a derivation in which every marker
has the value of its name, and then the words are those of the derivation. -/
theorem tokenize_accepts_grammar (template : Text) (bindings : Bindings α)
    (words : List (List (Atom α))) :
    (∃ ws, tokenize template bindings = .ok ws ∧ ws.map Word.atoms = words) ↔
      ∃ l : Layout α, l.Allowed bindings.get? ∧ l.render = template ∧ l.words = words := by
  rw [← words?_iff]
  unfold tokenize
  rcases words? bindings.get? template with ⟨fault, pos⟩ | ws <;> simp

end Pipework.Template
