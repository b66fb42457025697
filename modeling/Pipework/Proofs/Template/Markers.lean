import Pipework.Proofs.Template.Places

/-!
# Markers among the tokens

A marker that was read is a marker of the derivation, so its name is one that the grammar lets it have
(`allowed_of_marker_mem`) and its value is what
that name is bound to. The other way round, a marker that is read in the middle of a template is found among the
tokens of the whole, at the place that it had when it was read: whatever follows adds tokens behind it and takes
none away (`tokens_of_answer`, `marker_of_answer`).
-/

namespace Pipework.Template

variable {α : Type} {lookup : Text → Option α}

/-! ## Markers of a derivation -/

/-- Where the sign is a marker, the marker is allowed before some text. -/
def Sign.Allowed (lookup : Text → Option α) : Sign α → Prop
  | rune _ | close _ => True
  | marker m _ _ => ∃ rest, m.Allowed lookup rest

theorem Inner.allowed_signs {part : Inner α} {rest : Text} (allowed : part.Allowed lookup rest) (n : Nat) :
    ∀ sign ∈ part.signs n, sign.Allowed lookup := by
  cases part with
  | plain r | escaped r => exact List.forall_mem_singleton.mpr trivial
  | joined => exact fun _ member => absurd member List.not_mem_nil
  | kept r => exact List.forall_mem_cons.mpr ⟨trivial, List.forall_mem_singleton.mpr trivial⟩
  | marker m => exact List.forall_mem_singleton.mpr ⟨rest, allowed⟩

theorem Piece.allowed_signs {part : Piece α} {rest : Text} (allowed : part.Allowed lookup rest) (n : Nat) :
    ∀ sign ∈ part.signs n, sign.Allowed lookup := by
  cases part with
  | plain r | escaped r => exact List.forall_mem_singleton.mpr trivial
  | joined => exact fun _ member => absurd member List.not_mem_nil
  | single t => exact forall_placeAll (fun _ _ _ => List.forall_mem_singleton.mpr trivial) (n + 1)
  | double parts =>
    refine List.forall_mem_append.mpr ⟨forall_placeAll (fun n part member => ?_) (n + 1), ?_⟩
    · obtain ⟨_, inside⟩ := AllAllowed.of_mem allowed member
      exact Inner.allowed_signs inside n
    · exact List.forall_mem_singleton.mpr trivial
  | marker m => exact List.forall_mem_singleton.mpr ⟨rest, allowed⟩

theorem Layout.allowed_signs {l : Layout α} (allowed : l.Allowed lookup) (n : Nat) :
    ∀ field ∈ l.fields n, ∀ sign ∈ field.signs, sign.Allowed lookup := by
  have row {field : List (Piece α)} {rest : Text}
      (allowed : AllAllowed Piece.render (Piece.Allowed lookup) field rest) (n : Nat) :
      ∀ sign ∈ (⟨n, field⟩ : Field α).signs, sign.Allowed lookup := by
    refine forall_placeAll (fun n part member => ?_) n
    obtain ⟨_, here⟩ := allowed.of_mem member
    exact Piece.allowed_signs here n
  induction l generalizing n with
  | last field => exact List.forall_mem_singleton.mpr (row allowed n)
  | more field separator rest ih =>
    obtain ⟨first, -, others⟩ := allowed
    exact List.forall_mem_cons.mpr ⟨row first n, ih others _⟩

section Read

variable {template : Text} {bindings : Bindings α} {words : List (Word α)}
  (read : tokenize template bindings = .ok words) {w : Word α} (member : w ∈ words) {name : Text} {value : α}
  {pos : Nat} {quoted : Bool} (inWord : .marker name value pos quoted ∈ w.tokens)
include read member inWord

/-- A marker that was read stands at its place, and the grammar allows it. -/
theorem allowed_of_marker_mem : ∃ braced rest,
    Marker.render ⟨braced, name, value⟩ <+: template.drop pos ∧
      Marker.Allowed bindings.get? ⟨braced, name, value⟩ rest := by
  obtain ⟨⟨l, allowed, rfl⟩, derived⟩ := gives_of_tokenize read
  obtain ⟨field, inFields, gives⟩ := exists_gives (derived l allowed rfl) member
  obtain ⟨-, tokens | ⟨sources, -, cuts, tokens⟩⟩ := gives.tokens
  · rw [tokens] at inWord
    cases List.mem_singleton.mp inWord
  · rw [tokens] at inWord
    obtain ⟨source, inSources, same⟩ := List.mem_map.mp inWord
    cases source with
    | text => cases same
    | marker m place inside =>
      cases same
      have sign : .marker m pos quoted ∈ field.signs := cuts.sublist.subset (List.mem_map_of_mem inSources)
      have ofLayout : field ∈ l.fields 0 := List.mem_of_mem_filter inFields
      obtain ⟨rest, here⟩ := Layout.allowed_signs allowed 0 field ofLayout _ sign
      exact ⟨m.braced, rest, l.standsIn [] field ofLayout _ sign, here⟩

/-- A marker that was read holds the very value that its name is bound to. -/
theorem value_of_marker_mem : bindings.get? name = some value := by
  obtain ⟨_, _, _, allowed⟩ := allowed_of_marker_mem read member inWord
  exact allowed.bound

end Read

/-! ## What was read stays -/

namespace Draft

theorem tokens_push (d : Draft α) (pos : Nat) (r : Rune) : (d.push pos r).tokens = d.tokens := by
  rcases d with ⟨_, _, _ | ⟨start, text⟩, _⟩ <;> rfl

theorem tokens_flush (d : Draft α) (quoted : Bool) : d.tokens <+: (d.flush quoted).tokens := by
  rcases d with ⟨_, _, _ | ⟨start, text⟩, _⟩
  · exact List.prefix_rfl
  · exact List.prefix_append _ _

theorem tokens_finish? (d : Draft α) : d.tokens <+: d.finish?.toList.flatMap Word.tokens := by
  rcases d with ⟨_, tokens, _ | ⟨start, text⟩, quotes⟩
  · cases tokens <;> cases quotes <;> simp [finish?, flush]
  · simp [finish?, flush]

end Draft

namespace State

/-- The tokens of the words and those of the draft. -/
def gathered (s : State α) : List (Token α) := s.words.flatMap Word.tokens ++ s.draft.tokens

/-- The tokens that were read. Between words, the draft is left from the last word and no part of them. -/
def tokens (s : State α) : List (Token α) :=
  match s.mode with
  | .blank => s.words.flatMap Word.tokens
  | _ => s.gathered

theorem tokens_of_inWord {s : State α} (inWord : s.mode ≠ .blank) : s.tokens = s.gathered := by
  unfold tokens
  cases mode : s.mode with
  | blank => exact absurd mode inWord
  | bare | escaped | single | double | doubleEscaped | marker | name | braced => rfl

theorem gathered_flush (s : State α) (quoted : Bool) :
    s.gathered <+: s.words.flatMap Word.tokens ++ (s.draft.flush quoted).tokens :=
  (List.prefix_append_right_inj _).mpr (s.draft.tokens_flush quoted)

theorem gathered_push (s : State α) (pos : Nat) (r : Rune) :
    s.gathered <+: s.words.flatMap Word.tokens ++ (s.draft.push pos r).tokens := by
  rw [Draft.tokens_push]
  exact List.prefix_rfl

/-- Outside quotes: a rune in the word, or a blank that ends it. -/
theorem gathered_stepBare (s : State α) (r : Rune) : s.gathered <+: (s.stepBare r).tokens := by
  unfold stepBare
  split
  · have ended : s.endWord.tokens =
        s.words.flatMap Word.tokens ++ s.draft.finish?.toList.flatMap Word.tokens := List.flatMap_append
    rw [ended]
    exact (List.prefix_append_right_inj _).mpr s.draft.tokens_finish?
  split
  · exact List.prefix_rfl
  split
  · exact List.prefix_rfl
  split
  · exact List.prefix_rfl
  split
  · exact s.gathered_flush false
  · exact s.gathered_push s.pos r

theorem gathered_stepDouble (s : State α) (opened : Nat) (r : Rune) :
    s.gathered <+: (s.stepDouble opened r).tokens := by
  unfold stepDouble
  split
  · exact s.gathered_flush true
  split
  · exact List.prefix_rfl
  split
  · exact s.gathered_flush true
  · exact s.gathered_push s.pos r

theorem gathered_stepAround (s : State α) (within : Option Nat) (r : Rune) :
    s.gathered <+: (s.stepAround within r).tokens := by
  cases within with
  | none => exact gathered_stepBare s r
  | some opened => exact gathered_stepDouble s opened r

theorem gathered_of_bind {s marked : State α} {start : Nat} {within : Option Nat} {name : Text}
    (binds : s.bind lookup start within name = .ok marked) : s.gathered <+: marked.gathered := by
  unfold bind at binds
  split at binds <;> cases binds
  exact (List.prefix_append_right_inj _).mpr (List.prefix_append _ _)

theorem tokens_of_around {s : State α} {within : Option Nat} (mode : s.mode = modeAround within) :
    s.tokens = s.gathered := by
  refine tokens_of_inWord ?_
  rw [mode]
  cases within <;> exact Mode.noConfusion

/-- One rune: tokens are added behind those that were read. -/
theorem tokens_stepMode {s moved : State α} {r : Rune} (stepped : s.stepMode lookup r = .ok moved) :
    s.tokens <+: moved.tokens := by
  unfold stepMode at stepped
  cases mode : s.mode with
  | blank =>
    have between : s.tokens = s.words.flatMap Word.tokens := by rw [tokens, mode]
    simp only [mode] at stepped
    split at stepped <;> cases stepped
    · exact List.prefix_rfl
    · rw [between]
      exact (List.prefix_append _ []).trans
        (gathered_stepBare ({ s with draft := ⟨s.pos, [], none, false⟩ } : State α) r)
  | bare =>
    simp only [mode] at stepped
    cases stepped
    have around : s.mode = modeAround none := mode
    rw [tokens_of_around around]
    exact gathered_stepBare s r
  | double opened =>
    simp only [mode] at stepped
    cases stepped
    have around : s.mode = modeAround (some opened) := mode
    rw [tokens_of_around around]
    exact gathered_stepDouble s opened r
  | escaped | single =>
    rw [tokens, mode]
    simp only [mode] at stepped
    split at stepped <;> cases stepped
    · exact List.prefix_rfl
    · exact s.gathered_push s.pos r
  | doubleEscaped opened =>
    rw [tokens, mode]
    simp only [mode] at stepped
    split at stepped
    · cases stepped
      exact List.prefix_rfl
    split at stepped <;> cases stepped
    · exact s.gathered_push s.pos r
    · have kept := s.gathered_push (s.pos - 1) (.char '\\')
      rw [← Draft.tokens_push _ s.pos r] at kept
      exact kept
  | marker start within =>
    rw [tokens, mode]
    simp only [mode] at stepped
    split at stepped
    · cases stepped
      exact List.prefix_rfl
    split at stepped <;> cases stepped
    exact List.prefix_rfl
  | name start within soFar =>
    rw [tokens, mode]
    simp only [mode] at stepped
    split at stepped
    · cases stepped
      exact List.prefix_rfl
    · cases binds : s.bind lookup start within soFar with
      | error fault =>
        rw [binds] at stepped
        cases stepped
      | ok marked =>
        rw [binds] at stepped
        cases stepped
        exact (gathered_of_bind binds).trans (gathered_stepAround marked within r)
  | braced start within soFar =>
    rw [tokens, mode]
    simp only [mode] at stepped
    split at stepped
    · split at stepped
      · rw [tokens_of_around (mode_of_bind stepped)]
        exact gathered_of_bind stepped
      · cases stepped
    · cases stepped
      exact List.prefix_rfl

/-- The end of the text ends the last word. -/
theorem tokens_of_finish {s : State α} {words : List (Word α)} (ends : s.finish lookup = .ok words) :
    s.tokens <+: words.flatMap Word.tokens := by
  have ended (last : State α) : last.gathered <+: last.endWord.words.flatMap Word.tokens :=
    last.gathered_stepBare (.char ' ')
  unfold finish at ends
  unfold tokens
  cases mode : s.mode with
  | blank =>
    rw [mode] at ends
    cases ends
    exact List.prefix_rfl
  | bare =>
    rw [mode] at ends
    cases ends
    exact ended s
  | escaped | single | double | doubleEscaped | marker | braced =>
    rw [mode] at ends
    cases ends
  | name start within soFar =>
    simp only [mode] at ends
    cases binds : s.bind lookup start within soFar with
    | error fault =>
      rw [binds] at ends
      cases ends
    | ok marked =>
      rw [binds] at ends
      cases within with
      | some opened => cases ends
      | none =>
        cases ends
        exact (gathered_of_bind binds).trans (ended marked)

/-- **What was read stays.** The tokens of a whole template are those that were read at some place of it, and
others behind them. -/
theorem tokens_of_answer {s : State α} {t : Text} {words : List (Word α)}
    (read : s.answer lookup t = .ok words) : s.tokens <+: words.flatMap Word.tokens := by
  induction t generalizing s with
  | nil => exact tokens_of_finish read
  | cons r t ih =>
    rw [answer_cons] at read
    cases stepped : s.stepMode lookup r with
    | error fault =>
      rw [stepped] at read
      cases read
    | ok moved =>
      rw [stepped] at read
      have later : moved.tokens <+: words.flatMap Word.tokens := ih (s := moved.counted) read
      exact (tokens_stepMode stepped).trans later

/-- The tokens that stand before a marker which is read next. -/
def tokensBefore (s : State α) (within : Option Nat) : List (Token α) :=
  s.words.flatMap Word.tokens ++ (s.draft.flush within.isSome).tokens

/-- A marker that is read in a word or between double quotes is, in the whole template, the token right behind
those that stand before it. -/
theorem marker_of_answer {s : State α} {within : Option Nat} (mode : s.mode = modeAround within) {m : Marker α}
    {rest : Text} (allowed : m.Allowed lookup rest) {words : List (Word α)}
    (read : s.answer lookup (m.render ++ rest) = .ok words) :
    (words.flatMap Word.tokens)[(s.tokensBefore within).length]? =
      some (.marker m.name m.value s.pos within.isSome) := by
  have taken := Marker.takes allowed within mode
  unfold Takes at taken
  rw [taken] at read
  obtain ⟨later, same⟩ := tokens_of_answer read
  have around : (s.past m.render.length [.marker m s.pos within.isSome] false).mode = modeAround within := mode
  rw [tokens_of_around around, past_unquoted] at same
  rw [← same]
  simp [gathered, tokensBefore, Draft.take, Draft.mark]

end State

end Pipework.Template
