import Pipework.Proofs.Template.Separation

/-!
# Where a template goes wrong

A fault is told with the place of the first construct that cannot be read: quotes that are not closed, a
marker, or a backslash at the end. The modes remember these places. Such a construct is opened only where
the template could end, or could end behind a closing double quote, and that stays true of its place
whatever is read after it (`Mode.Places`). So nothing is wrong before the place of a fault, and what stands
there is what opens the construct (`tokenize_error_points_at_fault`).
-/

namespace Pipework.Template

variable {α : Type} {lookup : Text → Option α}

/-! ## What is said of a place -/

/-- Whether it is a marker that cannot be read. -/
def Fault.isOfMarker : Fault → Bool
  | .bareMarker | .openBrace | .invalidName _ | .unbound _ => true
  | _ => false

/-- The rune at the place of a fault: what opens the construct that cannot be read. A backslash that
nothing follows is the last rune. -/
def Fault.Marks (template : Text) (p : Nat) : Fault → Prop
  | .trailingBackslash => template[p]? = some (.char '\\') ∧ p + 1 = template.length
  | .openSingleQuote => template[p]? = some (.char '\'')
  | .openDoubleQuote => template[p]? = some (.char '"')
  | .bareMarker | .openBrace | .invalidName _ | .unbound _ => template[p]? = some (.char '$')
  | .other _ => False

/-- Nothing is wrong with a text. -/
def Reads (lookup : Text → Option α) (t : Text) : Prop := ∃ words, words? lookup t = .ok words

/-- Nothing is wrong with a text but that it breaks off between double quotes, which were opened at a
place. -/
structure BreaksOff (lookup : Text → Option α) (t : Text) (opened : Nat) : Prop where
  quote : t[opened]? = some (.char '"')
  unclosed : words? lookup t = .error (.openDoubleQuote, opened)
  closed : Reads lookup (t ++ [.char '"'])

/-- Nothing is wrong with a text so far: it ends outside quotes, or between the double quotes that were
opened at a place. -/
def Ends (lookup : Text → Option α) (t : Text) : Option Nat → Prop
  | none => Reads lookup t
  | some opened => BreaksOff lookup t opened

/-- A rune opens a construct at a place of a text, before which nothing is wrong. -/
structure Opens (lookup : Text → Option α) (t : Text) (r : Rune) (p : Nat) (within : Option Nat) : Prop where
  rune : t[p]? = some r
  before : Ends lookup (t.take p) within

/-- What opens a construct stays where it is. -/
theorem Opens.append {t : Text} {r : Rune} {p : Nat} {within : Option Nat} (opens : Opens lookup t r p within)
    (rest : Text) : Opens lookup (t ++ rest) r p within := by
  have inside : p < t.length := (List.getElem?_eq_some_iff.mp opens.rune).1
  refine ⟨?_, ?_⟩
  · rw [List.getElem?_append_left inside]
    exact opens.rune
  · rw [List.take_append_of_le_length (Nat.le_of_lt inside)]
    exact opens.before

/-- A rune behind a text with which nothing is wrong opens a construct there. -/
theorem Ends.opens {t : Text} {within : Option Nat} (ends : Ends lookup t within) (r : Rune) :
    Opens lookup (t ++ [r]) r t.length within := by
  refine ⟨List.getElem?_concat_length, ?_⟩
  rwa [List.take_left' rfl]

/-! ## The places that modes remember -/

/-- The double quotes around a place, if it has any, are where they are said to be. -/
def Around (lookup : Text → Option α) (t : Text) (within : Option Nat) : Prop :=
  ∀ opened ∈ within, Opens lookup t (.char '"') opened none

/-- A mode that a text leads to remembers where its construct was opened. -/
def Mode.Places (lookup : Text → Option α) (t : Text) : Mode → Prop
  | .blank | .bare => True
  | .escaped => Opens lookup t (.char '\\') (t.length - 1) none
  | .single opened => Opens lookup t (.char '\'') opened none
  | .double opened | .doubleEscaped opened => Opens lookup t (.char '"') opened none
  | .marker start within | .name start within _ | .braced start within _ =>
    Opens lookup t (.char '$') start within ∧ Around lookup t within

theorem Around.append {t : Text} {within : Option Nat} (around : Around lookup t within) (rest : Text) :
    Around lookup (t ++ rest) within :=
  fun opened inside => (around opened inside).append rest

theorem places_modeAround {t : Text} {within : Option Nat} (around : Around lookup t within) :
    (State.modeAround within).Places lookup t := by
  cases within with
  | none => trivial
  | some opened => exact around opened rfl

namespace State

/-- A text leads the reader to a state: what is read after the text is read from there. -/
structure Leads (lookup : Text → Option α) (t : Text) (s : State α) : Prop where
  reads : ∀ rest, words? lookup (t ++ rest) = s.answer lookup rest
  pos : s.pos = t.length

theorem leads_nil : Leads lookup [] ({} : State α) := ⟨fun _ => rfl, rfl⟩

section Led

variable {t : Text} {s : State α} (leads : Leads lookup t s)
include leads

theorem Leads.words? : words? lookup t = s.finish lookup := by
  have whole := leads.reads []
  rwa [List.append_nil] at whole

theorem Leads.step {moved : State α} {r : Rune} (stepped : s.stepMode lookup r = .ok moved) :
    Leads lookup (t ++ [r]) moved.counted := by
  refine ⟨fun rest => ?_, ?_⟩
  · rw [List.append_assoc, List.singleton_append, leads.reads, answer_of_stepMode stepped]
  · rw [List.length_append, List.length_singleton, ← leads.pos, ← pos_of_stepMode stepped]
    rfl

end Led

/-! ## Where a text may break off -/

section Ends

variable {t : Text} {s : State α} (leads : Leads lookup t s)
include leads

/-- Outside quotes a text may end. -/
private theorem ends_bare (mode : s.mode = .blank ∨ s.mode = .bare) : Ends lookup t none := by
  rcases mode with mode | mode
  · exact ⟨s.words, leads.words?.trans (by rw [finish, mode])⟩
  · exact ⟨s.endWord.words, leads.words?.trans (by rw [finish, mode])⟩

/-- What a double quote closes may end behind it. -/
private theorem closed_of_quote {closing : State α} (stepped : s.stepMode lookup (.char '"') = .ok closing)
    (bare : closing.mode = .bare) : Reads lookup (t ++ [.char '"']) := by
  refine ⟨closing.counted.endWord.words, ?_⟩
  rw [leads.reads, answer_of_stepMode stepped, answer_nil, finish, mode_counted, bare]

/-- Between double quotes a text may break off. -/
private theorem ends_double {opened : Nat} (mode : s.mode = .double opened)
    (quote : t[opened]? = some (.char '"')) : Ends lookup t (some opened) := by
  have around : s.mode = modeAround (some opened) := mode
  refine ⟨quote, leads.words?.trans (by rw [finish, mode]), ?_⟩
  exact closed_of_quote leads (stepMode_around around _) rfl

/-- Behind a bare name that is bound, a text may end or break off as it may before the marker. -/
private theorem ends_name {start : Nat} {within : Option Nat} {soFar : Text} {bound : State α}
    (mode : s.mode = .name start within soFar) (binds : s.bind lookup start within soFar = .ok bound)
    (around : Around lookup t within) : Ends lookup t within := by
  cases within with
  | none =>
    refine ⟨bound.endWord.words, leads.words?.trans ?_⟩
    simp only [finish, mode, binds]
  | some opened =>
    have other : Text.continuesName (.char '"') = false := by decide
    have stepped : s.stepMode lookup (.char '"') = .ok (bound.stepDouble opened (.char '"')) := by
      simp only [stepMode, mode, other, Bool.false_eq_true, if_false, binds]
      rfl
    refine ⟨(around opened rfl).rune, leads.words?.trans ?_, closed_of_quote leads stepped rfl⟩
    simp only [finish, mode, binds]

end Ends

/-! ## One rune -/

section Step

variable {t : Text} {around : State α} (pos : around.pos = t.length) (r : Rune)
include pos

/-- Outside quotes a construct is opened where the text could end. -/
private theorem places_stepBare (ends : Ends lookup t none) : (around.stepBare r).mode.Places lookup (t ++ [r]) := by
  have opens := ends.opens r
  rw [← pos] at opens
  unfold stepBare
  split
  · trivial
  split
  next backslash =>
    subst backslash
    have last : (t ++ [Rune.char '\\']).length - 1 = around.pos := by simp [pos]
    rw [Mode.Places, last]
    exact opens
  split
  next apostrophe => exact apostrophe ▸ opens
  split
  next quote => exact quote ▸ opens
  split
  next dollar => exact ⟨dollar ▸ opens, nofun⟩
  · trivial

/-- Between double quotes only a marker is opened. -/
private theorem places_stepDouble {opened : Nat} (ends : Ends lookup t (some opened))
    (quote : Opens lookup t (.char '"') opened none) :
    (around.stepDouble opened r).mode.Places lookup (t ++ [r]) := by
  have opens := ends.opens r
  rw [← pos] at opens
  unfold stepDouble
  split
  · trivial
  split
  · exact quote.append [r]
  split
  next dollar =>
    refine ⟨dollar ▸ opens, fun other same => ?_⟩
    cases same
    exact quote.append [r]
  · exact quote.append [r]

private theorem places_stepAround {within : Option Nat} (ends : Ends lookup t within)
    (quotes : Around lookup t within) : (around.stepAround within r).mode.Places lookup (t ++ [r]) := by
  cases within with
  | none => exact places_stepBare pos r ends
  | some opened => exact places_stepDouble pos r ends (quotes opened rfl)

end Step

/-- A marker that is not bound is told with its place. -/
private theorem fault_of_bind {s : State α} {start p : Nat} {within : Option Nat} {name : Text}
    {fault : Fault} (binds : s.bind lookup start within name = .error (fault, p)) :
    fault.isOfMarker = true ∧ p = start := by
  unfold bind at binds
  split at binds <;> cases binds
  exact ⟨rfl, rfl⟩

section Places

variable {t : Text} {s : State α} (places : s.mode.Places lookup t)
include places

/-- One rune: what is remembered stays true, and what is opened is opened behind a text with which nothing
is wrong. -/
private theorem places_stepMode (leads : Leads lookup t s) {r : Rune} {moved : State α}
    (stepped : s.stepMode lookup r = .ok moved) : moved.counted.mode.Places lookup (t ++ [r]) := by
  rw [mode_counted]
  unfold stepMode at stepped
  cases mode : s.mode with
  | blank =>
    have ends := ends_bare leads (.inl mode)
    simp only [mode] at stepped
    split at stepped <;> cases stepped
    · rw [mode]
      trivial
    · have fresh : ({ s with draft := ⟨s.pos, [], none, false⟩ } : State α).pos = t.length := leads.pos
      exact places_stepBare fresh r ends
  | bare =>
    have ends := ends_bare leads (.inr mode)
    simp only [mode] at stepped
    cases stepped
    exact places_stepBare leads.pos r ends
  | escaped =>
    simp only [mode] at stepped
    split at stepped <;> cases stepped <;> trivial
  | single opened =>
    rw [mode] at places
    simp only [mode] at stepped
    split at stepped <;> cases stepped
    · trivial
    · exact Opens.append places [r]
  | double opened =>
    rw [mode] at places
    simp only [mode] at stepped
    cases stepped
    exact places_stepDouble leads.pos r (ends_double leads mode (Opens.rune places)) places
  | doubleEscaped opened =>
    rw [mode] at places
    simp only [mode] at stepped
    have stays := Opens.append places [r]
    split at stepped
    · cases stepped
      exact stays
    split at stepped <;> cases stepped <;> exact stays
  | marker start within =>
    rw [mode] at places
    simp only [mode] at stepped
    have stays := And.intro (Opens.append places.1 [r]) (Around.append places.2 [r])
    split at stepped
    · cases stepped
      exact stays
    split at stepped <;> cases stepped
    exact stays
  | name start within soFar =>
    rw [mode] at places
    simp only [mode] at stepped
    split at stepped
    · cases stepped
      exact ⟨places.1.append [r], places.2.append [r]⟩
    · cases binds : s.bind lookup start within soFar with
      | error fault =>
        rw [binds] at stepped
        cases stepped
      | ok bound =>
        rw [binds] at stepped
        cases stepped
        have pos := (pos_of_bind binds).trans leads.pos
        exact places_stepAround pos r (ends_name leads mode binds places.2) places.2
  | braced start within soFar =>
    rw [mode] at places
    simp only [mode] at stepped
    split at stepped
    · split at stepped
      · rw [mode_of_bind stepped]
        exact places_modeAround (places.2.append [r])
      · cases stepped
    · cases stepped
      exact ⟨places.1.append [r], places.2.append [r]⟩

/-- Only a marker goes wrong before the end of a template, and it is told with its place. -/
private theorem opens_of_stepMode {r : Rune} {fault : Fault} {p : Nat}
    (failed : s.stepMode lookup r = .error (fault, p)) :
    fault.isOfMarker = true ∧ ∃ within, Opens lookup t (.char '$') p within := by
  unfold stepMode at failed
  cases mode : s.mode with
  | blank | escaped | single =>
    simp only [mode] at failed
    split at failed <;> cases failed
  | bare | double =>
    simp only [mode] at failed
    cases failed
  | doubleEscaped opened =>
    simp only [mode] at failed
    split at failed
    · cases failed
    split at failed <;> cases failed
  | marker start within =>
    rw [mode] at places
    simp only [mode] at failed
    split at failed
    · cases failed
    split at failed <;> cases failed
    exact ⟨rfl, within, places.1⟩
  | name start within soFar =>
    rw [mode] at places
    simp only [mode] at failed
    split at failed
    · cases failed
    · cases binds : s.bind lookup start within soFar with
      | error other =>
        rw [binds] at failed
        cases failed
        obtain ⟨ofMarker, rfl⟩ := fault_of_bind binds
        exact ⟨ofMarker, within, places.1⟩
      | ok bound =>
        rw [binds] at failed
        cases failed
  | braced start within soFar =>
    rw [mode] at places
    simp only [mode] at failed
    split at failed
    · split at failed
      · obtain ⟨ofMarker, rfl⟩ := fault_of_bind failed
        exact ⟨ofMarker, within, places.1⟩
      · cases failed
        exact ⟨rfl, within, places.1⟩
    · cases failed

end Places

end State

/-! ## Whole templates -/

/-- A fault is told with the place of what cannot be read, and nothing is wrong before that place. Only a
marker can stand between double quotes. -/
structure Located (lookup : Text → Option α) (template : Text) (fault : Fault) (p : Nat) : Prop where
  marks : fault.Marks template p
  before : Reads lookup (template.take p) ∨
    fault.isOfMarker = true ∧ ∃ opened, BreaksOff lookup (template.take p) opened

theorem Located.inside {template : Text} {fault : Fault} {p : Nat} (located : Located lookup template fault p) :
    p < template.length := by
  have found {r : Rune} (stands : template[p]? = some r) : p < template.length :=
    (List.getElem?_eq_some_iff.mp stands).1
  have marks := located.marks
  cases fault with
  | trailingBackslash => exact found marks.1
  | openSingleQuote | openDoubleQuote | bareMarker | openBrace | invalidName | unbound => exact found marks
  | other => exact marks.elim

theorem Opens.located {template : Text} {fault : Fault} {p : Nat} {within : Option Nat}
    (opens : Opens lookup template (.char '$') p within) (ofMarker : fault.isOfMarker = true) :
    Located lookup template fault p := by
  refine ⟨?_, ?_⟩
  · cases fault with
    | bareMarker | openBrace | invalidName | unbound => exact opens.rune
    | trailingBackslash | openSingleQuote | openDoubleQuote | other => cases ofMarker
  · cases within with
    | none => exact .inl opens.before
    | some opened => exact .inr ⟨ofMarker, opened, opens.before⟩

namespace State

/-- At the end of a template, what is still open goes wrong. -/
private theorem located_of_finish {t : Text} {s : State α} (leads : Leads lookup t s)
    (places : s.mode.Places lookup t) {fault : Fault} {p : Nat} (failed : s.finish lookup = .error (fault, p)) :
    Located lookup t fault p := by
  unfold finish at failed
  cases mode : s.mode with
  | blank | bare =>
    rw [mode] at failed
    cases failed
  | escaped =>
    rw [mode] at failed places
    cases failed
    have opens : Opens lookup t (.char '\\') (s.pos - 1) none := leads.pos ▸ places
    have inside := (List.getElem?_eq_some_iff.mp opens.rune).1
    exact ⟨⟨opens.rune, by rw [leads.pos] at inside ⊢; omega⟩, .inl opens.before⟩
  | single opened =>
    rw [mode] at failed places
    cases failed
    exact ⟨Opens.rune places, .inl (Opens.before places)⟩
  | double opened | doubleEscaped opened =>
    rw [mode] at failed places
    cases failed
    exact ⟨Opens.rune places, .inl (Opens.before places)⟩
  | marker start within | braced start within soFar =>
    rw [mode] at failed places
    cases failed
    exact places.1.located rfl
  | name start within soFar =>
    rw [mode] at places
    simp only [mode] at failed
    cases binds : s.bind lookup start within soFar with
    | error other =>
      rw [binds] at failed
      cases failed
      obtain ⟨ofMarker, rfl⟩ := fault_of_bind binds
      exact places.1.located ofMarker
    | ok bound =>
      rw [binds] at failed
      cases within with
      | none => cases failed
      | some opened =>
        cases failed
        have quote := places.2 _ rfl
        exact ⟨quote.rune, .inl quote.before⟩

/-- Whatever text led to a state, what goes wrong from there is told with its place in the whole. -/
theorem located_of_answer {rest t : Text} {s : State α} (leads : Leads lookup t s)
    (places : s.mode.Places lookup t) {fault : Fault} {p : Nat}
    (failed : s.answer lookup rest = .error (fault, p)) : Located lookup (t ++ rest) fault p := by
  induction rest generalizing t s with
  | nil =>
    rw [List.append_nil]
    exact located_of_finish leads places failed
  | cons r rest ih =>
    cases stepped : s.stepMode lookup r with
    | error other =>
      rw [answer_cons, stepped] at failed
      cases failed
      obtain ⟨ofMarker, within, opens⟩ := opens_of_stepMode places stepped
      exact (opens.append (r :: rest)).located ofMarker
    | ok moved =>
      rw [answer_of_stepMode stepped] at failed
      have later := ih (leads.step stepped) (places_stepMode places leads stepped) failed
      rwa [List.append_assoc, List.singleton_append] at later

end State

/-- A text can be read under some bindings. -/
def Bindings.Reads (bindings : Bindings α) (t : Text) : Prop := ∃ words, tokenize t bindings = .ok words

/-- Under some bindings a text breaks off between double quotes that were opened at a place: it cannot be read as it
is, for these quotes are not closed, and with a double quote behind it it can. -/
structure Bindings.BreaksOff (bindings : Bindings α) (t : Text) (opened : Nat) : Prop where
  quote : t[opened]? = some (.char '"')
  unclosed : tokenize t bindings = .error ⟨.openDoubleQuote, t, some (opened : Int)⟩
  closed : bindings.Reads (t ++ [.char '"'])

theorem Bindings.reads_iff {bindings : Bindings α} {t : Text} :
    bindings.Reads t ↔ Template.Reads bindings.get? t := by
  unfold Bindings.Reads Template.Reads tokenize
  rcases words? bindings.get? t with fault | words <;> simp

/-- **A syntax error points at the first construct that cannot be read.** Its position is a place in the template. There
stands the quote that is never closed, the backslash that nothing follows, or the dollar sign of the marker. And
nothing is wrong before: what comes before the place can be read under the same bindings, or, where the marker stands
between double quotes, with a double quote behind it. -/
theorem tokenize_error_points_at_fault {template : Text} {bindings : Bindings α} {e : SyntaxError}
    (failed : tokenize template bindings = .error e) :
    ∃ p : Nat, e = ⟨e.fault, template, some (p : Int)⟩ ∧ p < template.length ∧ e.fault.Marks template p ∧
      (bindings.Reads (template.take p) ∨
        e.fault.isOfMarker = true ∧ ∃ opened, bindings.BreaksOff (template.take p) opened) := by
  cases read : words? bindings.get? template with
  | ok words =>
    rw [tokenize, read] at failed
    cases failed
  | error located =>
    obtain ⟨fault, p⟩ := located
    rw [tokenize, read] at failed
    cases failed
    have located : Located bindings.get? ([] ++ template) fault p :=
      State.located_of_answer State.leads_nil trivial read
    rw [List.nil_append] at located
    refine ⟨p, rfl, located.inside, located.marks, located.before.imp Bindings.reads_iff.mpr ?_⟩
    rintro ⟨ofMarker, opened, quote, unclosed, closed⟩
    refine ⟨ofMarker, opened, quote, ?_, Bindings.reads_iff.mpr closed⟩
    rw [tokenize, unclosed]

/-- The name of a marker between double quotes is not bound; before its dollar sign only the quotes are
left to close. -/
theorem unbound_within_quotes_located :
    tokenize "a$n \"b\\\"$n$m" [("n", 7)] = .error ⟨.unbound "m", "a$n \"b\\\"$n$m", some 10⟩ ∧
      ∃ opened, Bindings.BreaksOff [("n", 7)] (Text.ofString "a$n \"b\\\"$n") opened := by
  have failed : tokenize "a$n \"b\\\"$n$m" [("n", 7)] = .error ⟨.unbound "m", "a$n \"b\\\"$n$m", some 10⟩ := rfl
  refine ⟨failed, ?_⟩
  obtain ⟨p, same, -, -, reads | ⟨-, opened, breaksOff⟩⟩ := tokenize_error_points_at_fault failed
  · cases same
    obtain ⟨words, read⟩ := reads
    cases read
  · cases same
    exact ⟨opened, breaksOff⟩

end Pipework.Template
