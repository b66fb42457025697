import Pipework.Argument
import Pipework.Proofs.Template.Markers
import Pipework.Proofs.Template.Outline

/-!
# Values are never read

Reading does not look at values (`Outline`), and expanding does not read again: a scalar goes into its
argument as the text that it is. So a template whose markers are bound to scalars has one argument for
each word, put together from the word's texts and the texts of its values in order
(`expand_scalars`), and what a value contains changes neither the words of a template nor how many
arguments there are.
-/

namespace Pipework

/-! ## Scalars -/

namespace Value

/-- Whether the type of a value offers to go through it. -/
def isIterable : Value → Bool
  | str _ | bytes _ | view _ | list _ | tuple _ | set _ | range .. | dict _ | command .. => true
  | object ref =>
    match ref.kind with
    | .sink | .source => false
    | .byteArray | .byteStream | .textStream | .textSink | .iterator => true
  | _ => false

/-- A value that stands for one text: text, bytes and paths, and whatever cannot be gone through. -/
inductive IsScalar : Value → Prop
  | str (t : Text) : IsScalar (.str t)
  | bytes (b : Bytes) : IsScalar (.bytes b)
  | byteArray (ref : ObjectRef) (kind : ref.kind = .byteArray) : IsScalar (.object ref)
  | path (name : Text) : IsScalar (.path name)
  | bytePath (name : Bytes) : IsScalar (.bytePath name)
  | notIterable (v : Value) (never : v.isIterable = false) : IsScalar v

/-- The scalars are the values that are interpolated as one text. -/
theorem shape_eq_scalar_iff (v : Value) : v.shape = .ok .scalar ↔ v.IsScalar := by
  constructor
  · intro scalar
    cases v with
    | str t => exact .str t
    | bytes b => exact .bytes b
    | path name => exact .path name
    | bytePath name => exact .bytePath name
    | view | list | tuple | set | range | dict | command => cases scalar
    | object ref =>
      cases kind : ref.kind with
      | byteArray => exact .byteArray ref kind
      | sink | source => exact .notIterable _ (by simp only [isIterable, kind])
      | byteStream | textStream | textSink | iterator =>
        simp only [shape, kind] at scalar
        cases scalar
    | none | bool | int | float | plain | file | lostFile | graph | target | redirects | operation =>
      exact .notIterable _ rfl
  · intro scalar
    cases scalar with
    | str | bytes | path | bytePath => rfl
    | byteArray ref kind => simp only [shape, kind]
    | notIterable _ never =>
      cases v with
      | str | bytes | view | list | tuple | set | range | dict | command => cases never
      | object ref =>
        cases kind : ref.kind <;> simp_all [shape, isIterable]
      | _ => rfl

end Value

/-! ## Words without sequences -/

namespace Template

/-- What a token puts into its argument when its value, if it has one, is a scalar. -/
def Token.argument (m : Memory) : Token Value → Text
  | .literal text _ _ => text
  | .marker _ value _ _ => value.argument m

/-- The texts of a word's tokens one after the other. -/
def Word.argument (m : Memory) (w : Word Value) : Text := w.tokens.flatMap (Token.argument m)

/-- Every marker among some tokens has a scalar. -/
def AllScalar (tokens : List (Token Value)) : Prop :=
  ∀ name value pos quoted, .marker name value pos quoted ∈ tokens → value.IsScalar

end Template

namespace Expansion

open Template

variable {α β : Type}

/-- The step gives `a` and leaves the expansion as it is. -/
def Gives (step : Expanding α) (s : Expansion) (a : α) : Prop := step.run.run s = (.ok a, s)

theorem Gives.pure (s : Expansion) (a : α) : Gives (pure a) s a := rfl

theorem Gives.bind {step : Expanding α} {next : α → Expanding β} {s : Expansion} {a : α} {b : β}
    (first : Gives step s a) (second : Gives (next a) s b) : Gives (step >>= next) s b := by
  unfold Gives at first second ⊢
  rw [ExceptT.run_bind, StateT.run_bind, first]
  exact second

theorem Gives.mapM {step : α → Expanding β} {result : α → β} {s : Expansion} {items : List α}
    (each : ∀ item ∈ items, Gives (step item) s (result item)) :
    Gives (items.mapM step) s (items.map result) := by
  induction items with
  | nil => exact Gives.pure s []
  | cons item items ih =>
    rw [List.mapM_cons]
    refine (each item List.mem_cons_self).bind (Gives.bind (ih fun other member => ?_) (Gives.pure s _))
    exact each other (List.mem_cons_of_mem item member)

theorem gives_tokenTexts {token : Token Value} (scalar : AllScalar [token]) (s : Expansion) :
    Gives (tokenTexts token) s [token.argument s.memory] := by
  cases token with
  | literal text pos quoted => rfl
  | marker name value pos quoted =>
    have shape := value.shape_eq_scalar_iff.mpr (scalar _ _ _ _ (List.mem_singleton_self _))
    simp only [tokenTexts, shape]
    rfl

/-- One text for each token makes one argument. -/
theorem foldl_combine_singletons (beginning : Text) (texts : List Text) :
    (texts.map fun text => [text]).foldl combine [beginning] = [beginning ++ texts.flatten] := by
  induction texts generalizing beginning with
  | nil => simp
  | cons text texts ih =>
    rw [List.map_cons, List.foldl_cons]
    have first : combine [beginning] [text] = [beginning ++ text] := rfl
    rw [first, ih, List.flatten_cons, List.append_assoc]

theorem gives_expandWord {w : Word Value} (scalar : AllScalar w.tokens) (s : Expansion) :
    Gives (expandWord w) s [w.argument s.memory] := by
  have sites : Gives (w.tokens.mapM tokenTexts) s (w.tokens.map fun token => [token.argument s.memory]) := by
    refine Gives.mapM fun token member => gives_tokenTexts ?_ s
    intro name value pos quoted same
    cases List.mem_singleton.mp same
    exact scalar name value pos quoted member
  have combined : (w.tokens.map fun token => [token.argument s.memory]).foldl combine [[]] =
      [w.argument s.memory] := by
    have split : (w.tokens.map fun token => [token.argument s.memory]) =
        (w.tokens.map (Token.argument s.memory)).map fun text => [text] := by
      rw [List.map_map]
      rfl
    rw [split, foldl_combine_singletons, List.nil_append, Word.argument, List.flatMap_def]
  rw [← combined]
  exact sites.bind (Gives.pure s _)

theorem gives_expandWords {words : List (Word Value)} (scalar : ∀ w ∈ words, AllScalar w.tokens)
    (s : Expansion) : Gives (expandWords words) s (words.map (Word.argument s.memory)) := by
  induction words with
  | nil => rfl
  | cons w words ih =>
    have here := gives_expandWord (scalar w List.mem_cons_self) s
    have later := ih fun other member => scalar other (List.mem_cons_of_mem w member)
    refine here.bind ?_
    rw [if_neg (not_not_intro (List.length_singleton))]
    exact later.bind (Gives.pure s _)

end Expansion

namespace Template

/-- Words whose markers all have scalars become one argument each; nothing else happens. -/
theorem expand_scalars {words : List (Word Value)} (scalar : ∀ w ∈ words, AllScalar w.tokens)
    (memory : Memory) :
    expand words memory = ⟨.ok (words.map (Word.argument memory)), memory, []⟩ := by
  have gives : (Expansion.expandWords words).run { memory } =
    (.ok (words.map (Word.argument memory)), { memory }) := Expansion.gives_expandWords scalar { memory }
  unfold expand
  rw [gives]

/-- Where every marker's name is bound to a scalar, every marker has a scalar. -/
theorem allScalar_of_bound {template : Text} {bindings : Bindings Value} {words : List (Word Value)}
    (read : tokenize template bindings = .ok words) {w : Word Value} (member : w ∈ words)
    (bound : ∀ name ∈ w.markers, ∃ value, bindings.get? name = some value ∧ value.IsScalar) :
    AllScalar w.tokens := by
  intro name value pos quoted inWord
  have marks : name ∈ w.markers := List.mem_filterMap.mpr ⟨_, inWord, rfl⟩
  obtain ⟨supplied, found, scalar⟩ := bound name marks
  have same := (value_of_marker_mem read member inWord).symm.trans found
  cases same
  exact scalar

/-- **Values are never read as a part of their template.** Scalars give one argument for each word, the
word's texts and the texts of its values in order, whatever the values contain. Bindings of the same names,
with whatever values, give the same words or the same error. And reading neither changes a value nor looks
at it: a marker holds the value that its name is bound to, and other values would have been read alike. -/
theorem values_are_never_read (template : Text) :
    (∀ (bindings : Bindings Value) (words : List (Word Value)) (memory : Memory),
      tokenize template bindings = .ok words →
      (∀ w ∈ words, ∀ name ∈ w.markers, ∃ value, bindings.get? name = some value ∧ value.IsScalar) →
      expand words memory = ⟨.ok (words.map (Word.argument memory)), memory, []⟩) ∧
    (∀ (α β : Type) (first : Bindings α) (second : Bindings β),
      (∀ name, name ∈ first.names ↔ name ∈ second.names) →
      (tokenize template first).map (List.map Word.outline) =
        (tokenize template second).map (List.map Word.outline)) ∧
    (∀ (α : Type) (bindings : Bindings α) (words : List (Word α)),
      tokenize template bindings = .ok words → ∀ w ∈ words, ∀ name value pos quoted,
      .marker name value pos quoted ∈ w.tokens → bindings.get? name = some value) ∧
    (∀ (α β : Type) (f : α → β) (bindings : Bindings α),
      tokenize template (bindings.map f) = (tokenize template bindings).map (List.map (Word.map f))) := by
  refine ⟨fun bindings words memory read bound => ?_, fun α β first second sameNames => ?_,
    fun α bindings words read w member name value pos quoted inWord => ?_, fun α β f bindings => ?_⟩
  · exact expand_scalars (fun w member => allScalar_of_bound read member (bound w member)) memory
  · exact tokenize_outline template sameNames
  · exact value_of_marker_mem read member inWord
  · exact tokenize_map f template bindings

/-- Bindings whose values are full of syntax. -/
def hostileBindings : Bindings Value := [("p", .str "' $n\" \\"), ("n", .bytes [34, 10])]

/-- The words of `g -e$p "$n \$"` under them. -/
def hostileWords : List (Word Value) :=
  [⟨0, [.literal "g" 0 false]⟩,
    ⟨2, [.literal "-e" 2 false, .marker "p" (.str "' $n\" \\") 4 false]⟩,
    ⟨7, [.marker "n" (.bytes [34, 10]) 8 true, .literal " $" 10 true]⟩]

/-- Quotes, dollar signs, blanks and backslashes of a value stay in its argument. -/
theorem hostile_values_stay_in_their_arguments :
    tokenize "g -e$p \"$n \\$\"" hostileBindings = .ok hostileWords ∧
      expand hostileWords {} = ⟨.ok ["g", "-e' $n\" \\", "\"\n $"], {}, []⟩ := by
  have read : tokenize "g -e$p \"$n \\$\"" hostileBindings = .ok hostileWords := rfl
  have p : ∃ value, hostileBindings.get? "p" = some value ∧ value.IsScalar := ⟨_, rfl, .str _⟩
  have n : ∃ value, hostileBindings.get? "n" = some value ∧ value.IsScalar := ⟨_, rfl, .bytes _⟩
  have bound : ∀ w ∈ hostileWords, ∀ name ∈ w.markers,
      ∃ value, hostileBindings.get? name = some value ∧ value.IsScalar := by
    intro w member name marks
    rcases member with _ | ⟨_, _ | ⟨_, _ | ⟨_, none⟩⟩⟩
    · cases marks
    · cases List.mem_singleton.mp marks
      exact p
    · cases List.mem_singleton.mp marks
      exact n
    · cases none
  have arguments : hostileWords.map (Word.argument {}) =
      [Text.ofString "g", Text.ofString "-e' $n\" \\", Text.ofString "\"\n $"] := by
    decide +kernel
  have expanded := (values_are_never_read "g -e$p \"$n \\$\"").1 hostileBindings hostileWords {} read bound
  rw [arguments] at expanded
  exact ⟨read, expanded⟩

end Template

end Pipework
