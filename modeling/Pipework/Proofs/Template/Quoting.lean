import Pipework.Proofs.Template.Places

/-!
# What is marked as quoted

A marker is quoted when it stands between double quotes. Text is gathered across quotes, so one token can have
text from outside and from inside; whether it is quoted is told by what ends it. Between double quotes a rune is
followed by another sign there, if only by the quote that closes: so the text of a token goes from outside to
inside and never back, and text with a rune from inside is quoted.
-/

namespace Pipework.Template

variable {α : Type}

/-! ## Signs between double quotes -/

/-- Each rune between double quotes is followed by a sign that stands there too. -/
def GoesOnInside : List (Sign α) → Prop
  | [] => True
  | sign :: signs =>
    (sign.isRune = true → sign.inside = true → signs.head?.any Sign.inside = true) ∧ GoesOnInside signs

namespace GoesOnInside

theorem append {one two : List (Sign α)} (first : GoesOnInside one) (second : GoesOnInside two) :
    GoesOnInside (one ++ two) := by
  induction one with
  | nil => exact second
  | cons sign signs ih =>
    obtain ⟨here, later⟩ := first
    refine ⟨fun rune inside => ?_, ih later⟩
    have follows := here rune inside
    cases signs with
    | nil => cases follows
    | cons next signs => exact follows

theorem of_append {one two : List (Sign α)} (goesOn : GoesOnInside (one ++ two)) : GoesOnInside two := by
  induction one with
  | nil => exact goesOn
  | cons sign signs ih => exact ih goesOn.2

/-- Outside double quotes there is nothing to ask. -/
theorem outside {signs : List (Sign α)} (all : ∀ sign ∈ signs, sign.inside = false) : GoesOnInside signs := by
  induction signs with
  | nil => trivial
  | cons sign signs ih =>
    obtain ⟨here, later⟩ := List.forall_mem_cons.mp all
    exact ⟨fun _ inside => absurd (here.symm.trans inside) Bool.false_ne_true, ih later⟩

/-- The quote that closes is the last sign between double quotes. -/
theorem closed {signs : List (Sign α)} (all : ∀ sign ∈ signs, sign.inside = true) (pos : Nat) :
    GoesOnInside (signs ++ [.close pos]) := by
  induction signs with
  | nil => exact ⟨fun rune => absurd rune Bool.false_ne_true, trivial⟩
  | cons sign signs ih =>
    obtain ⟨-, later⟩ := List.forall_mem_cons.mp all
    refine ⟨fun _ _ => ?_, ih later⟩
    cases signs with
    | nil => rfl
    | cons next signs => exact later next List.mem_cons_self

/-- A row goes on inside when each of its parts does. -/
theorem row {β : Type} {render : β → Text} {signs : Nat → β → List (Sign α)}
    (goesOn : ∀ n part, GoesOnInside (signs n part)) (n : Nat) (parts : List β) :
    GoesOnInside (placeAll render signs n parts) := by
  induction parts generalizing n with
  | nil => trivial
  | cons part parts ih => exact (goesOn n part).append (ih _)

/-- In a run of text, what comes from inside comes last, and what follows it then stands inside. -/
theorem run {run : List Placed} {signs : List (Sign α)} (goesOn : GoesOnInside (run.map .rune ++ signs)) :
    (run.Pairwise fun a b => a.inside = true → b.inside = true) ∧
      ∀ r ∈ run, r.inside = true → signs.head?.any Sign.inside = true := by
  induction run with
  | nil => exact ⟨.nil, fun _ member => absurd member List.not_mem_nil⟩
  | cons r run ih =>
    obtain ⟨here, later⟩ := goesOn
    obtain ⟨apart, follows⟩ := ih later
    cases run with
    | nil => exact ⟨List.pairwise_singleton _ _, List.forall_mem_singleton.mpr (here rfl)⟩
    | cons next run =>
      have nextInside : r.inside = true → next.inside = true := here rfl
      refine ⟨List.pairwise_cons.mpr ⟨?_, apart⟩, List.forall_mem_cons.mpr ⟨fun inside => ?_, follows⟩⟩
      · refine List.forall_mem_cons.mpr ⟨nextInside, fun b member inside => ?_⟩
        exact (List.pairwise_cons.mp apart).1 b member (nextInside inside)
      · exact follows next List.mem_cons_self (nextInside inside)

end GoesOnInside

theorem Inner.inside_signs (n : Nat) (part : Inner α) : ∀ sign ∈ part.signs n, sign.inside = true := by
  cases part <;> simp [signs, Sign.inside]

theorem Piece.goesOnInside (n : Nat) (part : Piece α) : GoesOnInside (part.signs n) := by
  cases part with
  | plain | escaped | joined | marker => exact .outside (by simp [signs, Sign.inside])
  | single t =>
    have outside (n : Nat) (r : Rune) : ∀ sign ∈ [Sign.rune (α := α) ⟨r, n, false⟩], sign.inside = false :=
      List.forall_mem_singleton.mpr rfl
    exact .outside (forall_placeAll (fun n r _ => outside n r) (n + 1))
  | double parts => exact .closed (forall_placeAll (fun n part _ => part.inside_signs n) (n + 1)) _

theorem Field.goesOnInside (field : Field α) : GoesOnInside field.signs :=
  .row Piece.goesOnInside field.pos field.parts

/-! ## Tokens -/

/-- Whether all that a token comes from lies between double quotes. -/
def Source.between : Source α → Bool
  | text first more _ => (first :: more).all Placed.inside
  | marker _ _ inside => inside

/-- What the flag of a token says. A marker is quoted exactly when it stands between double quotes. Text is quoted
exactly when the sign that ends it stands there: a marker, or the quote that closes. Only the end of a text can come
from inside, and none of it does when the text is not quoted. -/
inductive Source.Quotes : Source α → Token α → Prop
  | marker {m : Marker α} {pos : Nat} {inside : Bool} :
    Quotes (.marker m pos inside) (.marker m.name m.value pos inside)
  | text {first : Placed} {more : List Placed} {next : Option (Sign α)} {quoted : Bool}
    (ended : quoted = true ↔ ∃ sign ∈ next, sign.inside = true)
    (inwards : (first :: more).Pairwise fun a b => a.inside = true → b.inside = true)
    (bare : quoted = false → ∀ r ∈ first :: more, r.inside = false) :
    Quotes (.text first more next) (.literal ((first :: more).map Placed.rune) first.pos quoted)

/-- What lies between double quotes is quoted. -/
theorem Source.Quotes.of_between {source : Source α} {token : Token α} (quotes : source.Quotes token)
    (between : source.between = true) : token.quoted = true := by
  cases quotes with
  | marker => exact between
  | @text first more next quoted _ _ bare =>
    by_contra unquoted
    have outside := bare (Bool.eq_false_iff.mpr unquoted) first List.mem_cons_self
    have inside := List.all_eq_true.mp between first List.mem_cons_self
    rw [outside] at inside
    cases inside

theorem Cuts.quotes {signs : List (Sign α)} {sources : List (Source α)} (cuts : Cuts signs sources)
    (goesOn : GoesOnInside signs) : List.Forall₂ Source.Quotes sources (sources.map Source.token) := by
  induction cuts with
  | nil => exact .nil
  | close _ ih => exact ih goesOn.2
  | marker _ ih => exact .cons .marker (ih goesOn.2)
  | @text first more signs sources ends _ ih =>
    obtain ⟨inwards, follows⟩ := goesOn.run
    refine .cons (.text (Option.any_eq_true _ _) inwards fun bare r member => ?_) (ih goesOn.of_append)
    rw [← Bool.not_eq_true]
    intro inside
    rw [follows r member inside] at bare
    cases bare

/-- **What is marked as quoted.** Each word of a template comes from a field of its derivation and each token from a
marker or a run of text in there, and its flag is as `Source.Quotes` has it: exact for markers; for text, whether a
sign between double quotes ends it. So what lies between double quotes is quoted, and what is not quoted lies outside.
A word that comes from no sign has quotes around nothing, and is quoted. -/
theorem quoted_by_what_ends {template : Text} {bindings : Bindings α} {words : List (Word α)}
    (read : tokenize template bindings = .ok words) :
    (∃ l : Layout α, l.Allowed bindings.get? ∧ l.render = template) ∧
      ∀ l : Layout α, l.Allowed bindings.get? → l.render = template →
        List.Forall₂ (fun field w => ∃ sources, Cuts field.signs sources ∧
          (sources = [] ∧ w.tokens = [.literal [] w.pos true] ∨
            sources ≠ [] ∧ List.Forall₂ Source.Quotes sources w.tokens ∧
              List.Forall₂ (fun source token => source.between = true → token.quoted = true) sources w.tokens))
          l.shown words := by
  obtain ⟨exists_, derived⟩ := gives_of_tokenize read
  refine ⟨exists_, fun l allowed same => (derived l allowed same).imp fun field w gives => ?_⟩
  obtain ⟨sources, cuts, rfl⟩ := gives
  refine ⟨sources, cuts, ?_⟩
  cases sources with
  | nil => exact .inl ⟨rfl, rfl⟩
  | cons source sources =>
    have quotes := cuts.quotes field.goesOnInside
    exact .inr ⟨List.cons_ne_nil _ _, quotes, quotes.imp fun _ _ => Source.Quotes.of_between⟩

/-- Text that goes on between double quotes and is ended there by a marker, and text behind the quotes. -/
def mixedField : List (Piece Unit) :=
  [.plain (.char 'a'), .double [.plain (.char 'b'), .marker ⟨false, "x", ()⟩], .single "c"]

theorem quoted_by_what_ends_of_mixed :
    tokenize "a\"b$x\"'c'" [("x", ())] =
        .ok [⟨0, [.literal "ab" 0 true, .marker "x" () 3 true, .literal "c" 7 false]⟩] ∧
      ∃ sources, Cuts (⟨0, mixedField⟩ : Field Unit).signs sources ∧ List.Forall₂ Source.Quotes sources
        [.literal "ab" 0 true, .marker "x" () 3 true, .literal "c" 7 false] := by
  have read : tokenize "a\"b$x\"'c'" [("x", ())] =
      .ok [⟨0, [.literal "ab" 0 true, .marker "x" () 3 true, .literal "c" 7 false]⟩] := rfl
  have marker (rest : Text) (ends : ∀ r ∈ rest.head?, Text.continuesName r = false) :
      (⟨false, "x", ()⟩ : Marker Unit).Allowed (Bindings.get? [("x", ())]) rest :=
    ⟨rfl, fun braced => absurd braced Bool.false_ne_true, fun _ => ⟨.intro (.char 'x') [] (by decide) (by simp), ends⟩⟩
  have allowed : (Layout.last mixedField).Allowed (Bindings.get? [("x", ())]) :=
    ⟨⟨by decide, by decide, by decide, by decide, by decide⟩,
      ⟨⟨by decide, by decide, by decide⟩, marker _ (by decide), trivial⟩,
      by unfold Piece.Allowed; decide, trivial⟩
  refine ⟨read, ?_⟩
  cases (quoted_by_what_ends read).2 (.last mixedField) allowed rfl with
  | cons gives _ =>
    obtain ⟨sources, cuts, ⟨-, placeholder⟩ | ⟨-, quotes, -⟩⟩ := gives
    · cases placeholder
    · exact ⟨sources, cuts, quotes⟩

/-- Text right before double quotes that open and close at once is quoted, and all of it lies outside. -/
theorem text_outside_is_quoted :
    ∃ (l : Layout Unit) (source : Source Unit),
      l.Allowed (Bindings.get? []) ∧ l.render = "a\"\"" ∧
      l.shown.map Field.signs = [[.rune ⟨.char 'a', 0, false⟩, .close 2]] ∧
      Cuts [.rune ⟨.char 'a', 0, false⟩, .close 2] [source] ∧ source.between = false ∧
      tokenize (α := Unit) "a\"\"" [] = .ok [⟨0, [source.token]⟩] ∧ source.token.quoted = true := by
  refine ⟨.last [.plain (.char 'a'), .double []], .text ⟨.char 'a', 0, false⟩ [] (some (.close 2)),
    ⟨?_, trivial, trivial⟩, rfl, rfl, ?_, rfl, rfl, rfl⟩
  · exact ⟨by decide, by decide, by decide, by decide, by decide⟩
  · exact @Cuts.text Unit ⟨.char 'a', 0, false⟩ [] [.close 2] [] (fun _ same => Option.some.inj same ▸ rfl) (.close .nil)

end Pipework.Template
