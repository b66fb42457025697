import Pipework.Proofs.Template.Grammar

/-!
# The signs of a template

A derivation says what each part of a template reads as. Counting the runes before a part, it also says
where that stands: a field is a row of signs, each of them a rune of its text, a marker or a closing
double quote, at a place in the template and between double quotes or not. The tokens of a word are
cut from the signs of its field (`Cuts`): each marker is one, and each run of text up to the next sign
that is no rune.
-/

namespace Pipework.Template

variable {α : Type}

/-- A rune of a field's text, where it stands in the template, and whether between double quotes. -/
structure Placed where
  rune : Rune
  pos : Nat
  inside : Bool
deriving DecidableEq, Repr

/-- What the reader takes from a field, in the order of the template. -/
inductive Sign (α : Type) where
  | rune (r : Placed)
  | marker (m : Marker α) (pos : Nat) (inside : Bool)
  /-- A double quote that closes. -/
  | close (pos : Nat)
deriving Repr

namespace Sign

def pos : Sign α → Nat
  | rune r => r.pos
  | marker _ pos _ => pos
  | close pos => pos

def isRune : Sign α → Bool
  | rune _ => true
  | marker .. | close _ => false

/-- Whether the sign stands between double quotes. Those that it closes are still open before it. -/
def inside : Sign α → Bool
  | rune r => r.inside
  | marker _ _ inside => inside
  | close _ => true

/-- What the sign says. -/
def atoms : Sign α → List (Atom α)
  | rune r => [.rune r.rune]
  | marker m _ inside => [.marker m.name m.value inside]
  | close _ => []

/-- Whether there is something to read. -/
def shows : Sign α → Bool
  | rune _ | marker .. => true
  | close _ => false

end Sign

/-! ## From a derivation -/

/-- The signs of a row of parts, the first of which starts at a place. -/
def placeAll {β : Type} (render : β → Text) (signs : Nat → β → List (Sign α)) :
    Nat → List β → List (Sign α)
  | _, [] => []
  | n, part :: parts => signs n part ++ placeAll render signs (n + (render part).length) parts

/-- All signs of a row are as those of its parts. -/
theorem forall_placeAll {β : Type} {render : β → Text} {signs : Nat → β → List (Sign α)} {parts : List β}
    {Holds : Sign α → Prop} (holds : ∀ n, ∀ part ∈ parts, ∀ sign ∈ signs n part, Holds sign) (n : Nat) :
    ∀ sign ∈ placeAll render signs n parts, Holds sign := by
  induction parts generalizing n with
  | nil => exact fun _ member => absurd member List.not_mem_nil
  | cons part parts ih =>
    have later := ih fun n part member => holds n part (List.mem_cons_of_mem _ member)
    exact List.forall_mem_append.mpr ⟨holds n part List.mem_cons_self, later _⟩

/-- The signs of a part between double quotes that starts at a place. -/
def Inner.signs (n : Nat) : Inner α → List (Sign α)
  | plain r => [.rune ⟨r, n, true⟩]
  | escaped r => [.rune ⟨r, n + 1, true⟩]
  | joined => []
  | kept r => [.rune ⟨.char '\\', n, true⟩, .rune ⟨r, n + 1, true⟩]
  | marker m => [.marker m n true]

/-- The signs of a part of a field that starts at a place. -/
def Piece.signs (n : Nat) : Piece α → List (Sign α)
  | plain r => [.rune ⟨r, n, false⟩]
  | escaped r => [.rune ⟨r, n + 1, false⟩]
  | joined => []
  | single t => placeAll (fun r => [r]) (fun n r => [.rune ⟨r, n, false⟩]) (n + 1) t
  | double parts =>
    placeAll Inner.render Inner.signs (n + 1) parts ++
      [.close (n + 1 + (renderAll Inner.render parts).length)]
  | marker m => [.marker m n false]

/-- Whether the part opens quotes. -/
def Piece.quotes : Piece α → Bool
  | single _ | double _ => true
  | plain _ | escaped _ | joined | marker _ => false

/-- A part makes its field a word by opening quotes or by something to read in it. -/
theorem Piece.shows_eq (part : Piece α) (n : Nat) :
    part.shows = (part.quotes || (part.signs n).any Sign.shows) := by
  cases part <;> rfl

/-- What a row of parts tells is said by its signs, wherever it starts. -/
theorem flatMap_placeAll {β γ : Type} {render : β → Text} {signs : Nat → β → List (Sign α)}
    {tells : Sign α → List γ} {tells' : β → List γ}
    (same : ∀ n part, (signs n part).flatMap tells = tells' part) (n : Nat) (parts : List β) :
    (placeAll render signs n parts).flatMap tells = parts.flatMap tells' := by
  induction parts generalizing n with
  | nil => rfl
  | cons part parts ih => rw [placeAll, List.flatMap_append, same, ih, List.flatMap_cons]

theorem Inner.atoms_signs (n : Nat) (part : Inner α) : (part.signs n).flatMap Sign.atoms = part.atoms := by
  cases part <;> rfl

theorem Piece.atoms_signs (n : Nat) (part : Piece α) : (part.signs n).flatMap Sign.atoms = part.atoms := by
  cases part with
  | plain | escaped | joined | marker => rfl
  | single t =>
    have one (n : Nat) (r : Rune) : [Sign.rune (α := α) ⟨r, n, false⟩].flatMap Sign.atoms = (fun r => [.rune r]) r := rfl
    rw [signs, flatMap_placeAll one, atoms]
    exact List.map_eq_flatMap.symm
  | double parts =>
    rw [signs, List.flatMap_append, flatMap_placeAll Inner.atoms_signs, atoms]
    exact List.append_nil _

/-- A field and where it starts. -/
structure Field (α : Type) where
  pos : Nat
  parts : List (Piece α)
deriving Repr

def Field.signs (field : Field α) : List (Sign α) := placeAll Piece.render Piece.signs field.pos field.parts

/-- The fields of a template that starts at a place. -/
def Layout.fields (n : Nat) : Layout α → List (Field α)
  | last field => [⟨n, field⟩]
  | more field _ rest => ⟨n, field⟩ :: rest.fields (n + (renderAll Piece.render field).length + 1)

/-- Whether the field is a word. -/
def Field.shows (field : Field α) : Bool := field.parts.any Piece.shows

theorem Field.shows_eq (field : Field α) :
    field.shows = (field.parts.any Piece.quotes || field.signs.any Sign.shows) := by
  obtain ⟨n, parts⟩ := field
  unfold shows signs
  dsimp only
  induction parts generalizing n with
  | nil => rfl
  | cons part parts ih =>
    rw [List.any_cons, List.any_cons, ih (n + part.render.length), placeAll, List.any_append,
      part.shows_eq n, Bool.or_assoc, Bool.or_assoc]
    exact congrArg (part.quotes || ·) (Bool.or_left_comm _ _ _)

theorem Field.atoms_signs (field : Field α) :
    field.signs.flatMap Sign.atoms = field.parts.flatMap Piece.atoms :=
  flatMap_placeAll Piece.atoms_signs field.pos field.parts

/-- The fields of a template that are words. -/
def Layout.shown (l : Layout α) : List (Field α) := (l.fields 0).filter Field.shows

/-! ## Cutting signs into tokens -/

/-- What a token comes from. -/
inductive Source (α : Type) where
  /-- Text without a break, and the sign that follows it in its field. -/
  | text (first : Placed) (more : List Placed) (next : Option (Sign α))
  | marker (m : Marker α) (pos : Nat) (inside : Bool)
deriving Repr

namespace Source

/-- The token that is made of it. Text is quoted when what ends it stands between double quotes. -/
def token : Source α → Token α
  | text first more next =>
    .literal ((first :: more).map Placed.rune) first.pos (next.any Sign.inside)
  | marker m pos inside => .marker m.name m.value pos inside

end Source

/-- The signs of a field fall into sources: markers, and runs of text as long as they can be. -/
inductive Cuts : List (Sign α) → List (Source α) → Prop
  | nil : Cuts [] []
  | close {pos : Nat} {signs : List (Sign α)} {sources : List (Source α)} (rest : Cuts signs sources) :
    Cuts (.close pos :: signs) sources
  | marker {m : Marker α} {pos : Nat} {inside : Bool} {signs : List (Sign α)} {sources : List (Source α)}
    (rest : Cuts signs sources) : Cuts (.marker m pos inside :: signs) (.marker m pos inside :: sources)
  | text {first : Placed} {more : List Placed} {signs : List (Sign α)} {sources : List (Source α)}
    (ends : ∀ sign ∈ signs.head?, sign.isRune = false) (rest : Cuts signs sources) :
    Cuts ((first :: more).map .rune ++ signs) (.text first more signs.head? :: sources)

/-- Something was read when there is a source. -/
theorem Cuts.any_shows {signs : List (Sign α)} {sources : List (Source α)} (cuts : Cuts signs sources) :
    signs.any Sign.shows = !sources.isEmpty := by
  induction cuts with
  | nil => rfl
  | close _ ih => exact ih
  | marker _ _ => rfl
  | text _ _ _ => simp [Sign.shows]

/-- The word that a field is read as. One without a source has quotes around nothing, and is empty text. -/
def Field.word (field : Field α) (sources : List (Source α)) : Word α :=
  ⟨field.pos, if sources.isEmpty then [.literal [] field.pos true] else sources.map Source.token⟩

/-- The word is what the field is read as, however its signs are cut. -/
def Field.Gives (field : Field α) (w : Word α) : Prop :=
  ∃ sources, Cuts field.signs sources ∧ w = field.word sources

/-! ## Taking signs -/

namespace Draft

/-- What a sign does to the draft. -/
def take (d : Draft α) : Sign α → Draft α
  | .rune r => d.push r.pos r.rune
  | .marker m pos inside => (d.flush inside).mark m.name m.value pos inside
  | .close _ => d.flush true

/-- The draft after some signs, with quotes opened or not. -/
def takeAll (d : Draft α) (signs : List (Sign α)) (quotes : Bool) : Draft α :=
  { signs.foldl take d with hasQuotes := d.hasQuotes || quotes }

theorem hasQuotes_take (d : Draft α) (sign : Sign α) : (d.take sign).hasQuotes = d.hasQuotes := by
  rcases d with ⟨_, _, _ | ⟨start, text⟩, _⟩ <;> cases sign <;> rfl

theorem pos_take (d : Draft α) (sign : Sign α) : (d.take sign).pos = d.pos := by
  rcases d with ⟨_, _, _ | ⟨start, text⟩, _⟩ <;> cases sign <;> rfl

/-- Signs leave alone whether quotes were opened. -/
theorem take_quoting (d : Draft α) (quotes : Bool) (sign : Sign α) :
    ({ d with hasQuotes := quotes } : Draft α).take sign = { d.take sign with hasQuotes := quotes } := by
  rcases d with ⟨_, _, _ | ⟨start, text⟩, _⟩ <;> cases sign <;> rfl

theorem foldl_take_quoting (signs : List (Sign α)) (d : Draft α) (quotes : Bool) :
    signs.foldl take { d with hasQuotes := quotes } = { signs.foldl take d with hasQuotes := quotes } := by
  induction signs generalizing d with
  | nil => rfl
  | cons sign signs ih => rw [List.foldl_cons, take_quoting, ih, List.foldl_cons]

theorem hasQuotes_foldl_take (signs : List (Sign α)) (d : Draft α) :
    (signs.foldl take d).hasQuotes = d.hasQuotes := by
  induction signs generalizing d with
  | nil => rfl
  | cons sign signs ih => rw [List.foldl_cons, ih, hasQuotes_take]

theorem takeAll_unquoted (d : Draft α) (signs : List (Sign α)) :
    d.takeAll signs false = signs.foldl take d := by
  simp only [takeAll, Bool.or_false, ← hasQuotes_foldl_take signs d]

theorem takeAll_append (d : Draft α) (one two : List (Sign α)) (quotes₁ quotes₂ : Bool) :
    (d.takeAll one quotes₁).takeAll two quotes₂ = d.takeAll (one ++ two) (quotes₁ || quotes₂) := by
  simp only [takeAll, foldl_take_quoting, List.foldl_append, Bool.or_assoc]

@[simp] theorem pos_takeAll (d : Draft α) (signs : List (Sign α)) (quotes : Bool) :
    (d.takeAll signs quotes).pos = d.pos := by
  simp only [takeAll]
  induction signs generalizing d with
  | nil => rfl
  | cons sign signs ih => rw [List.foldl_cons, ih, pos_take]

@[simp] theorem pos_flush (d : Draft α) (quoted : Bool) : (d.flush quoted).pos = d.pos := by
  rcases d with ⟨_, _, _ | ⟨start, text⟩, _⟩ <;> rfl

@[simp] theorem hasQuotes_flush (d : Draft α) (quoted : Bool) : (d.flush quoted).hasQuotes = d.hasQuotes := by
  rcases d with ⟨_, _, _ | ⟨start, text⟩, _⟩ <;> rfl

/-- Ending a word makes its pending text a token, and looks for quotes only when there is none. -/
theorem finish?_eq (d : Draft α) :
    d.finish? = if d.hasQuotes || !(d.flush false).tokens.isEmpty then
      some ⟨d.pos, if (d.flush false).tokens.isEmpty then [.literal [] d.pos true]
        else (d.flush false).tokens⟩ else none := by
  unfold finish?
  simp only [pos_flush, hasQuotes_flush]
  cases (d.flush false).tokens <;> cases d.hasQuotes <;> rfl

theorem tokens_flush_quoting (d : Draft α) (quotes quoted : Bool) :
    (({ d with hasQuotes := quotes } : Draft α).flush quoted).tokens = (d.flush quoted).tokens := by
  rcases d with ⟨_, _, _ | ⟨start, text⟩, _⟩ <;> rfl

/-- The text that is pending after a run of runes. -/
private def pendingOf (run : List Placed) : Option (Nat × Text) :=
  run.head?.map fun first => (first.pos, run.map Placed.rune)

private theorem pending_push {d : Draft α} {run : List Placed} (pending : d.pending = pendingOf run)
    (r : Placed) : (d.push r.pos r.rune).pending = pendingOf (run ++ [r]) ∧
      (d.push r.pos r.rune).tokens = d.tokens := by
  cases run with
  | nil => simp [push, pending, pendingOf]
  | cons first more => simp [push, pending, pendingOf]

private theorem pending_flush (d : Draft α) (quoted : Bool) : (d.flush quoted).pending = none := by
  rcases d with ⟨_, _, _ | ⟨start, text⟩, _⟩ <;> rfl

/-- Pending text becomes one token before what is no rune, or none if nothing is pending. -/
private theorem flush_pending {d : Draft α} {run : List Placed} (pending : d.pending = pendingOf run)
    (signs : List (Sign α)) (ends : ∀ sign ∈ signs.head?, sign.isRune = false)
    {sources : List (Source α)} (cuts : Cuts signs sources) :
    ∃ own, (d.flush (signs.head?.any Sign.inside)).tokens = d.tokens ++ own.map Source.token ∧
      Cuts (run.map .rune ++ signs) (own ++ sources) := by
  cases run with
  | nil =>
    have none : d.pending = none := pending
    exact ⟨[], by simp [flush, none], cuts⟩
  | cons first more =>
    have some : d.pending = some (first.pos, (first :: more).map Placed.rune) := pending
    refine ⟨[.text first more signs.head?], ?_, .text ends cuts⟩
    simp [flush, some, Source.token]

/-- Taking signs and then ending the text makes the tokens that the signs are cut into. -/
theorem cuts_foldl_take (signs : List (Sign α)) {d : Draft α} {run : List Placed}
    (pending : d.pending = pendingOf run) :
    ∃ sources, ((signs.foldl take d).flush false).tokens = d.tokens ++ sources.map Source.token ∧
      Cuts (run.map .rune ++ signs) sources := by
  induction signs generalizing d run with
  | nil =>
    obtain ⟨own, tokens, cuts⟩ := flush_pending pending [] (fun _ none => nomatch none) .nil
    exact ⟨own, tokens, by simpa using cuts⟩
  | cons sign signs ih =>
    cases sign with
    | rune r =>
      obtain ⟨longer, same⟩ := pending_push pending r
      obtain ⟨sources, tokens, cuts⟩ := ih longer
      refine ⟨sources, ?_, by simpa using cuts⟩
      rw [List.foldl_cons, take, tokens, same]
    | marker m pos inside =>
      have nothing : ((d.flush inside).mark m.name m.value pos inside).pending = pendingOf [] :=
        pending_flush d inside
      obtain ⟨sources, tokens, cuts⟩ := ih nothing
      obtain ⟨own, flushed, all⟩ := flush_pending pending (.marker m pos inside :: signs)
        (fun _ first => by cases first; rfl) (.marker cuts)
      have before : (d.flush inside).tokens = d.tokens ++ own.map Source.token := flushed
      refine ⟨own ++ .marker m pos inside :: sources, ?_, all⟩
      rw [List.foldl_cons, take, tokens, mark, before]
      simp [Source.token]
    | close pos =>
      have nothing : (d.flush true).pending = pendingOf [] := pending_flush d true
      obtain ⟨sources, tokens, cuts⟩ := ih nothing
      obtain ⟨own, flushed, all⟩ := flush_pending pending (.close pos :: signs)
        (fun _ first => by cases first; rfl) (.close cuts)
      have before : (d.flush true).tokens = d.tokens ++ own.map Source.token := flushed
      refine ⟨own ++ sources, ?_, all⟩
      rw [List.foldl_cons, take, tokens, before, List.map_append, List.append_assoc]

/-- A draft that took the signs of a field, and nothing before them, is finished as the word of the field
if the field is one. -/
theorem finish?_takeAll (field : Field α) :
    ∃ sources, Cuts field.signs sources ∧
      ((⟨field.pos, [], none, false⟩ : Draft α).takeAll field.signs
        (field.parts.any Piece.quotes)).finish? =
          if field.shows then some (field.word sources) else none := by
  let start : Draft α := ⟨field.pos, [], none, false⟩
  have nothing : start.pending = pendingOf [] := rfl
  obtain ⟨sources, tokens, cuts⟩ := cuts_foldl_take field.signs nothing
  refine ⟨sources, cuts, ?_⟩
  have ended (quotes : Bool) :
      ((start.takeAll field.signs quotes).flush false).tokens = sources.map Source.token := by
    rw [takeAll, tokens_flush_quoting, tokens, List.nil_append]
  have opened (quotes : Bool) : (start.takeAll field.signs quotes).hasQuotes = quotes := rfl
  have some : field.signs.any Sign.shows = !sources.isEmpty := cuts.any_shows
  rw [finish?_eq, ended, pos_takeAll, opened, List.isEmpty_map, field.shows_eq, some]
  rfl

end Draft

end Pipework.Template
