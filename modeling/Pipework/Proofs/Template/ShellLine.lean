import Pipework.Command.Make
import Pipework.Proofs.System.Execution
import Pipework.Proofs.Template.Verbatim
import Pipework.Template.Shown

/-!
# Shell lines read back

Writing arguments as a shell line and reading the line as a template are inverse. The line is a
template by itself: `shellLayout` derives it from the grammar, one field for each argument, and none
of its dollar signs is live. So the line is read as one word for each argument, without markers, and
the command that is read from the line of a command has the same arguments (`read_line`).
-/

namespace Pipework

namespace Template

variable {α : Type}

/-! ## The derivation of a shell word -/

/-- A plain character has no meaning outside quotes. -/
theorem allowed_of_isPlain {lookup : Text → Option α} {c : Char} (plain : Text.isPlain c = true)
    (rest : Text) : (Piece.plain (.char c) : Piece α).Allowed lookup rest := by
  have other (d : Char) (meaning : Text.isPlain d = false) : Rune.char c ≠ .char d := by
    rintro same
    cases same
    rw [meaning] at plain
    cases plain
  refine ⟨?_, other _ (by decide), other _ (by decide), other _ (by decide), other _ (by decide)⟩
  simp only [isSeparator, other ' ' (by decide), other '\t' (by decide), other '\n' (by decide),
    decide_false, Bool.or_false]

/-- The parts of a quoted word: text between apostrophes, and each apostrophe of the text between
double quotes. `run` is the text since the last one. -/
def quotedPieces (run : Text) : Text → List (Piece α)
  | [] => [.single run]
  | r :: t =>
    if r = .char '\'' then .single run :: .double [.plain r] :: quotedPieces [] t
    else quotedPieces (run ++ [r]) t

/-- The field that a shell word is. -/
def shellField (t : Text) : List (Piece α) :=
  if !t.isEmpty && t.all fun r => r.toChar?.any Text.isPlain then t.map .plain else quotedPieces [] t

theorem render_quotedPieces (run t : Text) :
    renderAll Piece.render (quotedPieces run t : List (Piece α)) =
      .char '\'' :: (run ++ t.flatMap Text.shellEscape ++ [.char '\'']) := by
  induction t generalizing run with
  | nil => simp [quotedPieces, renderAll, Piece.render]
  | cons r t ih =>
    rw [quotedPieces]
    split
    next apostrophe =>
      have later := ih []
      simp only [renderAll] at later
      subst apostrophe
      simp [renderAll, Piece.render, Inner.render, Text.shellEscape, later]
    next other =>
      have itself : Text.shellEscape r = [r] := by
        unfold Text.shellEscape
        split
        · exact absurd rfl other
        · rfl
      rw [ih, List.flatMap_cons, itself]
      simp

theorem render_shellField (t : Text) :
    renderAll Piece.render (shellField t : List (Piece α)) = Text.shellWord t := by
  unfold shellField Text.shellWord
  cases t with
  | nil => rfl
  | cons r t =>
    simp only [List.isEmpty_cons, Bool.not_false, Bool.true_and, Bool.false_eq_true, if_false]
    split
    · simp [renderAll, List.flatMap_map, Piece.render]
    · rw [render_quotedPieces]
      rfl

theorem allowed_quotedPieces (lookup : Text → Option α) {run : Text} (inside : .char '\'' ∉ run)
    (t rest : Text) :
    AllAllowed Piece.render (Piece.Allowed lookup) (quotedPieces run t) rest := by
  induction t generalizing run with
  | nil => exact ⟨inside, trivial⟩
  | cons r t ih =>
    rw [quotedPieces]
    split
    next apostrophe =>
      subst apostrophe
      exact ⟨inside, ⟨⟨by decide, by decide, by decide⟩, trivial⟩, ih List.not_mem_nil⟩
    next other =>
      refine ih fun member => ?_
      rcases List.mem_append.mp member with before | here
      · exact inside before
      · exact other (List.mem_singleton.mp here).symm

theorem allowed_shellField (lookup : Text → Option α) (t rest : Text) :
    AllAllowed Piece.render (Piece.Allowed lookup) (shellField t) rest := by
  unfold shellField
  split
  next isPlain =>
    have plain := (Bool.and_eq_true_iff.mp isPlain).2
    clear isPlain
    induction t with
    | nil => trivial
    | cons r t ih =>
      obtain ⟨first, others⟩ := Bool.and_eq_true_iff.mp (List.all_cons ▸ plain)
      refine ⟨?_, ih others⟩
      cases r with
      | char c => exact allowed_of_isPlain first _
      | stray b => cases first
      | half unit => cases first
  next => exact allowed_quotedPieces lookup List.not_mem_nil t rest

theorem fieldWord?_quotedPieces (run t : Text) :
    fieldWord? (quotedPieces run t : List (Piece α)) = some ((run ++ t).map .rune) := by
  have read : (quotedPieces run t : List (Piece α)).any Piece.shows = true ∧
      (quotedPieces run t : List (Piece α)).flatMap Piece.atoms = (run ++ t).map .rune := by
    induction t generalizing run with
    | nil => simp [quotedPieces, Piece.shows, Piece.atoms]
    | cons r t ih =>
      rw [quotedPieces]
      split
      next =>
        refine ⟨rfl, ?_⟩
        rw [List.flatMap_cons, List.flatMap_cons, (ih []).2]
        simp [Piece.atoms, Inner.atoms]
      next =>
        rw [(ih _).1, (ih _).2]
        simp
  rw [fieldWord?, if_pos read.1, read.2]

/-- A shell word says its argument, also where the argument is empty. -/
theorem fieldWord?_shellField (t : Text) :
    fieldWord? (shellField t : List (Piece α)) = some (t.map .rune) := by
  unfold shellField
  split
  next isPlain =>
    cases t with
    | nil => cases isPlain
    | cons r t =>
      have atoms : ((r :: t).map Piece.plain).flatMap (Piece.atoms (α := α)) = (r :: t).map .rune := by
        rw [List.flatMap_map]
        exact List.map_eq_flatMap.symm
      rw [fieldWord?, atoms]
      rfl
  next => exact fieldWord?_quotedPieces [] t

/-! ## The derivation of a line -/

/-- The derivation of a shell line: a field for each argument, a blank between two. -/
def shellLayout : List Text → Layout α
  | [] => .last []
  | [t] => .last (shellField t)
  | t :: rest => .more (shellField t) (.char ' ') (shellLayout rest)

theorem render_shellLayout (args : List Text) :
    (shellLayout args : Layout α).render = Text.shellLine args := by
  unfold Text.shellLine
  induction args with
  | nil => rfl
  | cons t rest ih =>
    cases rest with
    | nil => exact render_shellField t
    | cons next later =>
      rw [List.map_cons, List.map_cons, Text.join, ← List.map_cons, ← ih, shellLayout,
        Layout.render, render_shellField]
      · simp
      · simp
      · simp

theorem allowed_shellLayout (lookup : Text → Option α) (args : List Text) :
    (shellLayout args).Allowed lookup := by
  induction args with
  | nil => trivial
  | cons t rest ih =>
    cases rest with
    | nil => exact allowed_shellField lookup t []
    | cons next later => exact ⟨allowed_shellField lookup t _, by decide, ih⟩

theorem words_shellLayout (args : List Text) :
    (shellLayout args : Layout α).words = args.map (List.map Atom.rune) := by
  induction args with
  | nil => rfl
  | cons t rest ih =>
    cases rest with
    | nil => rw [shellLayout, Layout.words, fieldWord?_shellField]; rfl
    | cons next later =>
      rw [shellLayout, Layout.words, fieldWord?_shellField, ih]
      · rfl
      · simp

/-- A shell line is read as one word for each argument, whatever names are bound. -/
theorem tokenize_shellLine (args : List Text) (bindings : Bindings α) :
    ∃ words, tokenize (Text.shellLine args) bindings = .ok words ∧
      words.map Word.atoms = args.map (List.map Atom.rune) := by
  obtain ⟨words, read, spelled⟩ : ∃ words, words? bindings.get? (Text.shellLine args) = .ok words ∧
      words.map Word.atoms = args.map (List.map Atom.rune) := (words?_iff _ _).mpr
    ⟨shellLayout args, allowed_shellLayout _ args, render_shellLayout args, words_shellLayout args⟩
  exact ⟨words, by simp only [tokenize, read], spelled⟩

/-! ## Words without markers -/

/-- A word that says a text has no marker, and any way to put its tokens' texts together gives the
text. -/
theorem Word.text_of_atoms {word : Word α} {t : Text} (spelled : word.atoms = t.map Atom.rune)
    (textOf : Token α → Text) (literal : ∀ text pos quoted, textOf (.literal text pos quoted) = text) :
    (∀ token ∈ word.tokens, token.name? = none) ∧ word.tokens.flatMap textOf = t := by
  have noMarker : ∀ token ∈ word.tokens, token.name? = none := by
    intro token member
    cases token with
    | literal text pos quoted => rfl
    | marker name value pos quoted =>
      have inWord : .marker name value quoted ∈ word.atoms :=
        List.mem_flatMap.mpr ⟨_, member, List.mem_singleton_self _⟩
      rw [spelled] at inWord
      obtain ⟨r, _, same⟩ := List.mem_map.mp inWord
      cases same
  have each : ∀ token ∈ word.tokens, token.atoms = (textOf token).map Atom.rune := by
    intro token member
    have none := noMarker token member
    cases token with
    | literal text pos quoted => rw [literal]; rfl
    | marker name value pos quoted => cases none
  have whole : (word.tokens.flatMap textOf).map Atom.rune = t.map (Atom.rune (α := α)) := by
    rw [← spelled, Word.atoms, List.map_flatMap, List.flatMap_def, List.flatMap_def,
      List.map_congr_left each]
  exact ⟨noMarker, (List.map_inj_right fun _ _ same => Atom.rune.inj same).mp whole⟩

/-- The same for some words. -/
theorem texts_of_atoms {words : List (Word α)} {args : List Text}
    (spelled : words.map Word.atoms = args.map (List.map Atom.rune)) (textOf : Token α → Text)
    (literal : ∀ text pos quoted, textOf (.literal text pos quoted) = text) :
    (∀ word ∈ words, word.markers = []) ∧ words.map (·.tokens.flatMap textOf) = args := by
  induction words generalizing args with
  | nil =>
    cases args with
    | nil => simp
    | cons t args => cases spelled
  | cons word words ih =>
    cases args with
    | nil => cases spelled
    | cons t args =>
      obtain ⟨here, later⟩ := List.cons.inj spelled
      obtain ⟨noMarker, text⟩ := Word.text_of_atoms here textOf literal
      obtain ⟨others, texts⟩ := ih later
      refine ⟨fun other member => ?_, by rw [List.map_cons, text, texts]⟩
      rcases List.mem_cons.mp member with rfl | inRest
      · exact List.filterMap_eq_nil_iff.mpr noMarker
      · exact others other inRest

end Template

namespace Command

open Template

/-- A template that is read as the arguments of a command, without markers, makes that command. -/
theorem ofTemplate_of_atoms (c : Command) (memory : Memory) (number : Nat) {template : Text}
    {bindings : Bindings Item} {words : List (Word Item)}
    (read : tokenize template bindings = .ok words)
    (spelled : words.map Word.atoms = c.args.map (List.map Atom.rune)) :
    ∃ labels, ofTemplate memory number template bindings =
      ⟨.ok (.command { c with ignoresStatus := false } labels), memory, []⟩ := by
  obtain ⟨noMarkers, texts⟩ := texts_of_atoms spelled
    (fun token => (token.map (·.it)).argument memory) fun _ _ _ => rfl
  have scalar : ∀ w ∈ words.map (Word.map (·.it)), AllScalar w.tokens := by
    intro w member name value pos quoted inWord
    obtain ⟨word, isWord, rfl⟩ := List.mem_map.mp member
    obtain ⟨token, inTokens, same⟩ := List.mem_map.mp inWord
    have none := List.filterMap_eq_nil_iff.mp (noMarkers word isWord) token inTokens
    cases token with
    | literal text pos quoted => cases same
    | marker name value pos quoted => cases none
  have arguments : (words.map (Word.map (·.it))).map (Word.argument memory) = c.args := by
    rw [← texts, List.map_map]
    refine List.map_congr_left fun word _ => ?_
    exact List.flatMap_map ..
  have expanded := expand_scalars scalar memory
  rw [arguments] at expanded
  cases words with
  | nil => cases spelled
  | cons word words =>
    refine ⟨labelsOfWords memory number [] (word :: words), ?_⟩
    simp only [ofTemplate, read, expanded]
    simp only [args, Except.bind, List.isEmpty_cons, Bool.false_eq_true, if_false, ofArgs, ne_eq,
      c.program_ne_nil, not_false_eq_true, dif_pos]
    rfl

/-- **Writing a command as a shell line and reading the line are inverse.** The line of a command,
read without any values, has exactly one word for each argument, without markers, and its surface is
the argument. The command that is read from the line has the same arguments, and nothing else happens
in reading it. -/
theorem read_line (c : Command) :
    (∃ words, tokenize c.line ([] : Bindings Value) = .ok words ∧
      (∀ word ∈ words, word.markers = []) ∧ ∀ m, words.map (Word.surface m) = c.args) ∧
    ∀ w, ∃ again labels, (read c.line []).exec w =
        (.ok (.command again labels), { w with nextNumber := w.nextNumber + 1 }) ∧
      again.args = c.args := by
  constructor
  · obtain ⟨words, read, spelled⟩ := tokenize_shellLine c.args ([] : Bindings Value)
    have textOf (m : Memory) := texts_of_atoms spelled (Token.surface m) fun _ _ _ => rfl
    exact ⟨words, read, (textOf {}).1, fun m => (textOf m).2⟩
  · intro w
    obtain ⟨words, read, spelled⟩ := tokenize_shellLine c.args ([] : Bindings Item)
    obtain ⟨labels, made⟩ := c.ofTemplate_of_atoms w.memory w.nextNumber read spelled
    refine ⟨{ c with ignoresStatus := false }, labels, ?_, rfl⟩
    have template : Text.shellLine c.args = c.line := rfl
    rw [template] at made
    simp only [Command.read, drawNumber, keepExpansion, Sim.exec_bind, Sim.exec_modifyGet,
      Sim.exec_world, made, Sim.exec_modify, Sim.exec_ofExcept]
    rfl

end Command

end Pipework
