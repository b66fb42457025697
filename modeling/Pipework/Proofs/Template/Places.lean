import Pipework.Proofs.Template.Acceptance

/-!
# Where tokens stand

The signs of a derivation follow one another in the template, each at its place: this goes from the parts to
rows, to fields and to the whole template. Cutting signs into tokens leaves out some of them and moves none. So
the positions that are read off the tokens of a template are those at which their text and their markers stand,
and they grow from token to token and from word to word.
-/

namespace Pipework.Template

variable {α : Type} {lookup : Text → Option α}

/-! ## Signs in order -/

/-- Signs of a stretch of the template, one behind the other. -/
structure InOrder (start stop : Nat) (signs : List (Sign α)) : Prop where
  apart : signs.Pairwise fun a b => a.pos < b.pos
  within : ∀ sign ∈ signs, start ≤ sign.pos ∧ sign.pos < stop

namespace InOrder

theorem nil (start stop : Nat) : InOrder start stop ([] : List (Sign α)) :=
  ⟨.nil, fun _ member => absurd member List.not_mem_nil⟩

theorem one {start stop : Nat} {sign : Sign α} (starts : start ≤ sign.pos) (stops : sign.pos < stop) :
    InOrder start stop [sign] := by
  refine ⟨List.pairwise_singleton _ _, fun _ member => ?_⟩
  rw [List.mem_singleton.mp member]
  exact ⟨starts, stops⟩

theorem append {start middle stop : Nat} {one two : List (Sign α)} (first : InOrder start middle one)
    (second : InOrder middle stop two) (starts : start ≤ middle) (stops : middle ≤ stop) :
    InOrder start stop (one ++ two) where
  apart := List.pairwise_append.mpr ⟨first.apart, second.apart, fun a inOne b inTwo =>
    Nat.lt_of_lt_of_le (first.within a inOne).2 (second.within b inTwo).1⟩
  within sign member := by
    rcases List.mem_append.mp member with inOne | inTwo
    · have := first.within sign inOne
      omega
    · have := second.within sign inTwo
      omega

/-- Signs that start later and end earlier. -/
theorem widen {start stop start' stop' : Nat} {signs : List (Sign α)} (inner : InOrder start stop signs)
    (starts : start' ≤ start) (stops : stop ≤ stop') : InOrder start' stop' signs where
  apart := inner.apart
  within sign member := by
    have := inner.within sign member
    omega

/-- A row is in order when each of its parts is. -/
theorem row {β : Type} {render : β → Text} {signs : Nat → β → List (Sign α)}
    (inOrder : ∀ n part, InOrder n (n + (render part).length) (signs n part)) (n : Nat) (parts : List β) :
    InOrder n (n + (renderAll render parts).length) (placeAll render signs n parts) := by
  induction parts generalizing n with
  | nil => exact nil _ _
  | cons part parts ih =>
    have later := ih (n + (render part).length)
    rw [placeAll, renderAll, List.flatMap_cons, List.length_append, ← Nat.add_assoc]
    exact (inOrder n part).append later (Nat.le_add_right _ _) (Nat.le_add_right _ _)

end InOrder

theorem Marker.length_render_pos (m : Marker α) : 0 < m.render.length := by
  unfold render
  split <;> exact Nat.succ_pos _

theorem Inner.inOrder (n : Nat) (part : Inner α) :
    InOrder n (n + part.render.length) (part.signs n) := by
  cases part with
  | plain r => exact .one (Nat.le_refl n) (Nat.lt_succ_self n)
  | escaped r => exact .one (Nat.le_succ n) (Nat.lt_succ_self (n + 1))
  | joined => exact .nil _ _
  | kept r =>
    have first : InOrder n (n + 1) [Sign.rune (α := α) ⟨.char '\\', n, true⟩] :=
      .one (Nat.le_refl n) (Nat.lt_succ_self n)
    have second : InOrder (n + 1) (n + 1 + 1) [Sign.rune (α := α) ⟨r, n + 1, true⟩] :=
      .one (Nat.le_refl _) (Nat.lt_succ_self _)
    exact first.append second (Nat.le_succ n) (Nat.le_succ (n + 1))
  | marker m => exact .one (Nat.le_refl n) (Nat.lt_add_of_pos_right m.length_render_pos)

theorem Piece.inOrder (n : Nat) (part : Piece α) :
    InOrder n (n + part.render.length) (part.signs n) := by
  cases part with
  | plain r => exact .one (Nat.le_refl n) (Nat.lt_succ_self n)
  | escaped r => exact .one (Nat.le_succ n) (Nat.lt_succ_self (n + 1))
  | joined => exact .nil _ _
  | single t =>
    have one (n : Nat) (r : Rune) : InOrder n (n + [r].length) [Sign.rune (α := α) ⟨r, n, false⟩] :=
      .one (Nat.le_refl n) (Nat.lt_succ_self n)
    have inside := InOrder.row one (n + 1) t
    refine inside.widen (Nat.le_succ n) ?_
    have same : renderAll (fun r : Rune => [r]) t = t := List.flatMap_singleton' t
    simp only [same, render, List.length_cons, List.length_append, List.length_nil]
    omega
  | double parts =>
    have inside := InOrder.row Inner.inOrder (n + 1) parts
    have last (n : Nat) : InOrder n (n + 1) [Sign.close (α := α) n] := .one (Nat.le_refl n) (Nat.lt_succ_self n)
    have closed := inside.append (last _) (Nat.le_add_right _ _) (Nat.le_succ _)
    refine closed.widen (Nat.le_succ n) ?_
    simp only [render, List.length_cons, List.length_append, List.length_nil]
    omega
  | marker m => exact .one (Nat.le_refl n) (Nat.lt_add_of_pos_right m.length_render_pos)

/-! ## Signs in place -/

/-- What a sign is written as. Of a rune that a backslash frees, this is the rune. -/
def Sign.text : Sign α → Text
  | rune r => [r.rune]
  | marker m _ _ => m.render
  | close _ => [.char '"']

/-- The sign stands at its place in a template. -/
def Sign.StandsIn (template : Text) (sign : Sign α) : Prop := sign.text <+: template.drop sign.pos

namespace Sign

theorem standsIn {sign : Sign α} {template : Text} (before rest : Text) (place : sign.pos = before.length)
    (written : template = before ++ (sign.text ++ rest)) : sign.StandsIn template := by
  unfold StandsIn
  rw [place, written, List.drop_left]
  exact List.prefix_append _ _

/-- A row is in place when each of its parts is. -/
theorem standsIn_row {β : Type} {render : β → Text} {signs : Nat → β → List (Sign α)}
    (stands : ∀ (part : β) (before rest : Text), ∀ sign ∈ signs before.length part,
      sign.StandsIn (before ++ (render part ++ rest)))
    (parts : List β) (before rest : Text) : ∀ sign ∈ placeAll render signs before.length parts,
      sign.StandsIn (before ++ (renderAll render parts ++ rest)) := by
  induction parts generalizing before with
  | nil => exact fun _ member => absurd member List.not_mem_nil
  | cons part parts ih =>
    intro sign member
    rw [renderAll, List.flatMap_cons, List.append_assoc]
    rw [placeAll, List.mem_append, ← List.length_append] at member
    rcases member with here | later
    · exact stands part before _ sign here
    · have stood := ih (before ++ render part) sign later
      rwa [List.append_assoc] at stood

end Sign

/-- A rune behind another one. -/
private theorem standsIn_second {before rest : Text} {q r : Rune} {inside : Bool} :
    (Sign.rune (α := α) ⟨r, before.length + 1, inside⟩).StandsIn (before ++ ([q, r] ++ rest)) :=
  Sign.standsIn (before ++ [q]) rest (by simp [Sign.pos]) (by simp [Sign.text])

theorem Inner.standsIn (part : Inner α) (before rest : Text) :
    ∀ sign ∈ part.signs before.length, sign.StandsIn (before ++ (part.render ++ rest)) := by
  cases part with
  | plain r => exact List.forall_mem_singleton.mpr (Sign.standsIn _ _ rfl rfl)
  | escaped r => exact List.forall_mem_singleton.mpr standsIn_second
  | joined => exact fun _ member => absurd member List.not_mem_nil
  | kept r =>
    have first : (Sign.rune (α := α) ⟨.char '\\', before.length, true⟩).StandsIn
        (before ++ ([.char '\\', r] ++ rest)) := Sign.standsIn before (r :: rest) rfl rfl
    exact List.forall_mem_cons.mpr ⟨first, List.forall_mem_singleton.mpr standsIn_second⟩
  | marker m => exact List.forall_mem_singleton.mpr (Sign.standsIn _ _ rfl rfl)

theorem Piece.standsIn (part : Piece α) (before rest : Text) :
    ∀ sign ∈ part.signs before.length, sign.StandsIn (before ++ (part.render ++ rest)) := by
  cases part with
  | plain r => exact List.forall_mem_singleton.mpr (Sign.standsIn _ _ rfl rfl)
  | escaped r => exact List.forall_mem_singleton.mpr standsIn_second
  | joined => exact fun _ member => absurd member List.not_mem_nil
  | single t =>
    have one (r : Rune) (before rest : Text) : ∀ sign ∈ [Sign.rune (α := α) ⟨r, before.length, false⟩],
        sign.StandsIn (before ++ ([r] ++ rest)) := List.forall_mem_singleton.mpr (Sign.standsIn _ _ rfl rfl)
    have inside := @Sign.standsIn_row α Rune (fun r => [r]) (fun n r => [.rune ⟨r, n, false⟩]) one t
      (before ++ [.char '\'']) (.char '\'' :: rest)
    have same : renderAll (fun r : Rune => [r]) t = t := List.flatMap_singleton' t
    simpa [same, render, signs] using inside
  | double parts =>
    have inside := Sign.standsIn_row Inner.standsIn parts (before ++ [.char '"']) (.char '"' :: rest)
    have closing : (Sign.close (α := α) (before.length + 1 + (renderAll Inner.render parts).length)).StandsIn
        (before ++ ((double parts).render ++ rest)) :=
      Sign.standsIn (before ++ .char '"' :: renderAll Inner.render parts) rest
        (by simp [Sign.pos]; omega) (by simp [Sign.text, render])
    intro sign member
    rw [signs, List.mem_append, List.mem_singleton] at member
    rcases member with member | rfl
    · rw [← List.length_singleton (a := Rune.char '"'), ← List.length_append] at member
      simpa [render] using inside sign member
    · exact closing
  | marker m => exact List.forall_mem_singleton.mpr (Sign.standsIn _ _ rfl rfl)

/-! ## Fields -/

/-- Where a field ends. -/
def Field.stop (field : Field α) : Nat := field.pos + (renderAll Piece.render field.parts).length

theorem Field.inOrder (field : Field α) : InOrder field.pos field.stop field.signs :=
  .row Piece.inOrder field.pos field.parts

theorem Field.pos_le_stop (field : Field α) : field.pos ≤ field.stop := Nat.le_add_right _ _

/-- A field ends before the next one starts, for a separator stands between them. -/
theorem Layout.fields_apart (l : Layout α) (n : Nat) :
    ((l.fields n).Pairwise fun f g => f.stop < g.pos) ∧ ∀ field ∈ l.fields n, n ≤ field.pos := by
  induction l generalizing n with
  | last field =>
    refine ⟨List.pairwise_singleton _ _, List.forall_mem_singleton.mpr (Nat.le_refl n)⟩
  | more field separator rest ih =>
    obtain ⟨apart, later⟩ := ih (n + (renderAll Piece.render field).length + 1)
    refine ⟨List.pairwise_cons.mpr ⟨fun g member => Nat.lt_of_succ_le (later g member), apart⟩, ?_⟩
    refine List.forall_mem_cons.mpr ⟨Nat.le_refl n, fun g member => ?_⟩
    have := later g member
    omega

/-- The signs of the fields stand in the template. -/
theorem Layout.standsIn (l : Layout α) (before : Text) :
    ∀ field ∈ l.fields before.length, ∀ sign ∈ field.signs, sign.StandsIn (before ++ l.render) := by
  induction l generalizing before with
  | last field =>
    refine List.forall_mem_singleton.mpr ?_
    have stands := Sign.standsIn_row Piece.standsIn field before []
    rwa [List.append_nil] at stands
  | more field separator rest ih =>
    refine List.forall_mem_cons.mpr ⟨Sign.standsIn_row Piece.standsIn field before _, ?_⟩
    have later := ih (before ++ (renderAll Piece.render field ++ [separator]))
    simpa [render, Nat.add_assoc] using later

/-! ## Tokens -/

/-- The first sign of a source. -/
def Source.sign : Source α → Sign α
  | text first _ _ => .rune first
  | marker m pos inside => .marker m pos inside

/-- The sources are what they were cut from, less what follows the first rune of a text. -/
theorem Cuts.sublist {signs : List (Sign α)} {sources : List (Source α)} (cuts : Cuts signs sources) :
    (sources.map Source.sign).Sublist signs := by
  induction cuts with
  | nil => exact .slnil
  | close _ ih => exact ih.cons _
  | marker _ ih => exact ih.cons_cons _
  | text _ _ ih => exact (ih.trans (List.sublist_append_right _ _)).cons_cons _

/-- What a token says of its place holds in the template. -/
def Token.StandsIn (template : Text) : Token α → Prop
  | literal text pos _ => text ≠ [] → template[pos]? = text.head?
  | marker name _ pos _ =>
    .char '$' :: name <+: template.drop pos ∨
      .char '$' :: .char '\x7b' :: (name ++ [.char '\x7d']) <+: template.drop pos

/-- A token stands where the first of its signs does. -/
theorem Source.standsIn_token {source : Source α} {template : Text} (stands : source.sign.StandsIn template) :
    source.token.StandsIn template := by
  cases source with
  | text first more next =>
    intro _
    obtain ⟨rest, written⟩ := stands
    have head : (template.drop first.pos)[0]? = some first.rune := by
      rw [← show _ = template.drop first.pos from written]
      rfl
    rwa [List.getElem?_drop] at head
  | marker m pos inside =>
    have written : m.render <+: template.drop pos := stands
    unfold Marker.render at written
    split at written
    · exact .inr written
    · exact .inl written

namespace Field.Gives

variable {field : Field α} {w : Word α}

/-- The tokens of a word are those of its sources, or empty text where it has none. -/
theorem tokens (gives : field.Gives w) : w.pos = field.pos ∧
    (w.tokens = [.literal [] field.pos true] ∨
      ∃ sources, sources ≠ [] ∧ Cuts field.signs sources ∧ w.tokens = sources.map Source.token) := by
  obtain ⟨sources, cuts, rfl⟩ := gives
  refine ⟨rfl, ?_⟩
  cases sources with
  | nil => exact .inl rfl
  | cons source sources => exact .inr ⟨source :: sources, List.cons_ne_nil _ _, cuts, rfl⟩

theorem some (gives : field.Gives w) : w.tokens ≠ [] := by
  obtain ⟨-, tokens | ⟨sources, some, -, tokens⟩⟩ := gives.tokens
  · rw [tokens]
    exact List.cons_ne_nil _ _
  · rw [tokens]
    exact fun none => some (List.map_eq_nil_iff.mp none)

/-- The tokens of a word follow one another in its field. -/
theorem inOrder (gives : field.Gives w) : (w.tokens.Pairwise fun a b => a.pos < b.pos) ∧
    ∀ token ∈ w.tokens, w.pos ≤ token.pos ∧ token.pos ≤ field.stop := by
  obtain ⟨pos, tokens | ⟨sources, -, cuts, tokens⟩⟩ := gives.tokens
  · rw [tokens, pos]
    exact ⟨List.pairwise_singleton _ _, List.forall_mem_singleton.mpr ⟨Nat.le_refl _, field.pos_le_stop⟩⟩
  · have apart := field.inOrder.apart.sublist cuts.sublist
    have place (source : Source α) : source.token.pos = source.sign.pos := by cases source <;> rfl
    rw [tokens, pos]
    constructor
    · rw [List.pairwise_map] at apart ⊢
      simpa only [place] using apart
    · refine List.forall_mem_map.mpr fun source member => ?_
      have within := field.inOrder.within _ (cuts.sublist.subset (List.mem_map_of_mem member))
      rw [place]
      omega

theorem standsIn (gives : field.Gives w) {template : Text}
    (stands : ∀ sign ∈ field.signs, sign.StandsIn template) : ∀ token ∈ w.tokens, token.StandsIn template := by
  obtain ⟨pos, tokens | ⟨sources, -, cuts, tokens⟩⟩ := gives.tokens
  · rw [tokens]
    exact List.forall_mem_singleton.mpr fun some => absurd rfl some
  · rw [tokens]
    refine List.forall_mem_map.mpr fun source member => Source.standsIn_token (stands _ ?_)
    exact cuts.sublist.subset (List.mem_map_of_mem member)

/-- Empty text is a word by itself. -/
theorem sole (gives : field.Gives w) {pos : Nat} {quoted : Bool}
    (member : .literal [] pos quoted ∈ w.tokens) : w.tokens = [.literal [] pos quoted] := by
  obtain ⟨-, tokens | ⟨sources, -, -, tokens⟩⟩ := gives.tokens
  · rw [tokens] at member ⊢
    rw [List.mem_singleton.mp member]
  · rw [tokens] at member
    obtain ⟨source, -, same⟩ := List.mem_map.mp member
    cases source <;> cases same

end Field.Gives

/-! ## Templates -/

/-- A template that is read has a derivation, and of each derivation the words are those of its fields. -/
theorem gives_of_tokenize {template : Text} {bindings : Bindings α} {words : List (Word α)}
    (read : tokenize template bindings = .ok words) :
    (∃ l : Layout α, l.Allowed bindings.get? ∧ l.render = template) ∧
      ∀ l : Layout α, l.Allowed bindings.get? → l.render = template →
        List.Forall₂ Field.Gives l.shown words := by
  constructor
  · obtain ⟨l, allowed, same, _⟩ := (tokenize_accepts_grammar template bindings _).mp ⟨words, read, rfl⟩
    exact ⟨l, allowed, same⟩
  · rintro l allowed rfl
    obtain ⟨again, answer, -, gives⟩ := l.reads allowed {}
    rw [← State.answer_blank rfl] at answer
    have same : words? bindings.get? l.render = .ok again := answer
    rw [tokenize, same] at read
    cases read
    exact gives

/-- A word is read from a field. -/
theorem exists_gives {fields : List (Field α)} {words : List (Word α)}
    (gives : List.Forall₂ Field.Gives fields words) {w : Word α} (member : w ∈ words) :
    ∃ field ∈ fields, field.Gives w := by
  induction gives with
  | nil => cases member
  | cons one others ih =>
    rcases List.mem_cons.mp member with rfl | later
    · exact ⟨_, List.mem_cons_self, one⟩
    · obtain ⟨field, inFields, given⟩ := ih later
      exact ⟨field, List.mem_cons_of_mem _ inFields, given⟩

/-- What holds of the fields two by two holds of their words. -/
private theorem pairwise_of_gives {fields : List (Field α)} {words : List (Word α)}
    {Before : Field α → Field α → Prop} {Before' : Word α → Word α → Prop}
    (gives : List.Forall₂ Field.Gives fields words) (apart : fields.Pairwise Before)
    (keeps : ∀ f g w w', Field.Gives f w → Field.Gives g w' → Before f g → Before' w w') :
    words.Pairwise Before' := by
  induction gives with
  | nil => exact .nil
  | cons one others ih =>
    obtain ⟨first, later⟩ := List.pairwise_cons.mp apart
    refine List.pairwise_cons.mpr ⟨fun w' member => ?_, ih later⟩
    obtain ⟨g, inFields, given⟩ := exists_gives others member
    exact keeps _ _ _ _ one given (first g inFields)

/-- **Positions are faithful.** The positions of words grow, and so do those of tokens, over the whole template. A
word is at most as far to the right as its first token, and further than all tokens of the words before it. A marker
stands at its position, with braces or without, and so does the first rune of a text. Empty text is a word by
itself. -/
theorem tokenize_keeps_places {template : Text} {bindings : Bindings α} {words : List (Word α)}
    (read : tokenize template bindings = .ok words) :
    (words.map Word.pos).Pairwise (· < ·) ∧
      ((words.flatMap Word.tokens).map Token.pos).Pairwise (· < ·) ∧
      (∀ w ∈ words, ∃ first more, w.tokens = first :: more ∧ w.pos ≤ first.pos) ∧
      (words.Pairwise fun w w' => ∀ token ∈ w.tokens, token.pos < w'.pos) ∧
      (∀ w ∈ words, ∀ token ∈ w.tokens, token.StandsIn template) ∧
      ∀ w ∈ words, ∀ pos quoted, .literal [] pos quoted ∈ w.tokens → w.tokens = [.literal [] pos quoted] := by
  obtain ⟨⟨l, allowed, rfl⟩, derived⟩ := gives_of_tokenize read
  have gives : List.Forall₂ Field.Gives l.shown words := derived l allowed rfl
  have fields : l.shown.Pairwise fun f g => f.stop < g.pos := (l.fields_apart 0).1.sublist List.filter_sublist
  -- a field ends before the next one starts, and with it all that was read from it
  have behind : words.Pairwise fun w w' => ∀ token ∈ w.tokens, token.pos < w'.pos := by
    refine pairwise_of_gives gives fields fun f g w w' given given' apart token member => ?_
    have := (given.inOrder.2 token member).2
    have := given'.tokens.1
    omega
  have within : ∀ w ∈ words, (w.tokens.Pairwise fun a b => a.pos < b.pos) ∧ ∀ token ∈ w.tokens, w.pos ≤ token.pos := by
    intro w member
    obtain ⟨field, -, given⟩ := exists_gives gives member
    exact ⟨given.inOrder.1, fun token inWord => (given.inOrder.2 token inWord).1⟩
  have starts : ∀ w ∈ words, ∃ first more, w.tokens = first :: more ∧ w.pos ≤ first.pos := by
    intro w member
    obtain ⟨field, -, given⟩ := exists_gives gives member
    obtain ⟨first, more, tokens⟩ := List.exists_cons_of_ne_nil given.some
    exact ⟨first, more, tokens, (within w member).2 first (tokens ▸ List.mem_cons_self)⟩
  refine ⟨?_, ?_, starts, behind, fun w member => ?_, fun w member pos quoted => ?_⟩
  · refine List.pairwise_map.mpr (behind.imp_of_mem fun {w w'} member _ before => ?_)
    obtain ⟨first, more, tokens, atStart⟩ := starts w member
    exact Nat.lt_of_le_of_lt atStart (before first (tokens ▸ List.mem_cons_self))
  · refine List.pairwise_map.mpr (List.pairwise_flatMap.mpr ⟨fun w member => (within w member).1, ?_⟩)
    exact behind.imp_of_mem fun {w w'} _ member before a inFirst b inSecond =>
      Nat.lt_of_lt_of_le (before a inFirst) ((within w' member).2 b inSecond)
  · obtain ⟨field, inFields, given⟩ := exists_gives gives member
    exact given.standsIn (l.standsIn [] field (List.mem_of_mem_filter inFields))
  · obtain ⟨field, -, given⟩ := exists_gives gives member
    exact given.sole

/-- Text that starts in one kind of quotes and goes on in another, a joined line, a marker in braces and empty
text. -/
theorem tokenize_keeps_places_of_mixed :
    tokenize "'a'\\\n\"b${x}\" \t '' \\$$x" [("x", ())] =
        .ok [⟨0, [.literal "ab" 1 true, .marker "x" () 7 true]⟩, ⟨15, [.literal [] 15 true]⟩,
          ⟨18, [.literal "$" 19 false, .marker "x" () 20 false]⟩] ∧
      ([0, 15, 18] : List Nat).Pairwise (· < ·) ∧ ([1, 7, 15, 19, 20] : List Nat).Pairwise (· < ·) := by
  have read : tokenize "'a'\\\n\"b${x}\" \t '' \\$$x" [("x", ())] =
      .ok [⟨0, [.literal "ab" 1 true, .marker "x" () 7 true]⟩, ⟨15, [.literal [] 15 true]⟩,
        ⟨18, [.literal "$" 19 false, .marker "x" () 20 false]⟩] := rfl
  obtain ⟨words, tokens, -⟩ := tokenize_keeps_places read
  exact ⟨read, words, tokens⟩

end Pipework.Template
