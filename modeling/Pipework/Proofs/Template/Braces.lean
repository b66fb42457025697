import Pipework.Proofs.Template.Following
import Pipework.Proofs.Template.Markers

/-!
# Braces around a name

The name of a marker stands between braces, or bare as far as letters, numerals and underscores go. The two forms
ask for names of different classes: identifiers, which also have accents and letter-like numerals and leave out raised
digits, and bare names. For a name of both classes the forms lead the reader to the same state but for its place, so
what is read behind is the same, two runes further on (`words?_braces`). An identifier that is no bare name has a
shorter one in front, if any, and that is what is read without braces (`words?_braces_ne`). Over the runes that
both classes treat alike, the first 128 characters among them, there is no difference (`isBareName_iff_isIdentifier`).
-/

namespace Pipework.Template

variable {α : Type} {lookup : Text → Option α}

/-! ## Names -/

/-- A rune that starts and continues bare names exactly when it starts and continues identifiers. -/
def isCommon : Rune → Bool
  | .char c => Text.startsName (.char c) == Text.Letter.startsIdentifier c &&
      Text.continuesName (.char c) == Text.Letter.continuesIdentifier c
  | .stray _ | .half _ => true

/-- Among the first 128 characters the classes do not differ. -/
theorem isCommon_of_ascii {c : Char} (ascii : c.toNat < 128) : isCommon (.char c) = true := by
  have starts : Text.startsName (.char c) = Text.Letter.startsIdentifier c := by
    simp only [Text.startsName, Text.Letter.isLetter, Text.Letter.startsIdentifier, if_pos ascii]
  have continues : Text.continuesName (.char c) = Text.Letter.continuesIdentifier c := by
    simp only [Text.continuesName, Text.Letter.isAlphanumeric, Text.Letter.continuesIdentifier,
      Text.Letter.startsIdentifier, if_pos ascii, Char.isAlphanum, Bool.or_assoc]
  simp only [isCommon, starts, continues, beq_self_eq_true, Bool.and_self]

/-- A name of common runes may be written either way. -/
theorem isBareName_iff_isIdentifier {name : Text} (common : ∀ r ∈ name, isCommon r = true) :
    IsBareName name ↔ Text.isIdentifier name = true := by
  rcases name with _ | ⟨r, run⟩
  · constructor
    · intro bareName
      cases bareName
    · intro identifier
      cases identifier
  · obtain ⟨first, later⟩ := List.forall_mem_cons.mp common
    rw [isBareName_cons]
    cases r with
    | char c =>
      simp only [isCommon, Bool.and_eq_true, beq_iff_eq] at first
      simp only [Text.isIdentifier, Bool.and_eq_true, List.all_eq_true, first.1]
      refine and_congr_right fun _ => forall₂_congr fun d member => ?_
      have alike := later d member
      cases d with
      | char d =>
        simp only [isCommon, Bool.and_eq_true, beq_iff_eq] at alike
        rw [alike.2]
      | stray | half => exact Iff.rfl
    | stray | half =>
      exact ⟨fun bare => absurd bare.1 Bool.false_ne_true, fun identifier => absurd identifier Bool.false_ne_true⟩

/-- An identifier is made of what continues one. -/
theorem notMem_of_isIdentifier {name : Text} (identifier : Text.isIdentifier name = true) {c : Char}
    (other : Text.Letter.continuesIdentifier c = false) : .char c ∉ name := by
  rcases name with _ | ⟨first | _ | _, run⟩
  · exact List.not_mem_nil
  · simp only [Text.isIdentifier, Bool.and_eq_true, List.all_eq_true] at identifier
    obtain ⟨starts, continues⟩ := identifier
    intro member
    rcases List.mem_cons.mp member with same | later
    · cases same
      simp [Text.Letter.continuesIdentifier, starts] at other
    · exact Bool.false_ne_true (other.symm.trans (continues _ later))
  · cases identifier
  · cases identifier

/-- A text is a bare name, or opens none, or has one in front that a rune ends. -/
theorem bareName_cases (name : Text) : IsBareName name ∨ (∀ r ∈ name.head?, Text.startsName r = false) ∨
    ∃ shorter r more, name = shorter ++ r :: more ∧ IsBareName shorter ∧ Text.continuesName r = false := by
  rcases name with _ | ⟨r, run⟩
  · exact .inr (.inl fun _ none => nomatch none)
  cases starts : Text.startsName r with
  | false => exact .inr (.inl fun _ same => Option.some.inj same ▸ starts)
  | true =>
    have whole : run.takeWhile Text.continuesName ++ run.dropWhile Text.continuesName = run :=
      List.takeWhile_append_dropWhile
    have longest : ∀ c ∈ run.takeWhile Text.continuesName, Text.continuesName c = true :=
      List.all_eq_true.mp List.all_takeWhile
    cases left : run.dropWhile Text.continuesName with
    | nil =>
      rw [left, List.append_nil] at whole
      exact .inl (.intro r run starts (whole ▸ longest))
    | cons c more =>
      have stops := List.head?_dropWhile_not Text.continuesName run
      rw [left] at whole stops
      exact .inr (.inr ⟨r :: run.takeWhile Text.continuesName, c, more, congrArg (r :: ·) whole.symm,
        .intro r _ starts longest, by simpa using stops⟩)

/-! ## The two forms of a marker -/

/-- The place of what stands at a place, or two runes further on where it stands behind the dollar sign of a marker
that gets braces. -/
def behindBraces (dollar p : Nat) : Nat := if p ≤ dollar then p else p + 2

theorem behindBraces_of_le {dollar p : Nat} (before : p ≤ dollar) : behindBraces dollar p = p := if_pos before

theorem behindBraces_of_lt {dollar p : Nat} (behind : dollar < p) : behindBraces dollar p = p + 2 :=
  if_neg (Nat.not_le_of_lt behind)

/-- A marker opens with a rune that ends a bare name before it. -/
theorem continuesName_head_render {m : Marker α} {rest : Text} :
    ∀ r ∈ (m.render ++ rest).head?, Text.continuesName r = false := by
  unfold Marker.render
  split <;> rintro r same <;> cases same <;> decide

/-- A marker that no map of places touches is read to a state whose places are moved only behind it. -/
theorem State.moved_past {f : Nat → Nat} {s : State α} (unmoved : s.moved f [] = s) (m : Marker α) (inside : Bool)
    {n n' : Nat} (place : f (s.pos + n) = s.pos + n') :
    (s.past n [.marker m s.pos inside] false).moved f [] = s.past n' [.marker m s.pos inside] false := by
  have sameMode : s.mode.moved f = s.mode := congrArg State.mode unmoved
  have sameDraft : s.draft.moved f = s.draft := congrArg State.draft unmoved
  have sameWords : [] ++ s.words.map (Word.moved f) = s.words := congrArg State.words unmoved
  have samePos : f s.pos = s.pos := congrArg State.pos unmoved
  have marked := (s.draft.flush inside).mark_moved (f := f) m.name m.value s.pos inside
  rw [← Draft.flush_moved, sameDraft, samePos] at marked
  rw [past_unquoted, past_unquoted]
  simp only [moved, place, sameMode, sameWords, List.foldl_cons, List.foldl_nil, Draft.take, ← marked]

section Forms

variable {before name after : Text} {value : α} {within : Option Nat}

/-! ### Names of both classes -/

/-- The two forms of a marker lead to states that differ in their place, by the two braces. -/
theorem State.answer_braces {s : State α} (mode : s.mode = modeAround within)
    (unmoved : s.moved (behindBraces s.pos) [] = s) (bound : lookup name = some value)
    (identifier : Text.isIdentifier name = true) (bareName : IsBareName name)
    (ended : ∀ r ∈ after.head?, Text.continuesName r = false) :
    s.answer lookup (Marker.render ⟨true, name, value⟩ ++ after) =
      answerMoved (behindBraces s.pos) [] (s.answer lookup (Marker.render ⟨false, name, value⟩ ++ after)) := by
  have allowed (braced : Bool) : Marker.Allowed lookup ⟨braced, name, value⟩ after :=
    ⟨bound, fun _ => ⟨notMem_of_isIdentifier identifier (by decide), identifier⟩, fun _ => ⟨bareName, ended⟩⟩
  have taken (braced : Bool) := Marker.takes (allowed braced) within mode
  unfold Takes at taken
  have nonempty : 0 < name.length := by
    obtain ⟨first, run, -, -⟩ := bareName
    exact run.length.succ_pos
  have braces : (Marker.render ⟨true, name, value⟩).length = name.length + 1 + 2 := by simp [Marker.render]
  have dollar : (Marker.render ⟨false, name, value⟩).length = name.length + 1 := by simp [Marker.render]
  let behind (n : Nat) : State α := s.past n [.marker ⟨false, name, value⟩ s.pos within.isSome] false
  have moved : (behind (name.length + 1)).moved (behindBraces s.pos) [] = behind (name.length + 1 + 2) :=
    moved_past unmoved _ _ (behindBraces_of_lt (by omega))
  have beside : (behind (name.length + 1)).Beside (behindBraces s.pos) := by
    have here : behindBraces s.pos (s.pos + (name.length + 1)) = s.pos + (name.length + 1) + 2 :=
      behindBraces_of_lt (by omega)
    have back : behindBraces s.pos (s.pos + name.length) = s.pos + name.length + 2 := behindBraces_of_lt (by omega)
    exact .inr (here.trans (congrArg (· + 1) back).symm)
  have keeps : Keeps (behindBraces s.pos) (behind (name.length + 1)).pos after := by
    intro p (low : s.pos + (name.length + 1) ≤ p) _
    rw [behindBraces_of_lt (by omega), behindBraces_of_lt (by omega)]
  calc s.answer lookup (Marker.render ⟨true, name, value⟩ ++ after)
      = (behind (name.length + 1 + 2)).answer lookup after := by rw [taken true, braces]; rfl
    _ = answerMoved (behindBraces s.pos) [] ((behind (name.length + 1)).answer lookup after) := by
      rw [← moved, answer_moved beside keeps]
    _ = answerMoved (behindBraces s.pos) [] (s.answer lookup (Marker.render ⟨false, name, value⟩ ++ after)) := by
      rw [taken false, dollar]

/-- Braces around a bare name that is an identifier move what stands behind the marker, and nothing else. -/
theorem words?_braces (ends : Ends (fun _ => some ()) before within) (bound : lookup name = some value)
    (identifier : Text.isIdentifier name = true) (bareName : IsBareName name)
    (ended : ∀ r ∈ after.head?, Text.continuesName r = false) :
    words? lookup (before ++ (Marker.render ⟨true, name, value⟩ ++ after)) =
      State.answerMoved (behindBraces before.length) []
        (words? lookup (before ++ (Marker.render ⟨false, name, value⟩ ++ after))) := by
  obtain ⟨lead, leaves⟩ := exists_leaves lookup value ends fun _ => behindBraces_of_le
  rw [leaves.reads _ continuesName_head_render, leaves.reads _ continuesName_head_render]
  have unmoved := leaves.unmoved
  cases lead with
  | error fault =>
    injection unmoved with same
    exact congrArg Except.error same.symm
  | ok s =>
    obtain ⟨mode, pos⟩ := leaves.around s rfl
    rw [← pos] at unmoved ⊢
    exact State.answer_braces mode (State.moved_of_leadMoved unmoved) bound identifier bareName ended

/-! ### Identifiers that are no bare names -/

/-- A bare marker that is read has a name that is bound. -/
theorem State.bound_of_answer {s : State α} (mode : s.mode = modeAround within) (bareName : IsBareName name)
    (ended : ∀ r ∈ after.head?, Text.continuesName r = false) {words : List (Word α)}
    (read : s.answer lookup (.char '$' :: (name ++ after)) = .ok words) : ∃ value, lookup name = some value := by
  have dollar : s.stepMode lookup (.char '$') = .ok (s.stepAround within (.char '$')) := stepMode_around mode _
  rw [stepAround_dollar] at dollar
  rw [answer_of_stepMode dollar, answer_bare bareName rfl ended] at read
  unfold bind at read
  cases found : lookup name with
  | some value => exact ⟨value, rfl⟩
  | none =>
    simp only [found] at read
    cases read

/-- A dollar sign that neither a brace nor a name follows cannot be read. -/
theorem State.answer_bareMarker {s : State α} (mode : s.mode = modeAround within) {r : Rune} {rest : Text}
    (noBrace : r ≠ .char '\x7b') (noName : Text.startsName r = false) :
    s.answer lookup (.char '$' :: r :: rest) = .error (.bareMarker, s.pos) := by
  have dollar : s.stepMode lookup (.char '$') = .ok (s.stepAround within (.char '$')) := stepMode_around mode _
  rw [stepAround_dollar] at dollar
  rw [answer_of_stepMode dollar, answer_cons]
  simp [stepMode, counted, noBrace, noName, Except.bind]

/-- Without braces, an identifier that is no bare name is read as the bare name in front of it. -/
theorem State.exists_shorter {s : State α} (mode : s.mode = modeAround within)
    (identifier : Text.isIdentifier name = true) (other : ¬ IsBareName name) {words : List (Word α)}
    (read : s.answer lookup (.char '$' :: (name ++ after)) = .ok words) :
    ∃ shorter value, shorter <+: name ∧ shorter ≠ name ∧ IsBareName shorter ∧
      (words.flatMap Word.tokens)[(s.tokensBefore within).length]? =
        some (.marker shorter value s.pos within.isSome) := by
  rcases bareName_cases name with bareName | noName | ⟨shorter, r, more, rfl, bareShorter, stops⟩
  · exact absurd bareName other
  · rcases name with _ | ⟨r, run⟩
    · cases identifier
    · have noBrace : r ≠ .char '\x7b' := by
        rintro rfl
        exact notMem_of_isIdentifier identifier (by decide) List.mem_cons_self
      rw [List.cons_append, answer_bareMarker mode noBrace (noName r rfl)] at read
      cases read
  · have ended : ∀ c ∈ (r :: more ++ after).head?, Text.continuesName c = false :=
      fun _ same => Option.some.inj same ▸ stops
    have longer : shorter ≠ shorter ++ r :: more :=
      fun same => List.cons_ne_nil _ _ (List.self_eq_append_right.mp same)
    rw [List.append_assoc] at read
    obtain ⟨value, bound⟩ := bound_of_answer mode bareShorter ended read
    have allowed : Marker.Allowed lookup ⟨false, shorter, value⟩ (r :: more ++ after) :=
      ⟨bound, fun braced => absurd braced Bool.false_ne_true, fun _ => ⟨bareShorter, ended⟩⟩
    exact ⟨shorter, value, List.prefix_append _ _, longer, bareShorter, marker_of_answer mode allowed read⟩

theorem flatMap_tokens_moved (f : Nat → Nat) (words : List (Word α)) :
    (words.map (Word.moved f)).flatMap Word.tokens = (words.flatMap Word.tokens).map (Token.moved f) := by
  rw [List.flatMap_map, List.map_flatMap]
  rfl

/-- Without braces, an identifier that is no bare name gives its marker a shorter name, and so the words are others
than with braces. -/
theorem words?_braces_ne (ends : Ends (fun _ => some ()) before within) (bound : lookup name = some value)
    (identifier : Text.isIdentifier name = true) (other : ¬ IsBareName name) {words : List (Word α)}
    (read : words? lookup (before ++ (Marker.render ⟨false, name, value⟩ ++ after)) = .ok words) :
    words? lookup (before ++ (Marker.render ⟨true, name, value⟩ ++ after)) ≠
        .ok (words.map (Word.moved (behindBraces before.length))) ∧
      ∃ shorter value', shorter <+: name ∧ shorter ≠ name ∧ IsBareName shorter ∧
        ∃ w ∈ words, .marker shorter value' before.length within.isSome ∈ w.tokens := by
  obtain ⟨lead, leaves⟩ := exists_leaves lookup value ends fun _ => behindBraces_of_le
  rw [leaves.reads _ continuesName_head_render] at read ⊢
  cases lead with
  | error fault => cases read
  | ok s =>
    obtain ⟨mode, pos⟩ := leaves.around s rfl
    obtain ⟨shorter, value', front, shorterName, bareShorter, found⟩ :=
      State.exists_shorter mode identifier other read
    refine ⟨fun same => ?_, shorter, value', front, shorterName, bareShorter, ?_⟩
    · have allowed : Marker.Allowed lookup ⟨true, name, value⟩ after :=
        ⟨bound, fun _ => ⟨notMem_of_isIdentifier identifier (by decide), identifier⟩,
          fun bare => absurd bare.symm Bool.false_ne_true⟩
      have braced := State.marker_of_answer mode allowed same
      rw [flatMap_tokens_moved, List.getElem?_map, found] at braced
      injection braced with sameMarker
      injection sameMarker with sameName
      exact shorterName sameName
    · have member := List.mem_of_getElem? found
      rw [pos] at member
      exact List.mem_flatMap.mp member

end Forms

/-! ## Whole templates -/

/-- One template is read as another one is, but for the places: with the same words, or with the same fault. -/
structure ReadsAlike (bindings : Bindings α) (f : Nat → Nat) (one two : Text) : Prop where
  words : ∀ words, tokenize one bindings = .ok words → tokenize two bindings = .ok (words.map (Word.moved f))
  fault : ∀ e, tokenize one bindings = .error e →
    ∃ p : Nat, e = ⟨e.fault, one, some (p : Int)⟩ ∧ tokenize two bindings = .error ⟨e.fault, two, some (f p : Int)⟩

theorem readsAlike_of_words? {bindings : Bindings α} {f : Nat → Nat} {one two : Text}
    (same : words? bindings.get? two = State.answerMoved f [] (words? bindings.get? one)) :
    ReadsAlike bindings f one two := by
  constructor
  · intro words read
    refine tokenize_of_words? ?_
    rw [same, words?_of_tokenize read]
    rfl
  · intro e failed
    obtain ⟨p, found, unread⟩ := exists_fault_of_tokenize failed
    refine ⟨p, unread, tokenize_of_fault ?_⟩
    rw [same, found]
    rfl

/-- **Braces matter only around names that are no bare names.** Where a marker can stand, outside quotes or between
double quotes, and whatever is bound, an identifier that is a bare name may have braces or not: where nothing
continues it, the template is read alike, and what comes behind the marker moves on by the two braces. An identifier
that is no bare name needs them: without, the template cannot be read, or the marker has a shorter name. And the name
of a marker is an identifier where it has braces and a bare name where it has none. Of the first 128 characters, these
are the same names. -/
theorem forms_agree_on_bare_names (bindings : Bindings α) :
    (∀ (before name after : Text) (value : α) (within : Option Nat), Ends (fun _ => some ()) before within →
      Text.isIdentifier name = true → bindings.get? name = some value →
        (IsBareName name → (∀ r ∈ after.head?, Text.continuesName r = false) →
          ReadsAlike bindings (behindBraces before.length) (before ++ (Marker.render ⟨false, name, value⟩ ++ after))
            (before ++ (Marker.render ⟨true, name, value⟩ ++ after))) ∧
        (¬ IsBareName name → ∀ words,
          tokenize (before ++ (Marker.render ⟨false, name, value⟩ ++ after)) bindings = .ok words →
            tokenize (before ++ (Marker.render ⟨true, name, value⟩ ++ after)) bindings ≠
                .ok (words.map (Word.moved (behindBraces before.length))) ∧
              ∃ shorter value', shorter <+: name ∧ shorter ≠ name ∧ IsBareName shorter ∧
                ∃ w ∈ words, .marker shorter value' before.length within.isSome ∈ w.tokens)) ∧
    (∀ template words, tokenize template bindings = .ok words → ∀ w ∈ words, ∀ name value pos quoted,
      .marker name value pos quoted ∈ w.tokens →
        Marker.render ⟨true, name, value⟩ <+: template.drop pos ∧ Text.isIdentifier name = true ∨
          Marker.render ⟨false, name, value⟩ <+: template.drop pos ∧ IsBareName name) ∧
    (∀ name : Text, (∀ r ∈ name, isCommon r = true) → (IsBareName name ↔ Text.isIdentifier name = true)) ∧
    ∀ c : Char, c.toNat < 128 → isCommon (.char c) = true := by
  refine ⟨fun before name after value within ends identifier bound => ⟨fun bareName ended => ?_, ?_⟩, ?_,
    fun name common => isBareName_iff_isIdentifier common, fun c ascii => isCommon_of_ascii ascii⟩
  · exact readsAlike_of_words? (words?_braces ends bound identifier bareName ended)
  · intro other words read
    obtain ⟨differ, shorter⟩ := words?_braces_ne ends bound identifier other (words?_of_tokenize read)
    exact ⟨fun same => differ (words?_of_tokenize same), shorter⟩
  · intro template words read w inWords name value pos quoted inWord
    obtain ⟨braced, rest, stands, allowed⟩ := allowed_of_marker_mem read inWords inWord
    cases braced with
    | true => exact .inl ⟨stands, (allowed.identifier rfl).2⟩
    | false => exact .inr ⟨stands, (allowed.bareName rfl).1⟩

/-- A letter beyond the first 128 characters, between double quotes, and a letter with its accent behind it. -/
theorem forms_agree_on_letter :
    tokenize "cp \"$\x7bñ\x7d-$ñ\"" [("ñ", 7)] = .ok [⟨0, [.literal "cp" 0 false]⟩,
        ⟨3, [.marker "ñ" 7 4 true, .literal "-" 8 true, .marker "ñ" 7 9 true]⟩] ∧
      tokenize "$\x7be\u0301\x7d" [("e\u0301", 7), ("e", 8)] ≠
        .ok [⟨0, [.marker "e" 8 0 false, .literal "\u0301" 4 false]⟩] ∧
      (Marker.render ⟨true, "ñ", 7⟩ <+: Text.ofString "$ñ" ∧ Text.isIdentifier "ñ" = true ∨
        Marker.render ⟨false, "ñ", 7⟩ <+: Text.ofString "$ñ" ∧ IsBareName "ñ") ∧
      (IsBareName "_2" ↔ Text.isIdentifier "_2" = true) := by
  have within : Ends (fun _ => some ()) "cp \"" (some 3) := ⟨rfl, rfl, _, rfl⟩
  have bare : tokenize "cp \"$ñ-$ñ\"" [("ñ", 7)] = .ok [⟨0, [.literal "cp" 0 false]⟩,
      ⟨3, [.marker "ñ" 7 4 true, .literal "-" 6 true, .marker "ñ" 7 7 true]⟩] := rfl
  have shorter : tokenize "$e\u0301" [("e\u0301", 7), ("e", 8)] =
      .ok [⟨0, [.marker "e" 8 0 false, .literal "\u0301" 2 false]⟩] := rfl
  have sole : tokenize "$ñ" [("ñ", 7)] = .ok [⟨0, [.marker "ñ" 7 0 false]⟩] := rfl
  obtain ⟨agree, names, common, -⟩ := forms_agree_on_bare_names [(Text.ofString "ñ", 7)]
  obtain ⟨other, -⟩ := forms_agree_on_bare_names [(Text.ofString "e\u0301", 7), (Text.ofString "e", 8)]
  refine ⟨?_, ?_, ?_, common "_2" (by decide)⟩
  · exact ((agree "cp \"" "ñ" "-$ñ\"" 7 _ within rfl rfl).1 (by decide) (by decide)).words _ bare
  · exact ((other [] "e\u0301" [] 7 none ⟨_, rfl⟩ rfl rfl).2 (by decide) _ shorter).1
  · exact names _ _ sole _ List.mem_cons_self _ _ 0 _ List.mem_cons_self

/-- A letter with its accent behind it is an identifier and needs the braces, and a raised digit makes a name that is no
identifier. -/
theorem forms_differ_on_accent :
    Text.isIdentifier "e\u0301" = true ∧
      tokenize "$\x7be\u0301\x7d" [("e\u0301", ())] = .ok [⟨0, [.marker "e\u0301" () 0 false]⟩] ∧
      tokenize "$e\u0301" [("e\u0301", ())] = .error ⟨.unbound "e", "$e\u0301", some 0⟩ ∧
      tokenize "$x\u00b2" [("x\u00b2", ())] = .ok [⟨0, [.marker "x\u00b2" () 0 false]⟩] ∧
      Text.isIdentifier "x\u00b2" = false :=
  ⟨rfl, rfl, rfl, rfl, rfl⟩

end Pipework.Template
