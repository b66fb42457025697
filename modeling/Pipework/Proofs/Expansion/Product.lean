import Mathlib.Algebra.BigOperators.Group.List.Basic
import Pipework.Argument
import Pipework.Proofs.Expansion.Texts

/-!
# The arguments of a word

A word is a row of sites: places of one text, and places of an unquoted sequence that have one text for each
element. Its arguments are counted like numbers whose digits are the places of sequences, the rightmost
counting fastest (`Site.product`): how many there are is the product of the lengths, and the element that a
sequence contributes to the argument at an index is a digit of the index. Going through a word finds at every
token what the token stood for when the expansion began (`Expansion.Agrees`), so the arguments of words are
those products in order (`arguments_are_products`).
-/

namespace Pipework

/-! ## Sites -/

/-- What a token contributes to its word. -/
inductive Site where
  /-- One text. -/
  | fixed (text : Text)
  /-- One text for each element of an unquoted sequence. -/
  | each (texts : List Text)
deriving DecidableEq, Repr

namespace Site

/-- The texts of a site. -/
def texts : Site → List Text
  | fixed text => [text]
  | each texts => texts

/-- The lengths of the sequences, left to right. -/
def lengths : List Site → List Nat
  | [] => []
  | .fixed _ :: rest => lengths rest
  | .each texts :: rest => texts.length :: lengths rest

/-- How many arguments there are: one if there is no sequence, none if one is empty. -/
def count (sites : List Site) : Nat := (lengths sites).prod

/-- The argument at an index. A sequence contributes the element whose number is its digit of the index: the
index divided by the product of the lengths to its right, modulo its own length. -/
def pick (k : Nat) : List Site → Text
  | [] => []
  | .fixed text :: rest => text ++ pick k rest
  | .each texts :: rest => (texts[k / count rest % texts.length]?).getD [] ++ pick k rest

/-- The arguments at all indices, in order. -/
def product (sites : List Site) : List Text := (List.range (count sites)).map (pick · sites)

theorem count_each (texts : List Text) (rest : List Site) :
    count (.each texts :: rest) = texts.length * count rest := List.prod_cons

/-- Digits repeat when the index has gone through all arguments. -/
theorem pick_add (k i : Nat) (sites : List Site) : pick (k + i * count sites) sites = pick k sites := by
  induction sites generalizing i with
  | nil => rfl
  | cons site rest ih =>
    cases site with
    | fixed text => exact congrArg (text ++ ·) (ih i)
    | each texts =>
      have spread : i * (texts.length * count rest) = i * texts.length * count rest := (Nat.mul_assoc _ _ _).symm
      have digit : (k + i * texts.length * count rest) / count rest % texts.length =
          k / count rest % texts.length := by
        rcases Nat.eq_zero_or_pos (count rest) with none | some
        · rw [none, Nat.div_zero, Nat.div_zero]
        · rw [Nat.add_mul_div_right _ _ some, Nat.add_mul_mod_self_right]
      rw [count_each, spread, pick, pick, digit, ih]

/-- Counting on from the first element of a sequence: each element comes with all arguments of the rest. -/
private theorem map_range_elements (texts : List Text) (rest : List Site) :
    (List.range (texts.length * count rest)).map (fun k => (texts[k / count rest]?).getD [] ++ pick k rest) =
      texts.flatMap fun t => (product rest).map (t ++ ·) := by
  induction texts with
  | nil => simp
  | cons t texts ih =>
    have first : (List.range (count rest)).map
        (fun k => ((t :: texts)[k / count rest]?).getD [] ++ pick k rest) = (product rest).map (t ++ ·) := by
      rw [product, List.map_map]
      refine List.map_congr_left fun k member => ?_
      rw [Nat.div_eq_of_lt (List.mem_range.mp member)]
      rfl
    have later : (List.range (texts.length * count rest)).map
        ((fun k => ((t :: texts)[k / count rest]?).getD [] ++ pick k rest) ∘ (count rest + ·)) =
          texts.flatMap fun t => (product rest).map (t ++ ·) := by
      rw [← ih]
      refine List.map_congr_left fun k member => ?_
      have some : 0 < count rest := by
        rcases Nat.eq_zero_or_pos (count rest) with none | some
        · rw [none, Nat.mul_zero] at member
          cases member
        · exact some
      have onward : pick (count rest + k) rest = pick k rest := by
        have again := pick_add k 1 rest
        rwa [Nat.one_mul, Nat.add_comm] at again
      rw [Function.comp_apply, Nat.add_div_left k some, List.getElem?_cons_succ, onward]
    rw [List.length_cons, Nat.succ_mul, Nat.add_comm, List.range_add, List.map_append, List.map_map, first, later,
      List.flatMap_cons]

/-- The leftmost site varies slowest. -/
theorem product_cons (site : Site) (rest : List Site) :
    product (site :: rest) = site.texts.flatMap fun t => (product rest).map (t ++ ·) := by
  cases site with
  | fixed text => simp only [texts, List.flatMap_cons, List.flatMap_nil, List.append_nil, product, List.map_map]; rfl
  | each texts =>
    rw [Site.texts, ← map_range_elements, product, count_each]
    refine List.map_congr_left fun k member => ?_
    have inside : k / count rest < texts.length := by
      refine Nat.div_lt_of_lt_mul ?_
      rw [Nat.mul_comm]
      exact List.mem_range.mp member
    rw [pick, Nat.mod_eq_of_lt inside]

/-- Going through the sites from the left, with every text behind every beginning, comes to the product. -/
theorem foldl_combine (beginnings : List Text) (sites : List Site) :
    (sites.map texts).foldl Expansion.combine beginnings =
      beginnings.flatMap fun b => (product sites).map (b ++ ·) := by
  induction sites generalizing beginnings with
  | nil =>
    have only : product [] = [[]] := rfl
    simp [only]
  | cons site rest ih =>
    rw [List.map_cons, List.foldl_cons, ih, Expansion.combine, List.flatMap_assoc]
    refine List.flatMap_congr fun b _ => ?_
    rw [product_cons, List.map_flatMap, List.flatMap_map]
    simp only [List.map_map, Function.comp_def, List.append_assoc]

end Site

/-! ## What tokens stand for -/

namespace Expansion

/-- What was gathered from an object. -/
def gathered? (s : Expansion) (ref : ObjectRef) : Option (Nat × List Text) := s.gathered.find? (·.1 == ref.id)

/-- The texts of the elements of a value: those that were gathered before, or else those of the moment. -/
def elementTexts (s : Expansion) : Value → Except Failure (List Text)
  | .object ref =>
    match s.gathered? ref with
    | some (_, texts) => .ok texts
    | none => (s.memory.drain ref).1.map (List.map (Value.argument s.memory))
  | v => (s.memory.iterate v).1.map (List.map (Value.argument s.memory))

/-- What a token contributes: a literal its text, a scalar its argument, a quoted sequence the texts of its elements
with single spaces between them, an unquoted sequence one text for each element. -/
def site? (s : Expansion) : Template.Token Value → Except Failure Site
  | .literal text _ _ => .ok (.fixed text)
  | .marker _ value _ quoted =>
    match value.shape with
    | .error e => .error (e.failure s.memory)
    | .ok .scalar => .ok (.fixed (value.argument s.memory))
    | .ok .sequence => (s.elementTexts value).map fun texts =>
      if quoted then .fixed (Text.join [.char ' '] texts) else .each texts

/-- What the tokens of a word contribute. -/
def sites? (s : Expansion) (w : Template.Word Value) : Except Failure (List Site) := w.tokens.mapM s.site?

/-! ## What an expansion leaves as it is -/

/-- A later state of an expansion: every value has the text, and every object the elements, that it had before. -/
structure Agrees (s later : Expansion) : Prop where
  bytes : ∀ ref, later.memory.bytesOf ref = s.memory.bytesOf ref
  elements : ∀ ref, later.elementTexts (.object ref) = s.elementTexts (.object ref)

namespace Agrees

variable {s later last : Expansion}

theorem refl (s : Expansion) : s.Agrees s := ⟨fun _ => rfl, fun _ => rfl⟩

theorem trans (first : s.Agrees later) (second : later.Agrees last) : s.Agrees last :=
  ⟨fun ref => (second.bytes ref).trans (first.bytes ref), fun ref => (second.elements ref).trans (first.elements ref)⟩

theorem argument (agrees : s.Agrees later) : Value.argument later.memory = Value.argument s.memory :=
  Value.argument_congr agrees.bytes

theorem elementTexts (agrees : s.Agrees later) (v : Value) : later.elementTexts v = s.elementTexts v := by
  cases v with
  | object ref => exact agrees.elements ref
  | _ =>
    simp only [Expansion.elementTexts, agrees.argument]
    rfl

/-- Tokens go on to contribute what they contributed. -/
theorem site? (agrees : s.Agrees later) : later.site? = s.site? := by
  funext token
  cases token with
  | literal text pos quoted => rfl
  | marker name value pos quoted =>
    cases shape : value.shape with
    | error e => simp only [Expansion.site?, shape, value.failure_of_shapeless shape s.memory later.memory]
    | ok way =>
      cases way with
      | scalar => simp only [Expansion.site?, shape, agrees.argument]
      | sequence => simp only [Expansion.site?, shape, agrees.elementTexts]

theorem sites? (agrees : s.Agrees later) : later.sites? = s.sites? := by
  funext w
  rw [Expansion.sites?, Expansion.sites?, agrees.site?]

end Agrees

/-! ## Running an expansion -/

/-- The state after an object was gone through. -/
def visited (s : Expansion) (ref : ObjectRef) : Expansion :=
  { s with memory := (s.memory.drain ref).2, visits := s.visits ++ [ref.id] }

/-- The state after the texts of an object's elements were noted. -/
def noted (s : Expansion) (ref : ObjectRef) (texts : List Text) : Expansion :=
  { s with gathered := (ref.id, texts) :: s.gathered }

/-- A step goes on where the one before it ended, or stops with its failure. -/
theorem run_bind {α β : Type} (step : Expanding α) (next : α → Expanding β) (s : Expansion) :
    (step >>= next).run.run s =
      match step.run.run s with
      | (.ok a, later) => (next a).run.run later
      | (.error e, later) => (.error e, later) := by
  rw [ExceptT.run_bind, StateT.run_bind]
  rcases step.run.run s with ⟨_ | _, _⟩ <;> rfl

/-- A step of an expansion comes to a result, and later states agree with the state before. -/
structure Tells {α : Type} (step : Expanding α) (s : Expansion) (result : Except Failure α) : Prop where
  result : (step.run.run s).1 = result
  agrees : s.Agrees (step.run.run s).2

namespace Tells

variable {α β : Type} {s : Expansion}

theorem pure (a : α) : Tells (pure a) s (.ok a) := ⟨rfl, .refl s⟩

theorem throw (e : Failure) : Tells (throw e : Expanding α) s (.error e) := ⟨rfl, .refl s⟩

theorem bind {step : Expanding α} {next : α → Expanding β} {result : Except Failure α}
    {further : α → Except Failure β} (first : Tells step s result)
    (second : ∀ a later, result = .ok a → s.Agrees later → Tells (next a) later (further a)) :
    Tells (step >>= next) s (result.bind further) := by
  have whole := run_bind step next s
  have ran := first.result
  have agrees := first.agrees
  rcases outcome : step.run.run s with ⟨a, later⟩
  rw [outcome] at ran agrees whole
  cases ran
  cases a with
  | error e => exact ⟨by rw [whole]; rfl, by rw [whole]; exact agrees⟩
  | ok a =>
    have rest := second a later rfl agrees
    exact ⟨by rw [whole]; exact rest.result, by rw [whole]; exact agrees.trans rest.agrees⟩

theorem get {next : Expansion → Expanding β} {result : Except Failure β} (rest : Tells (next s) s result) :
    Tells (do next (← MonadState.get)) s result := by
  have whole : (do next (← MonadState.get) : Expanding β).run.run s = (next s).run.run s := rfl
  exact ⟨by rw [whole]; exact rest.result, by rw [whole]; exact rest.agrees⟩

/-- Going through a list, in which every item tells the same at every later moment. -/
theorem mapM {step : α → Expanding β} {result : α → Except Failure β} {items : List α}
    (each : ∀ item later, s.Agrees later → Tells (step item) later (result item)) :
    Tells (items.mapM step) s (items.mapM result) := by
  induction items generalizing s with
  | nil => exact pure []
  | cons item items ih =>
    rw [List.mapM_cons, List.mapM_cons]
    refine (each item s (.refl s)).bind fun b later _ agrees => ?_
    exact (ih fun other last further => each other last (agrees.trans further)).bind fun rest last _ _ => pure _

end Tells

/-- An object is looked up, or gone through and noted. -/
theorem run_elements (s : Expansion) (ref : ObjectRef) :
    (elements (.object ref)).run.run s =
      match s.gathered? ref, (s.memory.drain ref).1 with
      | some entry, _ => (.ok entry.2, s)
      | none, .error e => (.error e, s.visited ref)
      | none, .ok items =>
        let texts := items.map (Value.argument (s.visited ref).memory)
        (.ok texts, (s.visited ref).noted ref texts) := by
  have ran : (elements (.object ref)).run.run s =
      (match s.gathered? ref with
        | some (_, texts) => (return texts : Expanding (List Text))
        | none => do
          let items ← goThrough ref
          let texts := items.map (Value.argument (← get).memory)
          modify (noted · ref texts)
          return texts).run.run s := rfl
  rw [ran]
  cases s.gathered? ref with
  | some entry => rfl
  | none =>
    have gone : (goThrough ref).run.run s = ((s.memory.drain ref).1, s.visited ref) := rfl
    simp only [run_bind, gone]
    cases (s.memory.drain ref).1 <;> rfl

/-- What cannot be gone through stays so. -/
private theorem agrees_visited {s : Expansion} {ref : ObjectRef} {e : Failure}
    (failed : (s.memory.drain ref).1 = .error e) : s.Agrees (s.visited ref) := by
  rw [visited, Memory.drain_of_error failed]
  exact ⟨fun _ => rfl, fun _ => rfl⟩

/-- An object that was gone through has the elements that were found. -/
private theorem agrees_noted {s : Expansion} {ref : ObjectRef} {items : List Value}
    (fresh : s.gathered? ref = none) (found : (s.memory.drain ref).1 = .ok items) :
    s.Agrees ((s.visited ref).noted ref (items.map (Value.argument s.memory))) := by
  have texts : Value.argument (s.memory.drain ref).2 = Value.argument s.memory :=
    Value.argument_congr fun _ => Memory.bytesOf_drain
  refine ⟨fun other => Memory.bytesOf_drain, fun other => ?_⟩
  -- The object itself is known from now on; of any other neither the cell nor what is known of it has changed.
  by_cases same : ref.id = other.id
  · have known : s.elementTexts (.object other) = .ok (items.map (Value.argument s.memory)) := by
      have fresh : s.gathered? other = none := by rw [← fresh, gathered?, gathered?, same]
      simp only [elementTexts, fresh, ← Memory.drain_of_id same, found]
      rfl
    rw [known, elementTexts, gathered?, noted, List.find?_cons_of_pos (by simp [same])]
  · have untouched := Memory.drain_of_get? (Memory.get?_drain_ne (m := s.memory) same)
    rw [elementTexts, elementTexts, gathered?, noted, List.find?_cons_of_neg (by simpa using same)]
    simp only [visited, texts, untouched]
    rfl

/-- What the elements of a value are was gathered before, or is gathered now and stays known. -/
theorem tells_elements (v : Value) (s : Expansion) : Tells (elements v) s (s.elementTexts v) := by
  cases v with
  | object ref =>
    have ran := run_elements s ref
    cases known : s.gathered? ref with
    | some entry =>
      rw [known] at ran
      have told : s.elementTexts (.object ref) = .ok entry.2 := by rw [elementTexts, known]
      exact ⟨by rw [ran, told], by rw [ran]; exact .refl s⟩
    | none =>
      cases found : (s.memory.drain ref).1 with
      | error e =>
        rw [known, found] at ran
        have told : s.elementTexts (.object ref) = .error e := by
          rw [elementTexts, known, found]
          rfl
        exact ⟨by rw [ran, told], by rw [ran]; exact agrees_visited found⟩
      | ok items =>
        have texts : Value.argument (s.visited ref).memory = Value.argument s.memory :=
          Value.argument_congr fun _ => Memory.bytesOf_drain
        rw [known, found] at ran
        simp only [texts] at ran
        have told : s.elementTexts (.object ref) = .ok (items.map (Value.argument s.memory)) := by
          rw [elementTexts, known, found]
          rfl
        exact ⟨by rw [ran, told], by rw [ran]; exact agrees_noted known found⟩
  | _ => exact ⟨by simp only [elements, elementTexts]; rfl, .refl s⟩

/-- A token contributes what it stands for. -/
theorem tells_tokenTexts (token : Template.Token Value) (s : Expansion) :
    Tells (tokenTexts token) s ((s.site? token).map Site.texts) := by
  cases token with
  | literal text pos quoted => exact Tells.pure _
  | marker name value pos quoted =>
    cases shape : value.shape with
    | error e =>
      simp only [tokenTexts, site?, shape]
      exact Tells.get (Tells.throw _)
    | ok way =>
      cases way with
      | scalar =>
        simp only [tokenTexts, site?, shape]
        exact Tells.get (Tells.pure _)
      | sequence =>
        simp only [tokenTexts, site?, shape]
        have rest : Tells (do
              let texts ← elements value
              return if quoted then [Text.join [.char ' '] texts] else texts) s
            ((s.elementTexts value).bind fun texts => .ok (if quoted then [Text.join [.char ' '] texts] else texts)) :=
          (tells_elements value s).bind fun texts later _ _ => Tells.pure _
        convert rest using 1
        cases s.elementTexts value with
        | error e => rfl
        | ok texts => cases quoted <;> rfl

/-- Results that are changed afterwards. -/
private theorem mapM_changed {α β γ : Type} (f : α → Except Failure β) (g : β → γ) (items : List α) :
    items.mapM (fun a => (f a).map g) = (items.mapM f).map (List.map g) := by
  induction items with
  | nil => rfl
  | cons a items ih =>
    rw [List.mapM_cons, List.mapM_cons, ih]
    cases f a with
    | error e => rfl
    | ok b => cases items.mapM f <;> rfl

/-- A word becomes the product of what its tokens contribute. -/
theorem tells_expandWord (w : Template.Word Value) (s : Expansion) :
    Tells (expandWord w) s ((s.sites? w).map Site.product) := by
  have texts : Tells (w.tokens.mapM tokenTexts) s (w.tokens.mapM fun token => (s.site? token).map Site.texts) :=
    Tells.mapM fun token later agrees => by
      rw [← agrees.site?]
      exact tells_tokenTexts token later
  have whole : Tells (expandWord w) s ((w.tokens.mapM fun token => (s.site? token).map Site.texts).bind fun sites =>
      .ok (sites.foldl combine [[]])) := texts.bind fun sites _ _ _ => Tells.pure _
  have product : ((w.tokens.mapM fun token => (s.site? token).map Site.texts).bind fun sites =>
      .ok (sites.foldl combine [[]])) = (s.sites? w).map Site.product := by
    rw [mapM_changed, sites?]
    cases w.tokens.mapM s.site? with
    | error e => rfl
    | ok sites => exact congrArg Except.ok (by simpa using Site.foldl_combine [[]] sites)
  rwa [← product]

/-- Words become what each of them becomes, in order. -/
theorem tells_expandWords (words : List (Template.Word Value)) (s : Expansion) :
    Tells (expandWords words) s ((words.mapM s.sites?).map (List.flatMap Site.product)) := by
  induction words generalizing s with
  | nil => exact Tells.pure []
  | cons w rest ih =>
    have whole : Tells (expandWords (w :: rest)) s
        (((s.sites? w).map Site.product).bind fun texts =>
          ((rest.mapM s.sites?).map (List.flatMap Site.product)).bind fun others => .ok (texts ++ others)) := by
      refine (tells_expandWord w s).bind fun texts later _ agrees => ?_
      have onward (last : Expansion) (agrees : s.Agrees last) :
          Tells (do return texts ++ (← expandWords rest)) last
            (((rest.mapM s.sites?).map (List.flatMap Site.product)).bind fun others => .ok (texts ++ others)) := by
        have others := ih last
        rw [agrees.sites?] at others
        exact others.bind fun _ _ _ _ => Tells.pure _
      dsimp only
      split
      · have note : Tells (modify fun s => { s with notes := s.notes ++ [⟨w.pos, texts.length⟩] } : Expanding PUnit)
            later (.ok ⟨⟩) := ⟨rfl, fun _ => rfl, fun _ => rfl⟩
        exact note.bind fun _ last _ further => onward last (agrees.trans further)
      · exact onward later agrees
    convert whole using 1
    rw [List.mapM_cons]
    cases s.sites? w with
    | error e => rfl
    | ok sites => cases rest.mapM s.sites? <;> rfl

end Expansion

/-- **The arguments of a word are the product of its sites.** At any moment of an expansion, a word fails with the
failure of its first token that has one, or becomes as many arguments as the product of the lengths of its unquoted
sequences. The argument at an index joins the texts of its tokens, where a sequence gives the element whose number is
the index divided by the product of the lengths to the right, modulo its own length. The arguments of some words are
those of each word, in order. -/
theorem arguments_are_products :
    (∀ (w : Template.Word Value) (s : Expansion),
      ((Expansion.expandWord w).run.run s).1 = (s.sites? w).map Site.product) ∧
    (∀ sites : List Site, (Site.product sites).length = (Site.lengths sites).prod) ∧
    (∀ (sites : List Site) (k : Nat), (Site.product sites)[k]? =
      if k < (Site.lengths sites).prod then some (Site.pick k sites) else none) ∧
    ∀ (words : List (Template.Word Value)) (memory : Memory), (expand words memory).arguments =
      (words.mapM (Expansion.sites? { memory })).map (List.flatMap Site.product) := by
  refine ⟨fun w s => (Expansion.tells_expandWord w s).result, fun sites => ?_, fun sites k => ?_,
    fun words memory => (Expansion.tells_expandWords words { memory }).result⟩
  · rw [Site.product, List.length_map, List.length_range, Site.count]
  · rw [Site.product, List.getElem?_map, Site.count]
    split
    next inside => rw [List.getElem?_range inside, Option.map_some]
    next beyond => rw [List.getElem?_eq_none (by simpa using beyond), Option.map_none]

example : Site.product [.each ["a", "b"], .fixed "-", .each ["1", "2", "3"]] =
    ["a-1", "a-2", "a-3", "b-1", "b-2", "b-3"] := by decide

end Pipework
