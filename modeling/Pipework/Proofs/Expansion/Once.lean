import Mathlib.Data.List.Nodup
import Pipework.Proofs.Expansion.Product
import Pipework.Proofs.Template.Outline

/-!
# Objects that can be gone through once

An expansion goes through an object the first time that it meets it, and remembers the texts; a second time would
find nothing. While it runs, every object that it went through is among those that it remembers, so none is gone
through again (`Expansion.Running`), and what it changed in memory is that these objects have nothing left. What
tokens contribute is therefore settled before the expansion begins: an object contributes what a tuple of the
elements it has left would (`Expansion.sites?_frozen`), wherever it stands and however often
(`one_shots_are_gone_through_once`).
-/

namespace Pipework

/-! ## One tuple for each object -/

/-- A value, with one tuple of the elements that it has left for an object that stands for its elements. What cannot
be gone through stays as it is. -/
def Value.frozen (m : Memory) : Value → Value
  | .object ref =>
    match (Value.object ref).shape, (m.drain ref).1 with
    | .ok .sequence, .ok items => .tuple (m.itemsAmong (.own ref.id) (.object ref) items)
    | _, _ => .object ref
  | v => v

namespace Memory

/-- The elements of an object as items hold these elements. -/
theorem itemsAmong_drain {m : Memory} {ref : ObjectRef} {items : List Value} (whole : Label)
    (found : (m.drain ref).1 = .ok items) :
    (m.itemsAmong whole (.object ref) items).map (·.it) = items := by
  have rest : m.restOf ref = [] ∨ (m.restOf ref).map (·.it) = items := by
    unfold drain at found
    unfold restOf
    cases known : m.get? ref with
    | none => exact .inl rfl
    | some cell =>
      rw [known] at found
      cases cell with
      | iterator rest =>
        cases found
        exact .inr rfl
      | byteArray | byteStream | textStream | sink | textSink | source => exact .inl rfl
  have kept : m.keptItems (.object ref) = m.restOf ref := by rw [keptItems]
  have made : (items.mapIdx fun n element => (⟨.part whole (Text.ofNat n), element⟩ : Item)).map (·.it) = items := by
    refine List.ext_getElem? fun i => ?_
    rw [List.getElem?_map, List.getElem?_mapIdx]
    cases items[i]? <;> rfl
  rw [itemsAmong, kept]
  rcases rest with none | same
  · rw [none]
    exact made
  · cases there : m.restOf ref with
    | nil => exact made
    | cons item rest => rwa [there] at same

end Memory

namespace Expansion

/-- A token with tuples for objects contributes, in any memory with the same byte arrays and the same faults, what
it contributes itself. -/
theorem site?_frozen {now m : Memory} (bytes : ∀ ref, m.bytesOf ref = now.bytesOf ref)
    (faults : ∀ ref e, (now.drain ref).1 = .error e → (m.drain ref).1 = .error e) (token : Template.Token Value) :
    site? { memory := m } (token.map (Value.frozen now)) = site? { memory := now } token := by
  have texts : Value.argument m = Value.argument now := Value.argument_congr bytes
  have same (v : Value) (elements : v.shape = .ok .sequence →
      elementTexts { memory := m } v = elementTexts { memory := now } v) (name : Text) (pos : Nat) (quoted : Bool) :
      site? { memory := m } (.marker name v pos quoted) = site? { memory := now } (.marker name v pos quoted) := by
    cases shape : v.shape with
    | error e => simp only [site?, shape, v.failure_of_shapeless shape m now]
    | ok way =>
      cases way with
      | scalar => simp only [site?, shape, texts]
      | sequence => simp only [site?, shape, elements shape]
  cases token with
  | literal text pos quoted => rfl
  | marker name value pos quoted =>
    cases value with
    | object ref =>
      have lasting (m : Memory) : elementTexts { memory := m } (.object ref) =
          (m.drain ref).1.map (List.map (Value.argument m)) := rfl
      rw [Template.Token.map, Value.frozen]
      cases shape : (Value.object ref).shape with
      | error e => exact same _ (fun sequence => by rw [shape] at sequence; cases sequence) name pos quoted
      | ok way =>
        cases way with
        | scalar => exact same _ (fun sequence => by rw [shape] at sequence; cases sequence) name pos quoted
        | sequence =>
          cases found : (now.drain ref).1 with
          | error e =>
            refine same _ (fun _ => ?_) name pos quoted
            rw [lasting, lasting, found, faults ref e found]
            rfl
          | ok items =>
            have tuple : elementTexts { memory := m } (.tuple (now.itemsAmong (.own ref.id) (.object ref) items)) =
                elementTexts { memory := now } (.object ref) := by
              have listed : elementTexts { memory := m } (.tuple (now.itemsAmong (.own ref.id) (.object ref) items)) =
                  .ok (((now.itemsAmong (.own ref.id) (.object ref) items).map (·.it)).map (Value.argument m)) := rfl
              rw [listed, Memory.itemsAmong_drain _ found, lasting, found, texts]
              rfl
            have sequence (items : List Item) : (Value.tuple items).shape = .ok .sequence := rfl
            simp only [site?, shape, sequence, tuple]
    | _ => exact same _ (fun _ => by simp only [elementTexts, texts]; rfl) name pos quoted

/-- Words with tuples for objects contribute what they contribute themselves. -/
theorem sites?_frozen {now m : Memory} (bytes : ∀ ref, m.bytesOf ref = now.bytesOf ref)
    (faults : ∀ ref e, (now.drain ref).1 = .error e → (m.drain ref).1 = .error e) (w : Template.Word Value) :
    sites? { memory := m } (w.map (Value.frozen now)) = sites? { memory := now } w := by
  rw [sites?, sites?, Template.Word.map, List.mapM_map]
  exact congrArg (w.tokens.mapM ·) (funext fun token => site?_frozen bytes faults token)

/-! ## What an expansion goes through -/

/-- What an expansion did to a memory: it went through no object twice, and what it went through has nothing left. -/
structure Spent (m : Memory) (s : Expansion) : Prop where
  once : s.visits.Nodup
  left : ∀ ref, s.memory.get? ref = if ref.id ∈ s.visits then (m.get? ref).map Cell.spent else m.get? ref

/-- As long as it goes on, it remembers what it went through. -/
structure Running (m : Memory) (s : Expansion) : Prop extends Spent m s where
  known : ∀ ref, ref.id ∈ s.visits → s.gathered? ref ≠ none

/-- An expansion begins with nothing gone through. -/
theorem Running.begin (m : Memory) : Running m { memory := m } where
  once := .nil
  left _ := by rw [if_neg List.not_mem_nil]
  known _ visited := by cases visited

/-- Nothing is left twice over. -/
private theorem spent_spent (cell : Option Cell) : (cell.map Cell.spent).map Cell.spent = cell.map Cell.spent := by
  cases cell with
  | none => rfl
  | some cell => cases cell <;> rfl

/-- An object that is not remembered was not gone through before. -/
theorem Running.visited {m : Memory} {s : Expansion} (running : Running m s) {ref : ObjectRef}
    (fresh : s.gathered? ref = none) : Spent m (s.visited ref) where
  once := by
    have unseen : ref.id ∉ s.visits := fun seen => running.known ref seen fresh
    rw [Expansion.visited, ← List.concat_eq_append]
    exact (List.nodup_concat _ _).mpr ⟨unseen, running.once⟩
  left other := by
    -- What was gone through before is another object, which stays spent.
    have unseen : ref.id ∉ s.visits := fun seen => running.known ref seen fresh
    have now := running.left other
    rw [Expansion.visited, Memory.get?_drain, now]
    by_cases same : ref.id = other.id
    · simp [← same, unseen]
    · simp [same, Ne.symm same]

/-- What was gone through is remembered from then on. -/
theorem Running.noted {m : Memory} {s : Expansion} (running : Running m s) {ref : ObjectRef}
    (fresh : s.gathered? ref = none) (texts : List Text) : Running m ((s.visited ref).noted ref texts) where
  once := (running.visited fresh).once
  left := (running.visited fresh).left
  known other seen := by
    rw [gathered?, Expansion.noted]
    by_cases same : ref.id = other.id
    · rw [List.find?_cons_of_pos (by simp [same])]
      exact Option.some_ne_none _
    · rw [List.find?_cons_of_neg (by simpa using same)]
      have before : other.id ∈ s.visits := by
        rcases List.mem_append.mp seen with before | here
        · exact before
        · exact absurd (List.mem_singleton.mp here).symm same
      exact running.known other before

/-- A step of an expansion goes through no object twice, and remembers what it went through unless it fails. -/
structure Careful {α : Type} (m : Memory) (step : Expanding α) : Prop where
  spent : ∀ s, Running m s → Spent m (step.run.run s).2
  running : ∀ s, Running m s → ∀ a, (step.run.run s).1 = .ok a → Running m (step.run.run s).2

namespace Careful

variable {α β : Type} {m : Memory}

theorem pure (a : α) : Careful m (pure a) := ⟨fun _ running => running.toSpent, fun _ running _ _ => running⟩

theorem throw (e : Failure) : Careful m (throw e : Expanding α) :=
  ⟨fun _ running => running.toSpent, fun _ running _ _ => running⟩

theorem get : Careful m (MonadState.get : Expanding Expansion) :=
  ⟨fun _ running => running.toSpent, fun _ running _ _ => running⟩

theorem bind {step : Expanding α} {next : α → Expanding β} (first : Careful m step)
    (second : ∀ a, Careful m (next a)) : Careful m (step >>= next) := by
  refine ⟨fun s running => ?_, fun s running b ended => ?_⟩
  · have spent := first.spent s running
    have onward := first.running s running
    rw [run_bind]
    rcases outcome : step.run.run s with ⟨e | a, later⟩
    · rwa [outcome] at spent
    · rw [outcome] at onward
      exact (second a).spent later (onward a rfl)
  · have onward := first.running s running
    rw [run_bind] at ended ⊢
    rcases outcome : step.run.run s with ⟨e | a, later⟩
    · rw [outcome] at ended
      cases ended
    · rw [outcome] at onward ended
      exact (second a).running later (onward a rfl) b ended

theorem mapM {step : α → Expanding β} (each : ∀ a, Careful m (step a)) (items : List α) :
    Careful m (items.mapM step) := by
  induction items with
  | nil => exact pure []
  | cons item items ih =>
    rw [List.mapM_cons]
    exact (each item).bind fun _ => ih.bind fun _ => pure _

end Careful

variable {m : Memory}

theorem careful_elements (v : Value) : Careful m (elements v) := by
  cases v with
  | object ref =>
    refine ⟨fun s running => ?_, fun s running texts ended => ?_⟩
    · rw [run_elements]
      cases known : s.gathered? ref with
      | some entry => exact running.toSpent
      | none =>
        cases (s.memory.drain ref).1 with
        | error e => exact running.visited known
        | ok items => exact (running.noted known _).toSpent
    · rw [run_elements] at ended ⊢
      cases known : s.gathered? ref with
      | some entry => exact running
      | none =>
        rw [known] at ended
        cases found : (s.memory.drain ref).1 with
        | error e =>
          rw [found] at ended
          cases ended
        | ok items => exact running.noted known _
  | _ =>
    refine Careful.get.bind fun s => ?_
    refine Careful.bind ⟨fun _ running => running.toSpent, fun _ running _ _ => running⟩ fun items => Careful.pure _

theorem careful_tokenTexts (token : Template.Token Value) : Careful m (tokenTexts token) := by
  cases token with
  | literal text pos quoted => exact Careful.pure _
  | marker name value pos quoted =>
    cases shape : value.shape with
    | error e =>
      simp only [tokenTexts, shape]
      exact Careful.get.bind fun _ => Careful.throw _
    | ok way =>
      cases way with
      | scalar =>
        simp only [tokenTexts, shape]
        exact Careful.get.bind fun _ => Careful.pure _
      | sequence =>
        simp only [tokenTexts, shape]
        exact (careful_elements value).bind fun _ => Careful.pure _

theorem careful_expandWord (w : Template.Word Value) : Careful m (expandWord w) :=
  (Careful.mapM careful_tokenTexts w.tokens).bind fun _ => Careful.pure _

theorem careful_expandWords (words : List (Template.Word Value)) : Careful m (expandWords words) := by
  induction words with
  | nil => exact Careful.pure []
  | cons w rest ih =>
    refine (careful_expandWord w).bind fun texts => ?_
    have onward : Careful m (do return texts ++ (← expandWords rest)) := ih.bind fun _ => Careful.pure _
    dsimp only
    split
    · have note : Careful m (modify fun s => { s with notes := s.notes ++ [⟨w.pos, texts.length⟩] } : Expanding PUnit) :=
        ⟨fun _ running => ⟨running.once, running.left⟩, fun _ running _ _ =>
          ⟨⟨running.once, running.left⟩, running.known⟩⟩
      exact note.bind fun _ => onward
    · exact onward

/-! ## One expansion after another -/

/-- The objects that the expansion of some words goes through, by number, once for each time. -/
def visitsOf (words : List (Template.Word Value)) (m : Memory) : List Nat :=
  ((expandWords words).run.run { memory := m }).2.visits

/-- What is left in memory after some calls for an expansion, whether they came to arguments or failed. -/
def memoryAfter (m : Memory) (calls : List (List (Template.Word Value))) : Memory :=
  calls.foldl (fun m words => (expand words m).memory) m

/-- The objects that some calls for an expansion went through. -/
def visitsAfter (m : Memory) : List (List (Template.Word Value)) → List Nat
  | [] => []
  | words :: calls => visitsOf words m ++ visitsAfter (expand words m).memory calls

/-- An expansion goes through no object twice, and what it went through has nothing left. -/
theorem spent_expandWords (words : List (Template.Word Value)) (m : Memory) :
    Spent m ((expandWords words).run.run { memory := m }).2 :=
  (careful_expandWords words).spent _ (Running.begin m)

/-- What was gone through has nothing left; nothing else has changed. -/
theorem get?_memoryAfter (m : Memory) (calls : List (List (Template.Word Value))) (ref : ObjectRef) :
    (memoryAfter m calls).get? ref =
      if ref.id ∈ visitsAfter m calls then (m.get? ref).map Cell.spent else m.get? ref := by
  induction calls generalizing m with
  | nil => exact (if_neg List.not_mem_nil).symm
  | cons words calls ih =>
    have first : (expand words m).memory.get? ref =
        if ref.id ∈ visitsOf words m then (m.get? ref).map Cell.spent else m.get? ref :=
      (spent_expandWords words m).left ref
    have later := ih (expand words m).memory
    rw [memoryAfter, List.foldl_cons, ← memoryAfter, later, first, visitsAfter]
    by_cases before : ref.id ∈ visitsOf words m
    · simp only [before, if_true, List.mem_append, true_or, spent_spent, ite_self]
    · simp only [before, if_false, List.mem_append, false_or]

theorem get?_memoryAfter_or (m : Memory) (calls : List (List (Template.Word Value))) (ref : ObjectRef) :
    (memoryAfter m calls).get? ref = m.get? ref ∨
      (memoryAfter m calls).get? ref = (m.get? ref).map Cell.spent := by
  rw [get?_memoryAfter]
  split
  · exact .inr rfl
  · exact .inl rfl

end Expansion

/-- The arguments of words are those of the words with tuples for objects, also in the memory before some calls. -/
private theorem arguments_frozen (m : Memory) (calls : List (List (Template.Word Value)))
    (words : List (Template.Word Value)) :
    (expand (words.map (Template.Word.map (Value.frozen (Expansion.memoryAfter m calls)))) m).arguments =
      (expand words (Expansion.memoryAfter m calls)).arguments := by
  have told (words : List (Template.Word Value)) (m : Memory) : (expand words m).arguments =
      (words.mapM (Expansion.sites? { memory := m })).map (List.flatMap Site.product) :=
    (Expansion.tells_expandWords words { memory := m }).result
  have sites (w : Template.Word Value) :=
    Expansion.sites?_frozen
      (fun ref => (Memory.bytesOf_of_spent (Expansion.get?_memoryAfter_or m calls ref)).symm)
      (fun ref _ => Memory.drain_error_of_spent (Expansion.get?_memoryAfter_or m calls ref)) w
  rw [told, told, List.mapM_map]
  exact congrArg (fun f => (words.mapM f).map (List.flatMap Site.product)) (funext sites)

/-- **One-shot objects behave like lists.** A template with its names bound comes to the same arguments, or fails with
the same error, as when at every name an object that can be gone through is one tuple of the elements it has left. No
object is gone through twice. And after any calls, successful or failed, the arguments are those that the words with
such tuples had before the calls: what the calls changed is that the objects that they went through have nothing
left. -/
theorem one_shots_behave_like_lists (m : Memory) :
    (∀ (template : Text) (bindings : Template.Bindings Value),
      (Template.tokenize template bindings).map (fun words => (expand words m).arguments) =
        (Template.tokenize template (bindings.map (Value.frozen m))).map fun words => (expand words m).arguments) ∧
    (∀ words : List (Template.Word Value), (Expansion.visitsOf words m).Nodup) ∧
    ∀ calls : List (List (Template.Word Value)),
      (∀ ref, (Expansion.memoryAfter m calls).get? ref =
        if ref.id ∈ Expansion.visitsAfter m calls then (m.get? ref).map Cell.spent else m.get? ref) ∧
      ∀ words : List (Template.Word Value), (expand words (Expansion.memoryAfter m calls)).arguments =
        (expand (words.map (Template.Word.map (Value.frozen (Expansion.memoryAfter m calls)))) m).arguments := by
  refine ⟨fun template bindings => ?_, fun words => (Expansion.spent_expandWords words m).once, fun calls =>
    ⟨Expansion.get?_memoryAfter m calls, fun words => (arguments_frozen m calls words).symm⟩⟩
  rw [Template.tokenize_map]
  cases Template.tokenize template bindings with
  | error e => rfl
  | ok words => exact congrArg Except.ok (arguments_frozen m [] words).symm

/-- An iterator with two elements left, unquoted and quoted. -/
example : (expand [⟨0, [.marker "g" (.object ⟨0, .iterator⟩) 0 false, .literal "-" 2 false,
      .marker "h" (.object ⟨0, .iterator⟩) 4 true]⟩]
    { cells := [.iterator [⟨.own 1, .str "a"⟩, ⟨.own 2, .str "b"⟩]] }).arguments = .ok ["a-a b", "b-a b"] := by
  rfl

end Pipework
