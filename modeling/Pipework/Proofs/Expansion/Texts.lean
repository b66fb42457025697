import Pipework.Value.Sequence

/-!
# Going through objects changes no text

The text of a value depends on the memory only through the content of byte arrays (`Value.render_congr`).
Going through an object moves it to its end and leaves every other object and every content as it was
(`Memory.get?_drain`), so the argument that a value becomes is the same before and after
(`Value.argument_congr` with `Memory.bytesOf_drain`).
-/

namespace Pipework

/-! ## What a text depends on -/

section Congr

set_option linter.unusedSectionVars false

variable {m m' : Memory} (same : ∀ ref, m'.bytesOf ref = m.bytesOf ref)
include same

mutual

/-- The text of a value is that of the moment, but only byte arrays have moments. -/
theorem Value.render_congr (plain : Bool) : (v : Value) → v.render m' plain = v.render m plain
  | .none | .bool _ | .int _ | .float _ | .str _ | .bytes _ | .view _ | .path _ | .bytePath _ | .range ..
  | .plain _ | .file _ | .lostFile _ | .command .. | .operation _ => rfl
  | .list items => by simp only [Value.render, Value.shownAll_congr items]
  | .tuple items => by simp only [Value.render, Value.shownAll_congr items]
  | .set items => by simp only [Value.render, Value.shownAll_congr items]
  | .dict entries => by simp only [Value.render, Value.shownEntries_congr entries]
  | .object ref => by simp only [Value.render, same]
  | .graph g => by simp only [Value.render, Graph.shown_congr g]
  | .target t => by simp only [Value.render, Target.shown_congr t]
  | .redirects r => by simp only [Value.render, Redirects.texts_congr r]

theorem Value.shownAll_congr : (items : List Item) → Value.shownAll m' items = Value.shownAll m items
  | [] => rfl
  | ⟨_, v⟩ :: rest => by simp only [Value.shownAll, Value.render_congr false v, Value.shownAll_congr rest]

theorem Value.shownEntries_congr : (entries : List (Text × Item)) →
    Value.shownEntries m' entries = Value.shownEntries m entries
  | [] => rfl
  | (_, ⟨_, v⟩) :: rest => by
    simp only [Value.shownEntries, Value.render_congr false v, Value.shownEntries_congr rest]

theorem Graph.shown_congr : (g : Graph) → Graph.shown m' g = Graph.shown m g
  | .leaf _ ⟨_, command⟩ r => by
    simp only [Graph.shown, Value.render_congr true command, Redirects.shownWithin_congr r]
  | .pipe _ left right r => by
    simp only [Graph.shown, Graph.shown_congr left, Graph.shown_congr right, Redirects.shownWithin_congr r]
  | .group _ _ members r => by
    simp only [Graph.shown, Graph.shownAll_congr members, Redirects.shownWithin_congr r]
  | .unknown .. => rfl
  | .stray ⟨_, v⟩ => by simp only [Graph.shown, Value.render_congr false v]

theorem Graph.shownAll_congr : (graphs : List Graph) → Graph.shownAll m' graphs = Graph.shownAll m graphs
  | [] => rfl
  | g :: rest => by simp only [Graph.shownAll, Graph.shown_congr g, Graph.shownAll_congr rest]

theorem Redirects.shownWithin_congr : (r : Redirects) → Redirects.shownWithin m' r = Redirects.shownWithin m r
  | ⟨stdin, stdout, stderr, _⟩ => by
    simp only [Redirects.shownWithin, Target.texts_congr _ stdin, Target.texts_congr _ stdout,
      Target.texts_congr _ stderr]

theorem Redirects.texts_congr : (r : Redirects) → Redirects.texts m' r = Redirects.texts m r
  | ⟨stdin, stdout, stderr, _⟩ => by
    simp only [Redirects.texts, Target.texts_congr _ stdin, Target.texts_congr _ stdout, Target.texts_congr _ stderr]

theorem Target.texts_congr (s : Stream) : (t : Option (Labelled Target)) → Target.texts m' s t = Target.texts m s t
  | none => rfl
  | some ⟨_, t⟩ => by simp only [Target.texts, Target.shown_congr t]

theorem Target.shown_congr : (t : Target) → Target.shown m' t = Target.shown m t
  | .graph g => by simp only [Target.shown, Graph.shown_congr g]
  | .file ⟨_, path⟩ _ => by simp only [Target.shown, Value.render_congr true path]
  | .stream ⟨_, v⟩ => by simp only [Target.shown, Value.render_congr false v]
  | .buffer _ | .endpoint | .unknown _ => rfl
  | .stray ⟨_, v⟩ => by simp only [Target.shown, Value.render_congr false v]

end

/-- The argument that a value becomes depends on the memory as its text does. -/
theorem Value.argument_congr : Value.argument m' = Value.argument m := by
  funext v
  cases v with
  | str | bytes | path | bytePath => rfl
  | object ref => simp only [argument, same, shown, render_congr same]
  | _ => exact render_congr same true _

end Congr

/-- Only mappings have no shape, and what is said of them is the same at any moment. -/
theorem Value.failure_of_shapeless (v : Value) {e : BuildError} (shapeless : v.shape = .error e) (m m' : Memory) :
    e.failure m' = e.failure m := by
  cases v with
  | dict entries =>
    cases shapeless
    rfl
  | object ref =>
    obtain ⟨id, kind⟩ := ref
    cases kind <;> cases shapeless
  | _ => cases shapeless

/-! ## Going through an object -/

/-- What is left of an object once it was gone through. A byte array, and what cannot be gone through,
stays as it is. -/
def Cell.spent : Cell → Cell
  | .iterator _ => .iterator []
  | .byteStream content _ => .byteStream content content.length
  | .textStream content _ => .textStream content content.length
  | cell => cell

namespace Memory

variable {m : Memory} {ref other : ObjectRef}

private theorem get?_put_self {cell old : Cell} (known : m.get? ref = some old) : (m.put ref cell).get? ref = some cell := by
  have inside : ref.id < m.cells.length := (List.getElem?_eq_some_iff.mp known).1
  simp only [put, get?, List.getElem?_set_self inside]

private theorem get?_put_ne {cell : Cell} (apart : ref.id ≠ other.id) : (m.put ref cell).get? other = m.get? other := by
  simp only [put, get?, List.getElem?_set_ne apart]

/-- References to one object find the same. -/
theorem get?_of_id (same : ref.id = other.id) : m.get? ref = m.get? other := by
  rw [get?, get?, same]

/-- What going through an object gives is a matter of its cell. -/
theorem drain_of_get? {m' : Memory} (same : m'.get? ref = m.get? ref) : (m'.drain ref).1 = (m.drain ref).1 := by
  unfold drain
  rw [same]
  cases m.get? ref with
  | none => rfl
  | some cell => cases cell <;> rfl

theorem drain_of_id (same : ref.id = other.id) : m.drain ref = m.drain other := by
  unfold drain
  rw [get?_of_id same]
  cases m.get? other with
  | none => rfl
  | some cell => cases cell <;> simp only [put, same]

/-- Going through an object leaves its cell spent. -/
theorem get?_drain_self : (m.drain ref).2.get? ref = (m.get? ref).map Cell.spent := by
  unfold drain
  cases known : m.get? ref with
  | none => exact known
  | some cell =>
    cases cell with
    | iterator | byteStream | textStream => exact get?_put_self known
    | byteArray | sink | textSink | source => exact known

theorem get?_drain_ne (apart : ref.id ≠ other.id) : (m.drain ref).2.get? other = m.get? other := by
  unfold drain
  cases m.get? ref with
  | none => rfl
  | some cell =>
    cases cell with
    | iterator | byteStream | textStream => exact get?_put_ne apart
    | byteArray | sink | textSink | source => rfl

/-- Going through one object changes no other. -/
theorem get?_drain : (m.drain ref).2.get? other =
    if ref.id = other.id then (m.get? other).map Cell.spent else m.get? other := by
  split
  next same => rw [← get?_of_id same, get?_drain_self, get?_of_id same]
  next apart => exact get?_drain_ne apart

/-- Byte arrays keep their content. -/
theorem bytesOf_of_spent {m' : Memory}
    (same : m'.get? other = m.get? other ∨ m'.get? other = (m.get? other).map Cell.spent) :
    m'.bytesOf other = m.bytesOf other := by
  rcases same with same | spent
  · rw [bytesOf, bytesOf, same]
  · rw [bytesOf, bytesOf, spent]
    cases m.get? other with
    | none => rfl
    | some cell => cases cell <;> rfl

theorem bytesOf_drain : (m.drain ref).2.bytesOf other = m.bytesOf other := by
  refine bytesOf_of_spent ?_
  rw [get?_drain]
  split
  · exact .inr rfl
  · exact .inl rfl

/-- What cannot be gone through could not be gone through before. -/
theorem drain_error_of_spent {m' : Memory} {e : Failure}
    (same : m'.get? ref = m.get? ref ∨ m'.get? ref = (m.get? ref).map Cell.spent)
    (failed : (m'.drain ref).1 = .error e) : (m.drain ref).1 = .error e := by
  rcases same with same | spent
  · rwa [← drain_of_get? same]
  · unfold drain at failed ⊢
    rw [spent] at failed
    cases known : m.get? ref with
    | none =>
      rw [known] at failed
      exact failed
    | some cell =>
      rw [known] at failed
      cases cell with
      | iterator | byteStream | textStream | byteArray => cases failed
      | sink | textSink | source => exact failed

/-- What cannot be gone through is left alone. -/
theorem drain_of_error {e : Failure} (failed : (m.drain ref).1 = .error e) : (m.drain ref).2 = m := by
  unfold drain at failed ⊢
  cases known : m.get? ref with
  | none => rfl
  | some cell =>
    rw [known] at failed
    cases cell with
    | iterator | byteStream | textStream | byteArray => cases failed
    | sink | textSink | source => rfl

end Memory

end Pipework
