import Pipework.Proofs.Capture.Pieces
import Pipework.Proofs.Pump.Starting

/-!
# What no step looks at

Nothing reads the trace, and of the descriptors that were given up nothing reads more than what each of them
led to. So in two systems that differ in nothing else (`World.Alike`) a step comes to the same, and leaves them
alike. Such a step is blind (`Sim.Blind`, `Owning.Blind`).
-/

namespace Pipework

open World

/-! ## Systems that are alike -/

namespace World

/-- Two systems that are the same but for the trace, and for the order in which descriptors were given up. -/
abbrev Alike (w w' : World) : Prop := w.Ahead 0 0 w'

variable {w w' : World} {pipe : Nat}

theorem alike_iff : w.Alike w' ↔ ∃ trace retired, w' = { w with trace, retired } ∧
    ∀ d, retired.find? (·.1 == d) = w.retired.find? (·.1 == d) := by
  constructor
  · intro alike
    have same := alike.same
    rw [ahead_zero] at same
    exact ⟨_, _, same, alike.retired⟩
  · rintro ⟨trace, retired, rfl, lookups⟩
    exact ⟨(ahead_zero w 0 trace retired).symm, Nat.zero_le _, .inl rfl, lookups⟩

/-- Without any distance it does not matter which pipe it is about. -/
theorem Ahead.alike (ahead : w.Ahead pipe 0 w') : w.Alike w' := by
  have same := ahead.same
  rw [ahead_zero] at same
  exact alike_iff.mpr ⟨_, _, same, ahead.retired⟩

namespace Alike

theorem trans {v : World} (first : w.Alike v) (second : v.Alike w') : w.Alike w' := by
  obtain ⟨_, _, rfl, lookups⟩ := alike_iff.mp first
  obtain ⟨_, _, rfl, lookups'⟩ := alike_iff.mp second
  exact alike_iff.mpr ⟨_, _, rfl, fun d => (lookups' d).trans (lookups d)⟩

/-- In which order two descriptors are given up makes no difference. -/
theorem shut_comm (w : World) {a b : Nat} (apart : a ≠ b) :
    ((w.shut a).shut b).Alike ((w.shut b).shut a) := by
  have alone {d e : Nat} (apart : d ≠ e) (l : List (Nat × Channel)) :
      (l.filter (·.1 != e)).filter (·.1 == d) = l.filter (·.1 == d) := by
    rw [List.filter_filter]
    refine List.filter_congr fun x _ => ?_
    by_cases same : x.1 = d <;> simp [same, apart]
  have others {d e : Nat} (apart : d ≠ e) (l : List (Nat × Channel)) :
      (l.filter (·.1 == e)).find? (·.1 == d) = none := by
    simp only [List.find?_eq_none, List.mem_filter, beq_iff_eq]
    exact fun x found same => apart (same.symm.trans found.2)
  refine alike_iff.mpr ⟨((w.shut b).shut a).trace, ((w.shut b).shut a).retired, ?_, fun d => ?_⟩
  · simp only [World.shut, World.emit, List.filter_filter, Bool.and_comm]
  · simp only [World.shut, World.emit, alone apart, alone apart.symm, List.find?_append]
    by_cases first : d = a
    · subst first
      rw [others apart, Option.none_or, Option.none_or]
    · rw [others first, Option.none_or, Option.none_or]

variable (alike : w.Alike w')
include alike

theorem descriptors : w'.descriptors = w.descriptors := by
  obtain ⟨_, _, rfl, -⟩ := alike_iff.mp alike
  rfl

theorem content (q : Nat) : w'.content q = w.content q := by
  obtain ⟨_, _, rfl, -⟩ := alike_iff.mp alike
  rfl

theorem reader_content (r : Reader) : r.content w' = r.content w := by
  unfold Reader.content
  rw [alike.pipeOf?]
  cases w.pipeOf? r.descriptor with
  | none => rfl
  | some q => exact alike.content q

theorem consume (count : Nat) (c : Channel) : (w.consume count c).Alike (w'.consume count c) := by
  have same := alike.same
  have consumed : (w.ahead 0 0 w'.trace w'.retired).consume count c
      = (w.consume count c).ahead 0 0 w'.trace w'.retired := consume_ahead count (.inl rfl)
  rw [← same, ahead_zero] at consumed
  rw [consumed]
  refine alike_iff.mpr ⟨_, _, rfl, ?_⟩
  cases c <;> exact alike.retired

theorem channel? (d : Int) : w'.channel? d = w.channel? d := by
  obtain ⟨_, _, rfl, -⟩ := alike_iff.mp alike
  rfl

theorem deliver? (c : Channel) (data : Bytes) : w.deliver? c data = none ∧ w'.deliver? c data = none ∨
    ∃ v v', w.deliver? c data = some v ∧ w'.deliver? c data = some v' ∧ v.Alike v' := by
  have same := alike.same
  have delivered : (w.ahead 0 0 w'.trace w'.retired).deliver? c data
      = (w.deliver? c data).map fun v => v.ahead 0 0 w'.trace w'.retired := deliver?_ahead data (Nat.zero_le _)
  rw [← same] at delivered
  cases passed : w.deliver? c data with
  | none => exact .inl ⟨rfl, by rw [delivered, passed, Option.map_none]⟩
  | some v =>
    refine .inr ⟨v, _, rfl, by rw [delivered, passed, Option.map_some], ?_⟩
    refine alike_iff.mpr ⟨_, _, ahead_zero v 0 _ _, ?_⟩
    rw [(passes_deliver? passed).retired]
    exact alike.retired

theorem notice (pid : Nat) : (w.notice pid).Alike (w'.notice pid) := by
  obtain ⟨_, _, rfl, lookups⟩ := alike_iff.mp alike
  exact alike_iff.mpr ⟨_, _, rfl, lookups⟩

theorem shut (d : Nat) : (w.shut d).Alike (w'.shut d) := by
  obtain ⟨_, _, rfl, lookups⟩ := alike_iff.mp alike
  exact alike_iff.mpr ⟨_, _, rfl, fun e => by simp [World.shut, World.emit, List.find?_append, lookups]⟩

theorem emit (e : Event) : (w.emit e).Alike (w'.emit e) := by
  obtain ⟨_, _, rfl, lookups⟩ := alike_iff.mp alike
  exact alike_iff.mpr ⟨_, _, rfl, lookups⟩

end Alike

end World

/-! ## Blind steps -/

/-- A step that comes to the same in systems that are alike, and leaves them alike. -/
def Sim.Blind {α : Type} (m : Sim α) : Prop :=
  ∀ w w', w.Alike w' → (m.exec w').1 = (m.exec w).1 ∧ (m.exec w).2.Alike (m.exec w').2

/-- So does a step that owns a state of its own, and the state is the same. -/
def Owning.Blind {σ α : Type} (m : Owning σ α) : Prop :=
  ∀ s w w', w.Alike w' → (m.exec s w').1 = (m.exec s w).1 ∧ (m.exec s w').2.1 = (m.exec s w).2.1 ∧
    (m.exec s w).2.2.Alike (m.exec s w').2.2

namespace Sim.Blind

variable {α β σ : Type}

theorem pure (a : α) : (pure a : Sim α).Blind := fun _ _ alike => ⟨rfl, alike⟩

theorem throw (e : Failure) : (throw e : Sim α).Blind := fun _ _ alike => ⟨rfl, alike⟩

theorem ofExcept (e : Except Failure α) : (ofExcept e).Blind := fun _ _ alike => ⟨rfl, alike⟩

theorem bind {m : Sim α} {f : α → Sim β} (first : m.Blind) (second : ∀ a, (f a).Blind) : (m >>= f).Blind := by
  intro w w' alike
  obtain ⟨outcome, after⟩ := first w w' alike
  rw [exec_bind, exec_bind]
  generalize m.exec w = result at outcome after
  generalize m.exec w' = result' at outcome after
  obtain ⟨_, w₁⟩ := result
  obtain ⟨_, w₁'⟩ := result'
  cases outcome
  split
  · next same =>
    cases same
    exact second _ w₁ w₁' after
  · next same =>
    cases same
    exact ⟨rfl, after⟩

/-- What is seen of the system, if it is the same in systems that are alike. -/
theorem see {m : World → Sim α} (same : ∀ w w', w.Alike w' → m w' = m w) (blind : ∀ w, (m w).Blind) :
    (get >>= m).Blind := by
  intro w w' alike
  rw [exec_bind, exec_bind, exec_get, exec_get]
  dsimp only
  rw [same w w' alike]
  exact blind w w w' alike

theorem runOn {m : Owning σ α} (blind : m.Blind) (s : σ) :
    (liftM (m.runOn s) : Sim (Except Failure α × σ)).Blind := by
  intro w w' alike
  obtain ⟨outcome, state, after⟩ := blind s w w' alike
  simp only [exec_runOn, outcome, state, after, and_self]

theorem emit (e : Event) : (Pipework.emit e).Blind := fun _ _ alike => ⟨rfl, alike.emit e⟩

theorem note (logger : Text) (level : Level) (message : Text) : (Pipework.note logger level message).Blind := by
  intro w w' alike
  obtain ⟨_, _, rfl, lookups⟩ := alike_iff.mp alike
  exact ⟨rfl, alike_iff.mpr ⟨_, _, rfl, lookups⟩⟩

theorem onMemory (f : Memory → Except Failure α × Memory) : (Pump.onMemory f).Blind := by
  intro w w' alike
  obtain ⟨_, _, rfl, lookups⟩ := alike_iff.mp alike
  exact ⟨rfl, alike_iff.mpr ⟨_, _, rfl, lookups⟩⟩

theorem runUntil {condition : World → Bool} (same : ∀ w w', w.Alike w' → condition w' = condition w)
    (limit : Option Time) : (Pipework.runUntil condition limit).Blind :=
  fun _ _ alike => exec_runUntil_ahead alike same limit

/-! ### Processes -/

theorem look (pid : Nat) : (Sim.look pid).Blind := by
  intro w w' alike
  rw [exec_look, exec_look, World.exit?, World.exit?, alike.process?]
  exact ⟨rfl, alike.notice pid⟩

theorem wait (pid : Nat) (limit : Option Time) : (Sim.wait pid limit).Blind := by
  refine bind (emit _) fun _ => bind (runUntil (fun w w' alike => ?_) _) fun ended => ?_
  · rw [hasEnded, hasEnded, alike.process?]
  · split
    · exact bind (look _) fun _ => pure _
    · exact see (fun w w' alike => by rw [alike.process?]) fun _ => throw _

/-! ### Ends of pipes -/

theorem close (d : Nat) : (Sim.close d).Blind := by
  refine see (fun w w' alike => ?_) fun w => ?_
  · obtain ⟨_, _, rfl, -⟩ := alike_iff.mp alike
    rfl
  · split
    · exact fun w w' alike => ⟨rfl, alike.shut d⟩
    · exact throw _

theorem take (r : Reader) (count : Nat) : (r.take count).Blind := by
  intro w w' alike
  cases leads : w.pipeOf? r.descriptor with
  | none =>
    have leads' := (alike.pipeOf? _).trans leads
    simp only [Reader.take, exec_bind, exec_get, leads, leads', alike.reader_content r, exec_pure, alike,
      and_self]
  | some q =>
    rw [Reader.exec_take leads, Reader.exec_take ((alike.pipeOf? _).trans leads), alike.content]
    exact ⟨rfl, alike.consume count (.readEnd q)⟩

theorem checkOpen (r : Reader) : r.checkOpen.Blind := by
  unfold Reader.checkOpen
  split
  · exact throw _
  · exact pure _

theorem readAll (r : Reader) : r.readAll.Blind :=
  bind (checkOpen r) fun _ => bind (runUntil (fun _ _ alike => alike.atEnd r) none) fun _ =>
    see (fun w w' alike => by rw [alike.reader_content r]) fun _ => take r _

theorem readSome (r : Reader) (most : Nat) : (r.readSome most).Blind :=
  bind (checkOpen r) fun _ => bind
    (runUntil (fun _ _ alike => by rw [alike.reader_content r, alike.atEnd r]) none) fun _ => take r _

theorem readUpTo (r : Reader) (most : Int) : (r.readUpTo most).Blind := by
  unfold Reader.readUpTo
  split
  · exact readAll r
  · exact readSome r _

end Sim.Blind

namespace Owning.Blind

variable {α β σ τ : Type}

theorem pure (a : α) : (pure a : Owning σ α).Blind := fun _ _ _ alike => ⟨rfl, rfl, alike⟩

theorem throw (e : Failure) : (throw e : Owning σ α).Blind := fun _ _ _ alike => ⟨rfl, rfl, alike⟩

theorem own : (own : Owning σ σ).Blind := fun _ _ _ alike => ⟨rfl, rfl, alike⟩

theorem change (f : σ → σ) : (change f).Blind := fun _ _ _ alike => ⟨rfl, rfl, alike⟩

theorem lift {m : Sim α} (blind : m.Blind) : (liftM m : Owning σ α).Blind := by
  intro s w w' alike
  obtain ⟨outcome, after⟩ := blind w w' alike
  exact ⟨outcome, rfl, after⟩

theorem attempt {m : Owning σ α} (blind : m.Blind) : m.attempt.Blind := by
  intro s w w' alike
  obtain ⟨outcome, state, after⟩ := blind s w w' alike
  exact ⟨congrArg Except.ok outcome, state, after⟩

theorem bind {m : Owning σ α} {f : α → Owning σ β} (first : m.Blind) (second : ∀ a, (f a).Blind) :
    (m >>= f).Blind := by
  intro s w w' alike
  obtain ⟨outcome, state, after⟩ := first s w w' alike
  rw [exec_bind, exec_bind]
  generalize m.exec s w = result at outcome state after
  generalize m.exec s w' = result' at outcome state after
  obtain ⟨_, s₁, w₁⟩ := result
  obtain ⟨_, s₁', w₁'⟩ := result'
  cases outcome
  cases state
  split
  · next same =>
    cases same
    exact second _ s₁ w₁ w₁' after
  · next same =>
    cases same
    exact ⟨rfl, rfl, after⟩

/-- What is seen of the system, if it is the same in systems that are alike. -/
theorem see {m : World → Owning σ α} (same : ∀ w w', w.Alike w' → m w' = m w) (blind : ∀ w, (m w).Blind) :
    (liftM world >>= m : Owning σ α).Blind := by
  intro s w w' alike
  rw [exec_bind, exec_bind, exec_lift, exec_lift, Sim.exec_world, Sim.exec_world]
  dsimp only
  rw [same w w' alike]
  exact blind w s w w' alike

theorem runOn {m : Owning τ α} (blind : m.Blind) (t : τ) :
    (liftM (m.runOn t) : Owning σ (Except Failure α × τ)).Blind := by
  intro s w w' alike
  obtain ⟨outcome, state, after⟩ := blind t w w' alike
  simp only [exec_liftRunOn, outcome, state, after, and_self]

theorem onPart {m : Owning τ α} (blind : m.Blind) (get : σ → τ) (put : τ → σ → σ) :
    (onPart get put m).Blind := by
  intro s w w' alike
  obtain ⟨outcome, state, after⟩ := blind (get s) w w' alike
  simp only [exec_onPart, outcome, state, after, and_self]

theorem ofExcept (e : Except Failure α) : (liftM (Sim.ofExcept e) : Owning σ α).Blind := lift (.ofExcept e)

end Owning.Blind

end Pipework
