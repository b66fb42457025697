import Pipework.System.World

/-!
# Running steps

Running a step of the system gives its outcome and the state it ends in. This module says what the
ways to put steps together do when they are run: `bind` goes on where the first step ended, or stops
with its failure; `attempt` makes an outcome of a failure; a step of the system leaves the state
that belongs to somebody else as it is. All later modules run steps by these equations and never
look into the monads.
-/

namespace Pipework

variable {σ τ α β : Type}

/-- Run a step of the system. -/
def Sim.exec (m : Sim α) (w : World) : Except Failure α × World := Id.run (m.run.run w)

/-- Run a step that owns a state. -/
def Owning.exec (m : Owning σ α) (s : σ) (w : World) : Except Failure α × σ × World :=
  let r := Id.run ((m.runOn s).run w)
  (r.1.1, r.1.2, r.2)

namespace Sim

@[simp] theorem exec_pure (a : α) (w : World) : (pure a : Sim α).exec w = (.ok a, w) := rfl

@[simp] theorem exec_throw (e : Failure) (w : World) :
    (throw e : Sim α).exec w = (.error e, w) := rfl

theorem exec_bind (m : Sim α) (f : α → Sim β) (w : World) :
    (m >>= f).exec w =
      match m.exec w with
      | (.ok a, w') => (f a).exec w'
      | (.error e, w') => (.error e, w') := by
  unfold exec ExceptT.run StateT.run Id.run
  simp only [bind, ExceptT.bind, ExceptT.mk, StateT.bind, ExceptT.bindCont]
  cases m w with
  | mk outcome after => cases outcome <;> rfl

/-- A step that succeeds, taken apart at its first part. -/
theorem bind_ok {m : Sim α} {f : α → Sim β} {b : β} {w w' : World}
    (ran : (m >>= f).exec w = (.ok b, w')) :
    ∃ a w₁, m.exec w = (.ok a, w₁) ∧ (f a).exec w₁ = (.ok b, w') := by
  rw [exec_bind] at ran
  generalize m.exec w = result at ran
  obtain ⟨outcome, w₁⟩ := result
  cases outcome with
  | error e => cases ran
  | ok a => exact ⟨a, w₁, rfl, ran⟩

@[simp] theorem exec_get (w : World) : (get : Sim World).exec w = (.ok w, w) := rfl

@[simp] theorem exec_world (w : World) : world.exec w = (.ok w, w) := rfl

@[simp] theorem exec_setWorld (w' w : World) : (setWorld w').exec w = (.ok (), w') := rfl

@[simp] theorem exec_modify (f : World → World) (w : World) :
    (modify f : Sim PUnit).exec w = (.ok ⟨⟩, f w) := rfl

@[simp] theorem exec_modifyGet (f : World → α × World) (w : World) :
    (modifyGet f : Sim α).exec w = (.ok (f w).1, (f w).2) := rfl

@[simp] theorem exec_emit (e : Event) (w : World) : (emit e).exec w = (.ok (), w.emit e) := rfl

@[simp] theorem exec_note (logger : Text) (level : Level) (message : Text) (w : World) :
    (note logger level message).exec w = (.ok (),
      { w with log := ⟨logger, level, message⟩ :: w.log }) := rfl

@[simp] theorem exec_ofExcept (e : Except Failure α) (w : World) :
    (ofExcept e).exec w = (e, w) := rfl

@[simp] theorem exec_attempt (m : Sim α) (w : World) :
    m.attempt.exec w = (.ok (m.exec w).1, (m.exec w).2) := rfl

/-- A step that owns a state, run on a state of its own. -/
@[simp] theorem exec_runOn (m : Owning σ α) (s : σ) (w : World) :
    (liftM (m.runOn s) : Sim (Except Failure α × σ)).exec w
      = (.ok ((m.exec s w).1, (m.exec s w).2.1), (m.exec s w).2.2) := rfl

/-- Something holds after a step if it held before, however the step ends. -/
def Preserves (P : World → Prop) (m : Sim α) : Prop := ∀ w, P w → P (m.exec w).2

namespace Preserves

variable {P : World → Prop}

theorem pure (a : α) : (pure a : Sim α).Preserves P := fun _ => id

theorem throw (e : Failure) : (throw e : Sim α).Preserves P := fun _ => id

theorem get : (get : Sim World).Preserves P := fun _ => id

theorem ofExcept (e : Except Failure α) : (ofExcept e).Preserves P := fun _ => id

theorem attempt {m : Sim α} (first : m.Preserves P) : m.attempt.Preserves P := first

theorem bind {m : Sim α} {f : α → Sim β} (first : m.Preserves P) (second : ∀ a, (f a).Preserves P) :
    (m >>= f).Preserves P := by
  intro w holds
  have after := first w holds
  rw [exec_bind]
  generalize m.exec w = result at after
  obtain ⟨outcome, w'⟩ := result
  cases outcome with
  | error e => exact after
  | ok a => exact second a w' after

end Preserves

end Sim

namespace Owning

@[simp] theorem exec_pure (a : α) (s : σ) (w : World) :
    (pure a : Owning σ α).exec s w = (.ok a, s, w) := rfl

@[simp] theorem exec_throw (e : Failure) (s : σ) (w : World) :
    (throw e : Owning σ α).exec s w = (.error e, s, w) := rfl

theorem exec_bind (m : Owning σ α) (f : α → Owning σ β) (s : σ) (w : World) :
    (m >>= f).exec s w =
      match m.exec s w with
      | (.ok a, s', w') => (f a).exec s' w'
      | (.error e, s', w') => (.error e, s', w') := by
  unfold exec runOn ExceptT.run StateT.run Id.run
  simp only [bind, ExceptT.bind, ExceptT.mk, StateT.bind, ExceptT.bindCont]
  cases m s w with
  | mk result after => cases result with
    | mk outcome own => cases outcome <;> rfl

/-- A step that succeeds, taken apart at its first part. -/
theorem bind_ok {m : Owning σ α} {f : α → Owning σ β} {b : β} {s s' : σ} {w w' : World}
    (ran : (m >>= f).exec s w = (.ok b, s', w')) :
    ∃ a s₁ w₁, m.exec s w = (.ok a, s₁, w₁) ∧ (f a).exec s₁ w₁ = (.ok b, s', w') := by
  rw [exec_bind] at ran
  generalize m.exec s w = result at ran
  obtain ⟨outcome, s₁, w₁⟩ := result
  cases outcome with
  | error e => cases ran
  | ok a => exact ⟨a, s₁, w₁, rfl, ran⟩

@[simp] theorem exec_own (s : σ) (w : World) : (own : Owning σ σ).exec s w = (.ok s, s, w) := rfl

@[simp] theorem exec_change (f : σ → σ) (s : σ) (w : World) :
    (change f).exec s w = (.ok (), f s, w) := rfl

@[simp] theorem exec_attempt (m : Owning σ α) (s : σ) (w : World) :
    m.attempt.exec s w = (.ok (m.exec s w).1, (m.exec s w).2) := rfl

theorem attempt_ok {m : Owning σ α} {a : α} {s s' : σ} {w w' : World}
    (ran : m.attempt.exec s w = (.ok (.ok a), s', w')) : m.exec s w = (.ok a, s', w') := by
  rw [exec_attempt] at ran
  generalize m.exec s w = result at ran
  obtain ⟨outcome, own, after⟩ := result
  cases ran
  rfl

@[simp] theorem exec_lift (m : Sim α) (s : σ) (w : World) :
    (liftM m : Owning σ α).exec s w = ((m.exec w).1, s, (m.exec w).2) := rfl

/-- A step that succeeds, taken apart at a first part that belongs to the system. -/
theorem lift_bind_ok {m : Sim α} {f : α → Owning σ β} {b : β} {s s' : σ} {w w' : World}
    (ran : (liftM m >>= f : Owning σ β).exec s w = (.ok b, s', w')) :
    ∃ a w₁, m.exec w = (.ok a, w₁) ∧ (f a).exec s w₁ = (.ok b, s', w') := by
  obtain ⟨a, s₁, w₁, first, ran⟩ := bind_ok ran
  rw [exec_lift] at first
  generalize m.exec w = result at first
  obtain ⟨outcome, w₂⟩ := result
  cases first
  exact ⟨a, w₂, rfl, ran⟩

@[simp] theorem exec_onPart (get : σ → τ) (put : τ → σ → σ) (m : Owning τ α) (s : σ) (w : World) :
    (onPart get put m).exec s w
      = ((m.exec (get s) w).1, put (m.exec (get s) w).2.1 s, (m.exec (get s) w).2.2) := rfl

@[simp] theorem exec_liftRunOn (m : Owning τ α) (t : τ) (s : σ) (w : World) :
    (liftM (m.runOn t) : Owning σ (Except Failure α × τ)).exec s w
      = (.ok ((m.exec t w).1, (m.exec t w).2.1), s, (m.exec t w).2.2) := rfl

/-- Whether what a step comes to is a value, and passes a test with the state and the system it ends in. -/
def gives (test : α → σ → World → Bool) : Except Failure α × σ × World → Bool
  | (.ok a, s, w) => test a s w
  | (.error _, _, _) => false

theorem ok_of_gives (result : Except Failure α × σ × World) (test : α → σ → World → Bool)
    (given : gives test result = true) : ∃ a s w, result = (.ok a, s, w) ∧ test a s w = true := by
  obtain ⟨_ | a, s, w⟩ := result
  · cases given
  · exact ⟨a, s, w, rfl, given⟩

/-- Something holds after a step if it held before, however the step ends. -/
def Preserves (P : σ → World → Prop) (m : Owning σ α) : Prop :=
  ∀ s w, P s w → P (m.exec s w).2.1 (m.exec s w).2.2

namespace Preserves

variable {P : σ → World → Prop} {m : Owning σ α}

theorem pure (a : α) : (pure a : Owning σ α).Preserves P := fun _ _ => id

theorem throw (e : Failure) : (throw e : Owning σ α).Preserves P := fun _ _ => id

theorem own : (own : Owning σ σ).Preserves P := fun _ _ => id

theorem change {f : σ → σ} (keeps : ∀ s w, P s w → P (f s) w) : (change f).Preserves P := keeps

theorem lift {m : Sim α} (keeps : ∀ s, m.Preserves (P s)) : (liftM m : Owning σ α).Preserves P := keeps

theorem attempt (first : m.Preserves P) : m.attempt.Preserves P := first

theorem bind {f : α → Owning σ β} (first : m.Preserves P) (second : ∀ a, (f a).Preserves P) :
    (m >>= f).Preserves P := by
  intro s w holds
  have after := first s w holds
  rw [exec_bind]
  generalize m.exec s w = result at after
  obtain ⟨outcome, s', w'⟩ := result
  cases outcome with
  | error e => exact after
  | ok a => exact second a s' w' after

end Preserves

end Owning

end Pipework
