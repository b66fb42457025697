import Pipework.Action
import Pipework.Proofs.Custody.Calls

/-!
# Blocks that use a handle

A block is a script: it makes calls on what it was given, one after the other, sees what comes of each, and
ends with a value or with a failure of its own. So a failure of a call may end it or not, and it may be left at
any point. Whatever a script does is a run of custody (`Script.tended`).
-/

namespace Pipework

/-- What a block does. A call on the whole handle has no stream; `communicate` is not among the calls. -/
inductive Script (α : Type) where
  | done (a : α)
  | raise (e : Failure)
  | call (stream : Option Stream) (call : Call) (alone : call ≠ .communicate)
    (next : Except Failure Answer → Script α)

/-- Run a script on what it was given of a handle. -/
def Script.run {α : Type} (subject : Subject) : Script α → Owning Handle α
  | done a => pure a
  | raise e => throw e
  | call stream c _ next => do
    let outcome ← (Block.perform subject stream c).attempt
    (next outcome).run subject

open Custody World

private theorem dataOf {c : Custody} {f : Owner → Option Nat} (v : Value) :
    (Block.dataOf v).Preserves (c.Within f) := by
  refine .bind .get fun w => ?_
  split
  · exact .pure _
  · exact .throw _

/-! ## Calls on an end -/

/-- An end that an owner has, or has given up, and what it was on. -/
def Custody.Owns {σ : Type} (holding : σ → Option Nat) (descriptor : σ → Nat) (c : Custody)
    (f : Owner → Option Nat) (o : Owner) (d : Nat) (s : σ) (w : World) : Prop :=
  descriptor s = d ∧ Run c ⟨w, Function.update f o (holding s)⟩

namespace Custody.Owns

variable {σ α : Type} {holding : σ → Option Nat} {descriptor : σ → Nat} {c : Custody} {f : Owner → Option Nat}
variable {o : Owner} {d : Nat}

/-- The owner at the moment. -/
private theorem now {s : σ} : Function.update f o (holding s) o = holding s := Function.update_self ..

private theorem lift {m : Sim α} (within : ∀ s, m.Preserves (c.Within (Function.update f o (holding s)))) :
    (liftM m : Owning σ α).Preserves (c.Owns holding descriptor f o d) :=
  .lift fun s w owns => ⟨owns.1, within s w owns.2⟩

/-- A step in which nothing changes hands, and what it answers. -/
private theorem reads {β : Type} {r : Reader} {m : Sim β} {answer : β → Answer} {w : World}
    (within : m.Preserves (c.Within (Function.update f o r.holding)))
    (owns : c.Owns Reader.holding Reader.descriptor f o d r w) :
    let result := (do return answer (← m) : Owning Reader Answer).exec r w
    c.Owns Reader.holding Reader.descriptor f o d result.2.1 result.2.2 := by
  have keeps : (do return answer (← m) : Owning Reader Answer).Preserves
      fun s w => s = r ∧ c.Owns Reader.holding Reader.descriptor f o d r w :=
    .bind (.lift fun s w owns => ⟨owns.1, owns.2.1, within w owns.2.2⟩) fun _ => .pure _
  obtain ⟨same, after⟩ := keeps r w ⟨rfl, owns⟩
  dsimp only
  rwa [same]

section Sound

variable (sound : c.Sound)
include sound

/-- A call on a writer is made by its owner, who keeps it or gives it up. -/
theorem onWriter (call : Call) :
    (Block.onWriter call).Preserves (c.Owns Writer.holding Writer.descriptor f o d) := by
  have write (data : Bytes) : (Writer.write data).Preserves (c.Owns Writer.holding Writer.descriptor f o d) := by
    intro r w ⟨same, run⟩
    obtain ⟨_, r', wrote, descriptor, holding⟩ := Writer.exec_write_cases r data w
    rw [wrote]
    exact ⟨descriptor.trans same, by rw [holding]; exact run⟩
  have checkOpen : Writer.checkOpen.Preserves (c.Owns Writer.holding Writer.descriptor f o d) := by
    refine .bind .own fun r => ?_
    split
    · exact .throw _
    · exact .pure ()
  cases call with
  | write v =>
    exact .bind checkOpen fun _ => .bind (lift fun _ => dataOf v) fun data => .bind (write data) fun _ => .pure _
  | flush =>
    refine .bind (fun r w ⟨same, run⟩ => ?_) fun _ => .pure _
    obtain ⟨run', holding, descriptor⟩ := run.flush sound now
    exact ⟨descriptor.trans same, by rw [holding]; exact run'⟩
  | close =>
    refine .bind (fun r w ⟨same, run⟩ => ?_) fun _ => .pure _
    obtain ⟨_, r', w', closed, isClosed, run', -, descriptor⟩ := run.closeWriter sound now
    have none : r'.holding = none := by simp [Writer.holding, isClosed]
    rw [closed]
    refine ⟨descriptor.trans same, ?_⟩
    rwa [none, ← Function.update_idem]
  | isClosed => exact .bind .own fun _ => .pure _
  | _ => exact .throw _

/-- So is a call on a reader. -/
theorem onReader (call : Call) :
    (Block.onReader call).Preserves (c.Owns Reader.holding Reader.descriptor f o d) := by
  intro r w owns
  unfold Block.onReader
  rw [Owning.exec_bind, Owning.exec_own]
  cases call with
  | read most =>
    cases most with
    | none => exact reads (Within.readAll sound now) owns
    | some n => exact reads (Within.readUpTo sound now n) owns
  | readLine => exact reads (Within.readLine sound now) owns
  | close =>
    obtain ⟨w', closed, run⟩ := owns.2.closeReader sound now
    dsimp only
    rw [Owning.exec_bind, closed]
    dsimp only
    have none : ({ r with closed := true } : Reader).holding = none := by simp [Reader.holding]
    rw [Owning.exec_pure]
    refine ⟨owns.1, ?_⟩
    dsimp only
    rwa [none, ← Function.update_idem]
  | _ => exact owns

end Sound

end Custody.Owns

/-! ## Calls on a handle -/

namespace Handle.Tended

variable {c : Custody} {h₀ h : Handle} {crew : List Pump} {w w' : World}

/-- The reader of an output is put back after something was done with it. -/
theorem putReader {s : Stream} {r r' : Reader} {put : Handle} (tended : Tended c h₀ crew h w)
    (isPut : s = .stdout ∧ h.stdout = some r ∧ put = { h with stdout := some r' } ∨
      s = .stderr ∧ h.stderr = some r ∧ put = { h with stderr := some r' })
    (same : r'.descriptor = r.descriptor)
    (run : Run c ⟨w', Function.update (h.custody crew w).held (.endpoint s) r'.holding⟩) :
    Tended c h₀ crew put w' := by
  rcases isPut with ⟨rfl, isEnd, rfl⟩ | ⟨rfl, isEnd, rfl⟩ <;>
  · refine tended.replace rfl rfl rfl ?_ (fun t d there => ?_) run
    · funext t
      cases t <;> rfl
    · cases t <;> first | exact there | simpa [endOf, isEnd, same] using there

/-- A call on an end is a run of custody if it is one for the end's owner. -/
private theorem onEnd {σ : Type} (s : Stream) (holding : σ → Option Nat) (descriptor : σ → Nat)
    {get : Handle → Option σ} {put : σ → Handle → Handle} {m : Owning σ Answer} {call : Call}
    (holds : ∀ h x, get h = some x → h.holding s = holding x)
    (puts : ∀ h w x x' w', Tended c h₀ crew h w → get h = some x → descriptor x' = descriptor x →
      Run c ⟨w', Function.update (h.custody crew w).held (.endpoint s) (holding x')⟩ →
      Tended c h₀ crew (put x' h) w')
    (keeps : ∀ f d, m.Preserves (c.Owns holding descriptor f (.endpoint s) d)) :
    (Block.onEnd get put m call).Preserves (Tended c h₀ crew) := by
  intro h w tended
  unfold Block.onEnd
  rw [Owning.exec_bind, Owning.exec_own]
  dsimp only
  cases isEnd : get h with
  | none => exact tended
  | some x =>
    have mine : (h.custody crew w).held (.endpoint s) = holding x := holds h x isEnd
    have owns : c.Owns holding descriptor (h.custody crew w).held (.endpoint s) (descriptor x) x w := by
      refine ⟨rfl, ?_⟩
      rw [← mine, Function.update_eq_self]
      exact tended.run
    obtain ⟨same, run⟩ := keeps _ _ x w owns
    simp only [Owning.exec_bind, Owning.exec_liftRunOn, Owning.exec_change, Owning.exec_lift,
      Sim.exec_ofExcept]
    exact puts h w x _ _ tended isEnd same run

section Sound

variable (sound : c.Sound)
include sound

/-- A call on an end of a handle is a run of custody. -/
theorem onStream (s : Stream) (call : Call) : (Block.onStream s call).Preserves (Tended c h₀ crew) := by
  unfold Block.onStream
  cases s with
  | stdin =>
    refine onEnd .stdin Writer.holding Writer.descriptor (fun h r isEnd => ?_)
      (fun h w r r' w' tended isEnd same run => ?_) fun _ _ => Owns.onWriter sound call
    · simp [Handle.holding, isEnd]
    · exact tended.putWriter isEnd same run
  | stdout =>
    refine onEnd .stdout Reader.holding Reader.descriptor (fun h r isEnd => ?_)
      (fun h w r r' w' tended isEnd same run => ?_) fun _ _ => Owns.onReader sound call
    · simp [Handle.holding, isEnd]
    · exact tended.putReader (.inl ⟨rfl, isEnd, rfl⟩) same run
  | stderr =>
    refine onEnd .stderr Reader.holding Reader.descriptor (fun h r isEnd => ?_)
      (fun h w r r' w' tended isEnd same run => ?_) fun _ _ => Owns.onReader sound call
    · simp [Handle.holding, isEnd]
    · exact tended.putReader (.inr ⟨rfl, isEnd, rfl⟩) same run

private theorem onWhole {call : Call} (alone : call ≠ .communicate) :
    (Block.onWhole call).Preserves (Tended c h₀ crew) := by
  cases call with
  | read most =>
    cases most with
    | none => exact .bind (Tended.read sound) fun _ => .pure _
    | some n => exact .throw _
  | write v =>
    refine .bind .own fun h => ?_
    split
    · exact .throw _
    · split
      · exact .bind (.throw _) fun _ => .bind (Tended.lift fun _ => dataOf v) fun _ =>
          .bind (Tended.write _) fun _ => .pure _
      · exact .bind (Tended.lift fun _ => dataOf v) fun _ => .bind (Tended.write _) fun _ => .pure _
  | close => exact .bind (Tended.close sound false) fun _ => .pure _
  | communicate => exact absurd rfl alone
  | _ => exact .throw _

/-- So is every call but `communicate`. -/
theorem perform (subject : Subject) (stream : Option Stream) {call : Call} (alone : call ≠ .communicate) :
    (Block.perform subject stream call).Preserves (Tended c h₀ crew) := by
  unfold Block.perform
  split
  · exact .throw _
  · exact .bind .own fun _ => .pure _
  · exact .pure _
  · exact onWhole sound alone
  · exact onStream sound _ _
  · exact onStream sound _ _
  · exact onStream sound _ _
  · exact .throw _

end Sound

end Handle.Tended

/-- A script is a run of custody, whatever it does and wherever it ends. -/
theorem Script.tended {α : Type} {c : Custody} {h₀ : Handle} {crew : List Pump} (sound : c.Sound)
    (subject : Subject) (script : Script α) :
    (script.run subject).Preserves (Handle.Tended c h₀ crew) := by
  induction script with
  | done a => exact .pure a
  | raise e => exact .throw e
  | call stream call alone next ih =>
    exact .bind (.attempt (Handle.Tended.perform sound subject stream alone)) ih

end Pipework
