import Mathlib.Data.List.Forall2
import Pipework.Proofs.System.Acts

/-!
# When nothing can go on

Each walk that runs something leaves fewer processes that wait to run, and each move of the clock leaves fewer
starts that are to come. So settling always ends with a walk that runs nothing, and settling again changes
nothing (`settle_settle`). Waiting without a limit ends with the condition that it waits for, or where the
system is stuck: nothing runs, nothing is to come, and the condition does not hold (`exec_runUntil_endless`).
-/

namespace Pipework

namespace Time

theorem lt_irrefl (t : Time) : ¬ t < t := Int.lt_irrefl t.units

theorem lt_trans {r s t : Time} (first : r < s) (second : s < t) : r < t := Int.lt_trans first second

end Time

namespace World

/-- How many processes wait to run. -/
def countWaiting (w : World) : Nat := w.processes.countP Process.waiting

/-- Nothing can run, and no start is to come. -/
structure Stuck (w : World) : Prop where
  settled : w.settle = w
  none : w.futureStarts = []

/-- What running processes does to those that wait: no more of them do, and the time of a start is fixed. -/
structure Advances (w w' : World) : Prop where
  clock : w'.clock = w.clock
  processes : List.Forall₂ (fun p p' => p'.readyAt = p.readyAt ∧ (p'.waiting → p.waiting))
    w.processes w'.processes

variable {w w' w₁ w₂ w₃ : World} {pid : Nat} {p : Process}

namespace Advances

theorem of_same (clock : w'.clock = w.clock) (processes : w'.processes = w.processes) : w.Advances w' :=
  ⟨clock, by rw [processes]; exact List.forall₂_same.mpr fun _ _ => ⟨rfl, id⟩⟩

theorem refl (w : World) : w.Advances w := of_same rfl rfl

theorem trans (first : w₁.Advances w₂) (second : w₂.Advances w₃) : w₁.Advances w₃ where
  clock := second.clock.trans first.clock
  processes := by
    have early := first.processes
    have late := second.processes
    generalize w₁.processes = l₁ at early
    generalize w₂.processes = l₂ at early late
    generalize w₃.processes = l₃ at late
    induction early generalizing l₃ with
    | nil =>
      cases late
      exact .nil
    | cons each _ ih =>
      cases late with
      | cons each' others' => exact .cons ⟨each'.1.trans each.1, each.2 ∘ each'.2⟩ (ih _ others')

theorem count (advances : w.Advances w') : w'.countWaiting ≤ w.countWaiting := by
  obtain ⟨-, processes⟩ := advances
  unfold countWaiting
  generalize w.processes = l at processes
  generalize w'.processes = l' at processes
  induction processes with
  | nil => exact Nat.le_refl _
  | @cons p p' rest rest' each others ih =>
    rw [List.countP_cons, List.countP_cons]
    by_cases waits : p'.waiting
    · simpa [waits, each.2 waits] using ih
    · simp only [waits, Bool.false_eq_true, if_false]
      omega

theorem futureStarts (advances : w.Advances w') : w'.futureStarts.Sublist w.futureStarts := by
  obtain ⟨clock, processes⟩ := advances
  unfold World.futureStarts
  rw [clock]
  refine List.Sublist.filter _ ?_
  generalize w.processes = l at processes
  generalize w'.processes = l' at processes
  induction processes with
  | nil => exact .slnil
  | @cons p p' rest rest' each others ih =>
    by_cases waits : p'.waiting
    · simpa [waits, each.2 waits, each.1] using ih
    · rw [List.filter_cons_of_neg waits]
      refine ih.trans (List.Sublist.map _ ?_)
      exact List.Sublist.filter _ (List.sublist_cons_self ..)

/-- One process changes. -/
theorem changeProcess (w : World) (pid : Nat) {f : Process → Process} (readyAt : ∀ p, (f p).readyAt = p.readyAt)
    (waiting : ∀ p, (f p).waiting → p.waiting) : w.Advances (w.changeProcess pid f) where
  clock := rfl
  processes := by
    refine List.forall₂_map_right_iff.mpr (List.forall₂_same.mpr fun p _ => ?_)
    split
    · exact ⟨readyAt p, waiting p⟩
    · exact ⟨rfl, id⟩

theorem endProcess (w : World) (pid : Nat) (code : Int) : w.Advances (w.endProcess pid code) :=
  (changeProcess w pid (f := fun p => { p with exit := some code }) (fun _ => rfl) fun _ => nofun).trans
    (of_same rfl rfl)

theorem consume (w : World) (count : Nat) (c : Channel) : w.Advances (w.consume count c) :=
  of_same (by cases c <;> rfl) (same_of_consume w count c).1

theorem putFile (w : World) (name : Text) (b : Bytes) : w.Advances (w.putFile name b) :=
  of_same (by unfold World.putFile; split <;> rfl) (same_of_putFile w name b).1

theorem deliver? {c : Channel} {data : Bytes} (delivered : w.deliver? c data = some w') : w.Advances w' := by
  refine of_same ?_ (same_of_deliver? delivered).1
  unfold World.deliver? at delivered
  split at delivered
  · cases delivered
    rfl
  · cases c with
    | writeEnd q =>
      dsimp only at delivered
      split at delivered <;> cases delivered
      rfl
    | file k =>
      cases delivered
      unfold writeFile
      split
      · rfl
      · dsimp only
        split
        · rfl
        · exact (putFile w _ _).clock
        · exact (putFile w _ _).clock
    | _ =>
      cases delivered
      rfl

end Advances

/-! ## Settling -/

private theorem countP_map_lt {α : Type} {q : α → Bool} {g : α → α} {a : α} :
    ∀ {l : List α}, a ∈ l → q a → q (g a) = false → (∀ x, q (g x) → q x) → (l.map g).countP q < l.countP q
  | b :: rest, member, holds, gone, keeps => by
    have others : (rest.map g).countP q ≤ rest.countP q := by
      rw [List.countP_map]
      exact List.countP_mono_left fun x _ => keeps x
    rw [List.map_cons, List.countP_cons, List.countP_cons]
    rcases List.mem_cons.mp member with rfl | later
    · simp only [holds, gone, if_true, Bool.false_eq_true, if_false]
      omega
    · have fewer := countP_map_lt later holds gone keeps
      by_cases now : q (g b)
      · simp only [now, keeps b now, if_true]
        omega
      · simp only [now, Bool.false_eq_true, if_false]
        omega

/-- A process that runs waits no more. -/
theorem runProcess_advances (found : w.process? pid = some p) (waits : p.waiting) :
    w.Advances (w.runProcess p) ∧ (w.runProcess p).countWaiting < w.countWaiting := by
  let w₁ := w.consume (intake p (w.available p.stdin)) p.stdin
  have same : w₁.processes = w.processes := (same_of_consume w _ _).1
  have consumed : w.Advances w₁ := .consume w _ _
  let w₂ := w₁.changeProcess p.pid fun q => { q with hasRun := true }
  have begun : w₁.Advances w₂ := .changeProcess w₁ p.pid (fun _ => rfl) fun _ => by simp [Process.waiting]
  have fewer : w₂.countWaiting < w.countWaiting := by
    unfold countWaiting
    rw [← same]
    refine countP_map_lt (a := p) ?_ waits (by simp [Process.waiting]) fun q => ?_
    · rw [same]
      exact List.mem_of_find?_eq_some found
    · split
      · simp [Process.waiting]
      · exact id
  have later {w' : World} (advances : w₂.Advances w') :
      w.Advances w' ∧ w'.countWaiting < w.countWaiting :=
    ⟨(consumed.trans begun).trans advances, Nat.lt_of_le_of_lt advances.count fewer⟩
  unfold runProcess
  dsimp only
  split
  · exact later (.endProcess _ _ _)
  · next delivered =>
    have out : w₂.Advances _ := .deliver? delivered
    split
    · exact later (out.trans (.endProcess _ _ _))
    · next delivered =>
      have err := out.trans (.deliver? delivered)
      split
      · exact later err
      · exact later (err.trans (.endProcess _ _ _))

/-- A walk that runs nothing changes nothing, and any other leaves fewer that wait. -/
theorem walk_advances (w : World) (pids : List Nat) : w.Advances (w.walk pids).1 ∧
    ((w.walk pids).2 = false → (w.walk pids).1 = w) ∧
    ((w.walk pids).2 = true → (w.walk pids).1.countWaiting < w.countWaiting) := by
  induction pids generalizing w with
  | nil => exact ⟨.refl w, fun _ => rfl, fun ran => by cases ran⟩
  | cons pid rest ih =>
    unfold walk
    split
    · exact ih w
    · next p found =>
      split
      · next ready =>
        have waits : p.waiting := by
          simp only [runnable, Bool.and_eq_true] at ready
          exact ready.1.1
        obtain ⟨advances, fewer⟩ := runProcess_advances found waits
        obtain ⟨others, -⟩ := ih (w.runProcess p)
        exact ⟨advances.trans others, fun none => (by cases none),
          fun _ => Nat.lt_of_le_of_lt others.count fewer⟩
      · exact ih w

/-- A walk over all processes runs nothing. -/
def Settled (w : World) : Prop := (w.walk (w.processes.map (·.pid))).2 = false

theorem settleWithin_of_settled (settled : w.Settled) (walks : Nat) : settleWithin walks w = w := by
  cases walks with
  | zero => rfl
  | succ walks =>
    unfold settleWithin
    rw [Settled] at settled
    simp only [settled, Bool.false_eq_true, if_false]
    exact (walk_advances w _).2.1 settled

private theorem settleWithin_settled {walks : Nat} (enough : w.countWaiting < walks) :
    w.Advances (settleWithin walks w) ∧ (settleWithin walks w).Settled := by
  induction walks generalizing w with
  | zero => cases enough
  | succ walks ih =>
    obtain ⟨advances, same, fewer⟩ := walk_advances w (w.processes.map (·.pid))
    unfold settleWithin
    dsimp only
    split
    · next runs =>
      have enough' : (w.walk (w.processes.map (·.pid))).1.countWaiting < walks := by
        have := fewer runs
        omega
      obtain ⟨later, settled⟩ := ih enough'
      exact ⟨advances.trans later, settled⟩
    · next rests =>
      rw [Bool.not_eq_true] at rests
      refine ⟨advances, ?_⟩
      rw [same rests]
      exact rests

theorem settle_settled (w : World) : w.settle.Settled := (settleWithin_settled (Nat.lt_succ_self _)).2

theorem settle_advances (w : World) : w.Advances w.settle := (settleWithin_settled (Nat.lt_succ_self _)).1

theorem settle_of_settled (settled : w.Settled) : w.settle = w := settleWithin_of_settled settled _

/-- When the system has settled, settling changes nothing. -/
@[simp] theorem settle_settle (w : World) : w.settle.settle = w.settle := settle_of_settled w.settle_settled

/-! ## Moving the clock -/

/-- The next start is not to come any more when it has come. -/
theorem futureStarts_of_start {start : Time} (next : w.futureStarts.min? = some start) :
    ({ w with clock := start } : World).futureStarts.length < w.futureStarts.length := by
  have member : start ∈ w.futureStarts := List.min?_mem next
  have come : w.clock < start := by
    unfold futureStarts at member
    simpa using (List.mem_filter.mp member).2
  have same : ({ w with clock := start } : World).futureStarts = w.futureStarts.filter (start < ·) := by
    unfold futureStarts
    rw [List.filter_filter]
    refine List.filter_congr fun t _ => ?_
    by_cases later : start < t
    · simp [later, Time.lt_trans come later]
    · simp [later]
  rw [same]
  exact List.length_filter_lt_length_iff_exists.mpr ⟨start, member, by simp [Time.lt_irrefl]⟩

theorem futureStarts_le (w : World) : w.futureStarts.length ≤ w.countWaiting := by
  unfold futureStarts countWaiting
  rw [List.countP_eq_length_filter]
  exact Nat.le_trans (List.length_filter_le _ _) (Nat.le_of_eq (List.length_map _))

/-- With a limit of moves that is large enough, waiting without a deadline ends where it has to. -/
theorem runUntilWithin_endless (condition : World → Bool) {moves : Nat}
    (enough : w.futureStarts.length < moves) :
    (runUntilWithin condition none moves w).1 = .ok true ∨
      (runUntilWithin condition none moves w).1 = .error .deadlock ∧
        condition (runUntilWithin condition none moves w).2 = false ∧
        (runUntilWithin condition none moves w).2.Stuck := by
  induction moves generalizing w with
  | zero => cases enough
  | succ moves ih =>
    have fewer := w.settle_advances.futureStarts.length_le
    unfold runUntilWithin
    dsimp only
    split
    · exact .inl rfl
    · next fails =>
      cases next : w.settle.futureStarts.min? with
      | none =>
        exact .inr ⟨rfl, Bool.not_eq_true _ ▸ fails, settle_settle w, List.min?_eq_none_iff.mp next⟩
      | some start =>
        have less := futureStarts_of_start next
        exact ih (by omega)

/-- More moves than that change nothing. -/
theorem runUntilWithin_stable (condition : World → Bool) (deadline : Option Time) {moves more : Nat}
    (enough : w.futureStarts.length < moves) (larger : moves ≤ more) :
    runUntilWithin condition deadline more w = runUntilWithin condition deadline moves w := by
  induction moves generalizing w more with
  | zero => cases enough
  | succ moves ih =>
    obtain ⟨more, rfl⟩ : ∃ n, more = n + 1 := ⟨more - 1, by omega⟩
    have fewer := w.settle_advances.futureStarts.length_le
    unfold runUntilWithin
    dsimp only
    split
    · rfl
    · cases next : w.settle.futureStarts.min? with
      | none => cases deadline <;> rfl
      | some start =>
        have less := futureStarts_of_start next
        have later : runUntilWithin condition deadline more { w.settle with clock := start }
            = runUntilWithin condition deadline moves { w.settle with clock := start } :=
          ih (Nat.lt_of_lt_of_le less (by omega)) (by omega)
        cases deadline with
        | none => exact later
        | some d => simp only [later]

end World

/-- Waiting without a limit ends when the condition holds, or where the system is stuck. -/
theorem Sim.exec_runUntil_endless (condition : World → Bool) (w : World) :
    ∃ w' entries, w.Plays w' entries ∧
      ((runUntil condition none).exec w = (.ok true, w') ∧ condition w' = true ∨
        (runUntil condition none).exec w = (.error .deadlock, w') ∧ condition w' = false ∧ w'.Stuck) := by
  obtain ⟨⟨entries, plays⟩, holds⟩ := World.runUntilWithin_plays condition none (w.countWaiting + 1) w
  have enough : w.futureStarts.length < w.countWaiting + 1 := Nat.lt_succ_of_le w.futureStarts_le
  have ran : (runUntil condition none).exec w =
      ((World.runUntilWithin condition none (w.countWaiting + 1) w).1,
        (World.runUntilWithin condition none (w.countWaiting + 1) w).2) := by
    simp only [runUntil, exec_bind, exec_world, exec_setWorld, exec_ofExcept, Option.map_none]
    rfl
  refine ⟨_, entries, plays, ?_⟩
  rw [ran]
  exact (World.runUntilWithin_endless condition enough).imp (fun ended => ⟨by rw [ended], holds ended⟩)
    fun stays => ⟨by rw [stays.1], stays.2⟩

end Pipework
