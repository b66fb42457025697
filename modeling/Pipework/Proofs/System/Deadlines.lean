import Mathlib.Algebra.Group.Nat.Defs
import Pipework.Proofs.System.Ahead
import Pipework.Proofs.System.Unseen

/-!
# Waiting by a deadline

Who waits for a process by a deadline lets the system go on as it would by itself, either until the process has ended
or until the deadline (`World.leftUntil`). So several waits by one deadline, one after the other, come to the same as
a look at the system at the deadline: a wait fails just where its process is still alive then
(`Sim.exec_wait_by`), however late it has begun.

For this the span that is left has to lead from any moment to the deadline itself: no sum and no difference of times
is to be rounded (`World.Exact`), as it is for times on a common grid that is not too fine.
-/

namespace Pipework

/-! ## Exact times -/

namespace Decimal

/-- What has few binary digits is not rounded. -/
theorem roundUnits_of_grid {k : Nat} {n : Int} (grid : ((2 ^ k : Nat) : Int) ∣ n)
    (small : n.natAbs < 2 ^ (k + precision)) : roundUnits n = n := by
  have exact : roundQuotient n.natAbs 1 = n.natAbs := by
    have shifts : n.natAbs.log2 + 1 - precision ≤ k := by
      by_cases zero : n.natAbs = 0
      · simp [zero, precision]
      · have digits := (Nat.log2_lt zero).mpr small
        omega
    have divides : 2 ^ (n.natAbs.log2 + 1 - precision) ∣ n.natAbs :=
      Nat.dvd_trans (Nat.pow_dvd_pow 2 shifts) (by simpa using Int.natAbs_dvd_natAbs.mpr grid)
    unfold roundQuotient nearestEven
    simp only [Nat.div_one, Nat.one_mul, Nat.pow_eq, Nat.mod_eq_zero_of_dvd divides, Nat.mul_zero,
      if_pos (Nat.pow_pos (n := n.natAbs.log2 + 1 - precision) Nat.two_pos)]
    exact Nat.div_mul_cancel divides
  rw [roundUnits, exact]
  exact Int.sign_mul_natAbs n

end Decimal

namespace Time

variable {s t : Time}

theorem le_refl (t : Time) : t ≤ t := Int.le_refl t.units

theorem le_trans {r s t : Time} (first : r ≤ s) (second : s ≤ t) : r ≤ t := Int.le_trans first second

theorem le_of_lt (before : s < t) : s ≤ t := Int.le_of_lt before

theorem not_lt : ¬ s < t ↔ t ≤ s := Int.not_lt

theorem ext {s t : Time} (units : s.units = t.units) : s = t := congrArg mk units

/-- A point in time, or a span, of whole seconds. -/
def IsWhole (t : Time) : Prop := (Decimal.unitsOfOne : Int) ∣ t.units

instance (t : Time) : Decidable t.IsWhole := inferInstanceAs (Decidable ((Decimal.unitsOfOne : Int) ∣ t.units))

theorem max_zero_nonneg (t : Time) : 0 ≤ max 0 t := by
  change 0 ≤ if (0 : Time) ≤ t then t else 0
  split
  · assumption
  · exact le_refl 0

theorem max_zero (nonneg : 0 ≤ t) : max 0 t = t := if_pos nonneg

end Time

/-- For how long an event says that somebody waits at most. -/
def Event.limit? : Event → Option Time
  | waited _ limit | joined _ limit => limit
  | _ => none

namespace Event

variable {e : Event}

/-- Nobody is given less than no time. -/
def Patient (e : Event) : Prop := ∀ limit, e.limit? = some limit → 0 ≤ limit

/-- Nobody waits by a deadline, and nobody is sent a signal. -/
structure Silent (e : Event) : Prop where
  limit : e.limit? = none
  signal : e.signal? = none

theorem Silent.patient (silent : e.Silent) : e.Patient := fun _ has => nomatch silent.limit.symm.trans has

theorem silent_of_isExit (isExit : e.isExit) : e.Silent := by
  cases e <;> first | exact ⟨rfl, rfl⟩ | cases isExit

theorem signalsIn_of_silent {events : List Event} (silent : ∀ e ∈ events, e.Silent) : signalsIn events = [] :=
  List.filterMap_eq_nil_iff.mpr fun e member => (silent e member).signal

end Event

namespace World

/-- No sum and no difference of times is rounded in the next so long span: neither the sum that makes the deadline,
nor what is left from now, or from a start that is to come. -/
structure Exact (w : World) (span : Time) : Prop where
  sum : (w.clock + span).units = w.clock.units + span.units
  rest : ∀ now, (now = w.clock ∨ ∃ p ∈ w.processes, now = p.readyAt) → w.clock ≤ now → now ≤ w.clock + span →
    (w.clock + span - now).units = (w.clock + span).units - now.units

/-- The deadline is not before the start. -/
theorem Exact.early {w : World} {span : Time} (exact : w.Exact span) (lasts : 0 ≤ span) :
    w.clock ≤ w.clock + span := by
  change w.clock.units ≤ (w.clock + span).units
  change (0 : Int) ≤ span.units at lasts
  rw [exact.sum]
  omega

/-- Times on a common grid of at most 53 binary digits are exact. -/
theorem Exact.of_grid {w : World} {span : Time} {k : Nat}
    (grid : ∀ t, (t = w.clock ∨ t = span ∨ ∃ p ∈ w.processes, t = p.readyAt) → ((2 ^ k : Nat) : Int) ∣ t.units)
    (started : 0 ≤ w.clock) (lasts : 0 ≤ span)
    (small : w.clock.units + span.units < ((2 ^ (k + Decimal.precision) : Nat) : Int)) : w.Exact span := by
  change 0 ≤ w.clock.units at started
  change 0 ≤ span.units at lasts
  have sum : (w.clock + span).units = w.clock.units + span.units :=
    Decimal.roundUnits_of_grid (Int.dvd_add (grid _ (.inl rfl)) (grid _ (.inr (.inl rfl)))) (by omega)
  refine ⟨sum, fun now known since early => Decimal.roundUnits_of_grid (k := k) ?_ ?_⟩
  · rw [sum]
    refine Int.dvd_sub (Int.dvd_add (grid _ (.inl rfl)) (grid _ (.inr (.inl rfl)))) (grid _ ?_)
    exact known.imp_right .inr
  · change w.clock.units ≤ now.units at since
    change now.units ≤ (w.clock + span).units at early
    rw [sum] at early ⊢
    omega

private theorem exists_unitsOfOne : ∃ k, Decimal.unitsOfOne = 2 ^ k := ⟨_, Nat.pow_eq⟩

/-- So are whole seconds, as long as there are not too many of them. -/
theorem Exact.of_whole {w : World} {span : Time} (clock : w.clock.IsWhole) (whole : span.IsWhole)
    (starts : ∀ p ∈ w.processes, p.readyAt.IsWhole) (started : 0 ≤ w.clock) (lasts : 0 ≤ span)
    (small : w.clock.units + span.units < ((2 ^ Decimal.precision * Decimal.unitsOfOne : Nat) : Int)) :
    w.Exact span := by
  obtain ⟨k, unit⟩ := exists_unitsOfOne
  have bound : 2 ^ (k + Decimal.precision) = 2 ^ Decimal.precision * Decimal.unitsOfOne := by
    rw [unit, Nat.pow_add, Nat.mul_comm]
  refine .of_grid (k := k) ?_ started lasts (by rw [bound]; exact small)
  rw [← unit]
  rintro t (rfl | rfl | ⟨p, member, rfl⟩)
  · exact clock
  · exact whole
  · exact starts p member

/-- The points of time at which the clock may stand by a deadline: now, when a process starts, and the deadline. -/
structure Stands (w : World) (d t : Time) : Prop where
  since : w.clock ≤ t
  early : t ≤ d
  stands : t = w.clock ∨ t = d ∨ ∃ p ∈ w.processes, t = p.readyAt

/-- What is left leads to the deadline. -/
theorem Exact.reaches {w : World} {span now : Time} (exact : w.Exact span) (stands : w.Stands (w.clock + span) now) :
    now + max 0 (w.clock + span - now) = w.clock + span := by
  have rest : (w.clock + span - now).units = (w.clock + span).units - now.units := by
    rcases stands.stands with same | rfl | start
    · exact exact.rest now (.inl same) stands.since stands.early
    · change Decimal.roundUnits _ = _
      rw [Int.sub_self]
      rfl
    · exact exact.rest now (.inr start) stands.since stands.early
  have nonneg : 0 ≤ w.clock + span - now := by
    have early : now.units ≤ (w.clock + span).units := stands.early
    change (0 : Int) ≤ _
    omega
  rw [Time.max_zero nonneg]
  apply Time.ext
  change Decimal.roundUnits (now.units + (w.clock + span - now).units) = _
  rw [rest, show now.units + ((w.clock + span).units - now.units) = (w.clock + span).units by omega, exact.sum]
  exact exact.sum

@[simp] theorem clock_emit (w : World) (e : Event) : (w.emit e).clock = w.clock := rfl

/-! ## A system that is left alone -/

/-- The system when nobody does anything until some point of time. -/
def leftUntil (w : World) (d : Time) : World := (w.runUntilWithin (fun _ => false) (some d) (w.countWaiting + 1)).2

variable {w w' w₀ w₁ : World} {d t span : Time} {pid : Nat} {condition : World → Bool} {events : List Event}
  {entries : List (Nat × Bytes)}

theorem leftUntil_eq (w : World) (d : Time) : w.leftUntil d = match w.settle.futureStarts.min? with
    | none => { w.settle with clock := d }
    | some start =>
      if d < start then { w.settle with clock := d } else { w.settle with clock := start }.leftUntil d := by
  conv => lhs; unfold leftUntil runUntilWithin
  dsimp only
  rw [if_neg (by simp)]
  cases next : w.settle.futureStarts.min? with
  | none => rfl
  | some start =>
    dsimp only
    split
    · rfl
    · have less := futureStarts_of_start next
      have fewer := w.settle_advances.count
      have bound := w.settle.futureStarts_le
      exact congrArg Prod.snd (runUntilWithin_any (Nat.lt_succ_of_le (futureStarts_le _)) (by omega))

@[simp] theorem leftUntil_settle (w : World) (d : Time) : w.settle.leftUntil d = w.leftUntil d := by
  rw [leftUntil_eq, leftUntil_eq w, settle_settle]

/-- A wait with a deadline is a part of the way to the deadline: it ends on the way, when its condition holds, or at
the deadline. -/
theorem runUntilWithin_leftUntil (condition : World → Bool) (d : Time) {moves : Nat} :
    ∀ {w : World}, w.futureStarts.length < moves → ∃ v,
      runUntilWithin condition (some d) moves w = (.ok true, v) ∧ condition v = true ∧ v.leftUntil d = w.leftUntil d ∨
      ∃ u, runUntilWithin condition (some d) moves w = (.ok false, v) ∧ v = w.leftUntil d ∧
        v = { u with clock := d } ∧ condition u = false := by
  induction moves with
  | zero => exact fun enough => absurd enough (Nat.not_lt_zero _)
  | succ moves ih =>
    intro w enough
    have fewer := w.settle_advances.futureStarts.length_le
    unfold runUntilWithin
    dsimp only
    split
    · next holds => exact ⟨w.settle, .inl ⟨rfl, holds, leftUntil_settle w d⟩⟩
    · next fails =>
      rw [Bool.not_eq_true] at fails
      rw [leftUntil_eq w]
      cases next : w.settle.futureStarts.min? with
      | none => exact ⟨_, .inr ⟨_, rfl, rfl, rfl, fails⟩⟩
      | some start =>
        have less := futureStarts_of_start next
        dsimp only
        split
        · exact ⟨_, .inr ⟨_, rfl, rfl, rfl, fails⟩⟩
        · exact ih (by omega)

/-- What was seen on the way, and by whom, is nothing to the system. -/
theorem leftUntil_unseen (same : w'.unseen = w.unseen) (d : Time) :
    (w'.leftUntil d).unseen = (w.leftUntil d).unseen := by
  have waiting : w'.countWaiting = w.countWaiting := by rw [← countWaiting_unseen w', same, countWaiting_unseen]
  rw [leftUntil, leftUntil, waiting]
  exact (runUntilWithin_unseen (fun _ => rfl) (some d) _ same).2

theorem leftUntil_plays (w : World) (d : Time) : ∃ entries, w.Plays (w.leftUntil d) entries :=
  (runUntilWithin_plays _ _ _ w).1

/-! ## Time that passes -/

/-- What takes no time, waits for nothing and sends no signal. Who has ended and what has been given up stay so. -/
structure Instant (w w' : World) : Prop where
  clock : w'.clock = w.clock
  starts : w'.processes.map (·.readyAt) = w.processes.map (·.readyAt)
  silent : ∃ events, w'.events = w.events ++ events ∧ ∀ e ∈ events, e.Silent
  gone : ∀ pid, Sim.hasEnded pid w = true → Sim.hasEnded pid w' = true
  keeps : w.Keeps w'
  releases : ∀ pipe, Releases pipe w w'

/-- What happens by a deadline: the clock does not go back, and not beyond the deadline, and nobody is given less
than no time. -/
structure Lasts (w₀ : World) (d : Time) (w : World) : Prop where
  stands : w₀.Stands d w.clock
  starts : w.processes.map (·.readyAt) = w₀.processes.map (·.readyAt)
  patient : ∃ events, w.events = w₀.events ++ events ∧ ∀ e ∈ events, e.Patient

theorem starts_of_still (still : w'.processes.map Process.still = w.processes.map Process.still) :
    w'.processes.map (·.readyAt) = w.processes.map (·.readyAt) := by
  have same := congrArg (List.map Process.readyAt) still
  rwa [List.map_map, List.map_map] at same

theorem hasEnded_eq_false_iff : Sim.hasEnded pid w = false ↔ w.exit? pid = some none := by
  cases found : w.process? pid with
  | none => simp [Sim.hasEnded, exit?, found]
  | some p => simp [Sim.hasEnded, exit?, found, Process.alive]

theorem hasEnded_iff : Sim.hasEnded pid w = true ↔ w.exit? pid ≠ some none := by
  rw [← Bool.not_eq_false, hasEnded_eq_false_iff]

namespace Instant

theorem of_passes (passes : w.Passes w' events) (clock : w'.clock = w.clock) (silent : ∀ e ∈ events, e.Silent)
    (releases : ∀ pipe, Releases pipe w w') : w.Instant w' where
  clock := clock
  starts := starts_of_still passes.still
  silent := ⟨events, passes.trace, silent⟩
  gone pid ended := by
    rw [hasEnded_iff] at ended ⊢
    exact ended ∘ passes.alive
  keeps := passes.keeps
  releases := releases

theorem of_same (clock : w'.clock = w.clock) (processes : w'.processes = w.processes) (trace : w'.trace = w.trace)
    (descriptors : w'.descriptors = w.descriptors) (retired : w'.retired = w.retired)
    (pipes : w'.pipes.length = w.pipes.length) : w.Instant w' where
  clock := clock
  starts := by rw [processes]
  silent := ⟨[], by simp [World.events, trace], by simp⟩
  gone pid ended := by rwa [Sim.hasEnded, process?, processes]
  keeps := keeps_of_same descriptors retired processes
  releases _ := ⟨Nat.le_of_eq pipes.symm, fun _ member _ => descriptors ▸ member,
    fun p member => ⟨p, processes ▸ member, fun _ => Nat.le_refl _⟩⟩

theorem refl (w : World) : w.Instant w := of_same rfl rfl rfl rfl rfl rfl

theorem trans (first : w₀.Instant w) (second : w.Instant w') : w₀.Instant w' where
  clock := second.clock.trans first.clock
  starts := second.starts.trans first.starts
  silent := by
    obtain ⟨a, traceA, silentA⟩ := first.silent
    obtain ⟨b, traceB, silentB⟩ := second.silent
    refine ⟨a ++ b, by rw [traceB, traceA, List.append_assoc], fun e member => ?_⟩
    exact (List.mem_append.mp member).elim (silentA e) (silentB e)
  gone pid := second.gone pid ∘ first.gone pid
  keeps := first.keeps.trans second.keeps
  releases pipe := (first.releases pipe).trans (second.releases pipe)

theorem emit {e : Event} (silent : e.Silent) (w : World) : w.Instant (w.emit e) where
  clock := rfl
  starts := rfl
  silent := ⟨[e], events_emit w e, by simpa using silent⟩
  gone _ := id
  keeps := keeps_of_same rfl rfl rfl
  releases pipe :=
    have same : Gains pipe [] w (w.emit e) := gains_of_same rfl rfl rfl
    same.toReleases

theorem shut (w : World) (d : Nat) : w.Instant (w.shut d) where
  clock := rfl
  starts := rfl
  silent := ⟨[.closed d], events_emit _ _, fun e member => by rw [List.mem_singleton.mp member]; exact ⟨rfl, rfl⟩⟩
  gone _ := id
  keeps := keeps_shut d
  releases _ := gains_shut.toReleases

theorem settle (w : World) : w.Instant w.settle := by
  obtain ⟨_, plays⟩ := settle_plays w
  obtain ⟨events, passes, exits⟩ := plays.runs
  exact of_passes passes w.settle_advances.clock (fun e member => Event.silent_of_isExit (exits e member))
    fun _ => plays.releases

theorem notice (w : World) (pid : Nat) : w.Instant (w.notice pid) :=
  of_passes (notice_passes w pid) rfl nofun fun _ => gains_notice.toReleases

theorem deliver? {c : Channel} {data : Bytes} (delivered : w.deliver? c data = some w') : w.Instant w' :=
  of_passes (passes_deliver? delivered) (Advances.deliver? delivered).clock nofun
    fun _ => (gains_deliver? delivered).toReleases

/-- Where nobody writes any more, nobody will. -/
theorem atEnd {r : Reader} (instant : w.Instant w') (atEnd : r.atEnd w = true) : r.atEnd w' = true := by
  unfold Reader.atEnd at atEnd ⊢
  rw [instant.keeps.pipeOf?]
  cases leads : w.pipeOf? r.descriptor with
  | none => rfl
  | some pipe =>
    rw [leads, Option.map_some, Option.getD_some, Bool.not_eq_true', hasWriter_eq_false_iff] at atEnd
    rw [Option.map_some, Option.getD_some, hasWriter_eq_false_iff.mpr ((instant.releases pipe).holders rfl atEnd)]
    rfl

end Instant

namespace Lasts

theorem refl (early : w.clock ≤ d) : w.Lasts d w :=
  ⟨⟨Time.le_refl _, early, .inl rfl⟩, rfl, [], by simp, by simp⟩

/-- What goes on after it. -/
private theorem onward (lasts : w₀.Lasts d w) (stands : w₀.Stands d w'.clock)
    (starts : w'.processes.map (·.readyAt) = w.processes.map (·.readyAt)) (trace : w'.events = w.events ++ events)
    (patient : ∀ e ∈ events, e.Patient) : w₀.Lasts d w' := by
  obtain ⟨before, traced, earlier⟩ := lasts.patient
  refine ⟨stands, starts.trans lasts.starts, before ++ events, ?_, fun e member => ?_⟩
  · rw [trace, traced, List.append_assoc]
  · exact (List.mem_append.mp member).elim (earlier e) (patient e)

theorem instant (lasts : w₀.Lasts d w) (instant : w.Instant w') : w₀.Lasts d w' := by
  obtain ⟨_, trace, silent⟩ := instant.silent
  exact lasts.onward (instant.clock ▸ lasts.stands) instant.starts trace fun e member => (silent e member).patient

/-- What happens to processes in no time. -/
theorem passes (lasts : w₀.Lasts d w) (passes : w.Passes w' events) (clock : w'.clock = w.clock)
    (patient : ∀ e ∈ events, e.Patient) : w₀.Lasts d w' :=
  lasts.onward (clock ▸ lasts.stands) (starts_of_still passes.still) passes.trace patient

theorem emit {e : Event} (lasts : w₀.Lasts d w) (patient : e.Patient) : w₀.Lasts d (w.emit e) :=
  lasts.onward lasts.stands rfl (events_emit w e) (by simpa using patient)

/-- A start that is to come before the deadline. -/
private theorem of_start (lasts : w₀.Lasts d w) {start : Time} (next : w.futureStarts.min? = some start)
    (early : start ≤ d) : w₀.Stands d start := by
  have member : start ∈ w.futureStarts := List.min?_mem next
  unfold futureStarts at member
  obtain ⟨starts, later⟩ := List.mem_filter.mp member
  obtain ⟨p, waits, rfl⟩ := List.mem_map.mp starts
  have known : p.readyAt ∈ w₀.processes.map (·.readyAt) :=
    lasts.starts ▸ List.mem_map_of_mem (List.mem_filter.mp waits).1
  obtain ⟨q, known, same⟩ := List.mem_map.mp known
  exact ⟨Time.le_trans lasts.stands.since (Time.le_of_lt (by simpa using later)), early,
    .inr (.inr ⟨q, known, same.symm⟩)⟩

/-- The clock stands still, or moves to a start or to the deadline. -/
private theorem stands_runUntilWithin (condition : World → Bool) (moves : Nat) : ∀ {w : World}, w₀.Lasts d w →
    w₀.Stands d (World.runUntilWithin condition (some d) moves w).2.clock := by
  induction moves with
  | zero => exact fun lasts => lasts.stands
  | succ moves ih =>
    intro w lasts
    have settled := lasts.instant (.settle w)
    have last : w₀.Stands d d := ⟨Time.le_trans lasts.stands.since lasts.stands.early, Time.le_refl d, .inr (.inl rfl)⟩
    unfold World.runUntilWithin
    dsimp only
    split
    · exact settled.stands
    · cases next : w.settle.futureStarts.min? with
      | none => exact last
      | some start =>
        dsimp only
        split
        · exact last
        · next early => exact ih ⟨settled.of_start next (Time.not_lt.mp early), settled.starts, settled.patient⟩

/-- To wait until the deadline at most. -/
theorem runUntilWithin (lasts : w₀.Lasts d w) (condition : World → Bool) (moves : Nat) :
    w₀.Lasts d (runUntilWithin condition (some d) moves w).2 := by
  obtain ⟨⟨entries, plays⟩, -⟩ := runUntilWithin_plays condition (some d) moves w
  obtain ⟨events, passes, exits⟩ := plays.runs
  exact lasts.onward (stands_runUntilWithin condition moves lasts) (starts_of_still passes.still) passes.trace
    fun e member => (Event.silent_of_isExit (exits e member)).patient

end Lasts

/-! ## Waiting for a process -/

theorem exit?_of_unseen (same : w'.unseen = w.unseen) (pid : Nat) : w'.exit? pid = w.exit? pid := by
  rw [← exit?_unseen w', same, exit?_unseen]

/-- The arguments of a process. -/
def argsOf (w : World) (pid : Nat) : List Text := ((w.process? pid).map (·.args)).getD []

/-- A process that is alive at the deadline has been alive before. -/
theorem alive_of_leftUntil (alive : (w.leftUntil d).exit? pid = some none) : w.exit? pid = some none := by
  obtain ⟨entries, plays⟩ := leftUntil_plays w d
  obtain ⟨events, passes, -⟩ := plays.runs
  exact passes.alive alive

end World

open World

/-- To wait until some deadline at most for a condition. -/
theorem Sim.exec_runUntil_by {w₀ w : World} {span : Time} (condition : World → Bool) (exact : w₀.Exact span)
    (lasts : w₀.Lasts (w₀.clock + span) w) : ∃ v, w₀.Lasts (w₀.clock + span) v ∧
    ((runUntil condition (some (max 0 (w₀.clock + span - w.clock)))).exec w = (.ok true, v) ∧ condition v = true ∧
        v.leftUntil (w₀.clock + span) = w.leftUntil (w₀.clock + span) ∨
      ∃ u, (runUntil condition (some (max 0 (w₀.clock + span - w.clock)))).exec w = (.ok false, v) ∧
        v = w.leftUntil (w₀.clock + span) ∧ v = { u with clock := w₀.clock + span } ∧ condition u = false) := by
  have deadline := exact.reaches lasts.stands
  have within := lasts.runUntilWithin condition (w.countWaiting + 1)
  obtain ⟨v, ended⟩ := runUntilWithin_leftUntil condition (w₀.clock + span) (Nat.lt_succ_of_le w.futureStarts_le)
  rw [exec_runUntil_eq, Option.map_some, deadline]
  refine ⟨v, ?_, ended⟩
  rcases ended with ⟨ran, -⟩ | ⟨u, ran, -⟩
  · rwa [ran] at within
  · rwa [ran] at within

/-- **Waiting for a process by a deadline.** It takes no longer than that, whenever it has begun. Either the process has
ended when it returns, and what the system will come to by the deadline is the same as before; or it fails at the
deadline, in the system as it is then when it is left alone, and the process is alive there. -/
theorem Sim.exec_wait_by {w₀ w : World} {span : Time} (exact : w₀.Exact span)
    (lasts : w₀.Lasts (w₀.clock + span) w) (pid : Nat) : ∃ v, w₀.Lasts (w₀.clock + span) v ∧
    ((wait pid (some (max 0 (w₀.clock + span - w.clock)))).exec w = (.ok (), v) ∧ v.exit? pid ≠ some none ∧
        (v.leftUntil (w₀.clock + span)).unseen = (w.leftUntil (w₀.clock + span)).unseen ∨
      (wait pid (some (max 0 (w₀.clock + span - w.clock)))).exec w =
          (.error (.timeout (v.argsOf pid) (max 0 (w₀.clock + span - w.clock))), v) ∧
        v.exit? pid = some none ∧ v.clock = w₀.clock + span ∧
        v.unseen = (w.leftUntil (w₀.clock + span)).unseen) := by
  have called := lasts.emit (e := .waited pid (some (max 0 (w₀.clock + span - w.clock)))) (by
    rintro _ ⟨⟩
    exact Time.max_zero_nonneg _)
  have begun := leftUntil_unseen (unseen_emit w (.waited pid (some (max 0 (w₀.clock + span - w.clock)))))
    (w₀.clock + span)
  obtain ⟨v, within, ⟨ran, ended, same⟩ | ⟨u, ran, same, rests, alive⟩⟩ :=
    exec_runUntil_by (hasEnded pid) exact called
  all_goals rw [clock_emit] at ran
  · refine ⟨v.notice pid, within.instant (.notice v pid), .inl ⟨?_, fun alive => ?_, ?_⟩⟩
    · simp only [wait, exec_bind, exec_emit, ran, exec_look, if_true, exec_pure]
    · rw [exit?_notice] at alive
      cases ended.symm.trans (hasEnded_eq_false_iff.mpr alive)
    · rw [leftUntil_unseen (unseen_notice v pid), same, begun]
  · refine ⟨v, within, .inr ⟨?_, ?_, by rw [rests], by rw [same, begun]⟩⟩
    · simp [wait, exec_bind, ran, argsOf]
    · rw [rests]
      exact hasEnded_eq_false_iff.mp alive

end Pipework
