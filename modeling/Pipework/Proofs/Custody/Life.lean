import Mathlib.Data.List.Forall2
import Pipework.Proofs.Custody.Crews
import Pipework.Proofs.Custody.Handover

/-!
# The life of a handle

A caller uses a handle by its calls, in any order and whatever failures they come to (`Handle.use`). From the
moment of the handover on all of it is one run of custody (`Handle.used_left`), so that at every moment each
descriptor that was handed over has one owner or has been closed, once. After `close` and after `abandon` the
handle itself owns nothing any more, and what is not closed then is with a pump that still runs
(`Handle.owned_for_life`).
-/

namespace Pipework

/-- A later status of the same process. -/
structure ProcessStatus.Continues (before after : ProcessStatus) : Prop where
  job : after.job = before.job
  pid : after.pid = before.pid
  ignored : after.ignored = before.ignored
  /-- A code that is known does not change. -/
  code : ∀ code, before.code = some code → after.code = some code

namespace Handle

open Custody World

/-- What a caller can do with a handle. -/
inductive Use where
  | read
  | write (data : Bytes)
  | poll
  | wait (limit : Limit)
  | check (limit : Limit)
  | communicate (input : Option Buffer) (limit : Limit)
  | kill
  | terminate
  | stop (grace : Except Failure Time)
  /-- To close it, also at the end of a block; errors are discarded when another one is on its way. -/
  | close (discardErrors : Bool)
  | abandon

/-- The call. What it answers makes no difference here. -/
def Use.act : Use → Owning Handle Unit
  | read => do let _ ← Handle.read
  | write data => do let _ ← Handle.write data
  | poll => do let _ ← Handle.poll
  | wait limit => do let _ ← Handle.wait limit
  | check limit => do let _ ← Handle.check limit
  | communicate input limit => do let _ ← Handle.communicate input limit
  | kill => Handle.kill
  | terminate => Handle.terminate
  | stop grace => do let _ ← Handle.stop grace
  | close discardErrors => do let _ ← Handle.close discardErrors
  | abandon => Handle.abandon

/-- The uses after which the caller has no ends left. -/
def Use.isLast : Use → Bool
  | close _ => true
  | abandon => true
  | _ => false

/-- The handle and the system after some calls, one after the other. The caller goes on after a failure. -/
def use : List Use → Handle → World → Handle × World
  | [], h, w => (h, w)
  | u :: rest, h, w => use rest (u.act.exec h w).2.1 (u.act.exec h w).2.2

theorem use_append (first second : List Use) (h : Handle) (w : World) :
    use (first ++ second) h w = use second (use first h w).1 (use first h w).2 := by
  induction first generalizing h w with
  | nil => rfl
  | cons u rest ih => exact ih _ _

variable {c : Custody} {h₀ h h' : Handle} {crew : List Pump} {w w' : World} {events : List Event}

/-! ## One use -/

section Sound

variable (sound : c.Sound)
include sound

/-- Every use but `communicate` keeps what is tended. -/
private theorem Tended.act {u : Use} (alone : ∀ input limit, u ≠ .communicate input limit) :
    u.act.Preserves (Tended c h₀ crew) := by
  cases u with
  | read => exact .bind (Tended.read sound) fun _ => .pure ()
  | write data => exact .bind (Tended.write data) fun _ => .pure ()
  | poll => exact .bind Tended.poll fun _ => .pure ()
  | wait limit => exact .bind (Tended.wait sound limit) fun _ => .pure ()
  | check limit => exact .bind (Tended.check sound limit) fun _ => .pure ()
  | communicate input limit => exact absurd rfl (alone input limit)
  | kill => exact Tended.kill
  | terminate => exact Tended.terminate
  | stop grace => exact .bind (Tended.stop sound grace) fun _ => .pure ()
  | close discardErrors => exact .bind (Tended.close sound discardErrors) fun _ => .pure ()
  | abandon => exact Tended.abandon sound

/-- Every use leaves the handle and all pumps settled. -/
theorem Tended.act_left (tended : Tended c h₀ crew h w) (u : Use) :
    let r := u.act.exec h w
    Left c h₀ crew r.2.1 r.2.2 := by
  have same (alone : ∀ input limit, u ≠ .communicate input limit) :
      Left c h₀ crew (u.act.exec h w).2.1 (u.act.exec h w).2.2 :=
    ⟨[], by rw [List.append_nil]; exact Tended.act sound alone h w tended, by simp⟩
  cases u with
  | communicate input limit =>
    have left := tended.communicate sound input limit
    dsimp only [Use.act]
    rw [Owning.exec_bind]
    generalize (Handle.communicate input limit).exec h w = result at left
    obtain ⟨outcome, h', w'⟩ := result
    cases outcome <;> exact left
  | _ => exact same fun _ _ other => by cases other

/-- After its last use a handle has no ends. -/
private theorem Tended.act_last (tended : Tended c h₀ crew h w) {u : Use} (last : u.isLast) (s : Stream) :
    (u.act.exec h w).2.1.endOf s = none := by
  have gone {α : Type} {m : Owning Handle α} {w' : World} (tended' : Tended c h₀ crew h.bare w')
      (keeps : m.Preserves (Tended c h.bare crew)) : (m.exec h.bare w').2.1.endOf s = none := by
    have after := keeps _ _
      { run := tended'.run, pumps := tended'.pumps, running := fun _ member _ => member, count := rfl
        processes := rfl, settings := rfl, ends := fun _ _ => id }
    cases found : (m.exec h.bare w').2.1.endOf s with
    | none => rfl
    | some d => exact ((endOf_bare h s).symm.trans (after.ends s d found)).symm
  cases u with
  | close discardErrors =>
    obtain ⟨undelivered, w', -, closed, tended', -⟩ := tended.exec_close sound discardErrors
    have bare := gone tended' (Tended.awaitEnd sound (if discardErrors then none else undelivered))
    rw [← closed] at bare
    unfold Use.act
    rw [Owning.exec_bind]
    generalize (Handle.close discardErrors).exec h w = result at bare
    obtain ⟨outcome, h', w''⟩ := result
    cases outcome <;> exact bare
  | abandon =>
    obtain ⟨w', abandoned, tended'⟩ := tended.exec_abandon sound
    unfold Use.act
    rw [abandoned]
    exact gone tended' Tended.leaveBehind
  | _ => cases last

/-! ## Many uses -/

/-- One more use does so again. -/
theorem Tended.Left.act (left : Tended.Left c h₀ crew h w) (u : Use) :
    Tended.Left c h₀ crew (u.act.exec h w).2.1 (u.act.exec h w).2.2 := by
  obtain ⟨more, tended, settled⟩ := left
  obtain ⟨others, tended', settled'⟩ := tended.act_left sound u
  refine ⟨more ++ others, by rwa [← List.append_assoc], fun p member => ?_⟩
  exact (List.mem_append.mp member).elim (settled p) (settled' p)

/-- Any uses leave the handle and all pumps settled. -/
private theorem Tended.Left.use (left : Tended.Left c h₀ crew h w) (uses : List Use) :
    Tended.Left c h₀ crew (Handle.use uses h w).1 (Handle.use uses h w).2 := by
  induction uses generalizing h w with
  | nil => exact left
  | cons u rest ih => exact ih (left.act sound u)

/-- Once a handle has had its last use, it has no ends any more. -/
private theorem Tended.Left.use_last (left : Tended.Left c h₀ crew h w) {uses : List Use}
    (ended : ∃ u ∈ uses, u.isLast) (s : Stream) : (Handle.use uses h w).1.endOf s = none := by
  obtain ⟨u, member, last⟩ := ended
  obtain ⟨before, after, rfl⟩ := List.append_of_mem member
  obtain ⟨more, tended, settled⟩ := left.use sound before
  have bare := tended.act_last sound last s
  obtain ⟨others, tended', settled'⟩ := tended.act_left sound u
  -- Whatever comes after that only takes ends away.
  have now : Tended.Left c (u.act.exec (Handle.use before h w).1 (Handle.use before h w).2).2.1 crew
      (u.act.exec (Handle.use before h w).1 (Handle.use before h w).2).2.1
      (u.act.exec (Handle.use before h w).1 (Handle.use before h w).2).2.2 := by
    refine ⟨more ++ others, ?_, fun p known => (List.mem_append.mp known).elim (settled p) (settled' p)⟩
    rw [← List.append_assoc]
    exact { run := tended'.run, pumps := tended'.pumps, running := fun _ member _ => member, count := rfl
            processes := rfl, settings := rfl, ends := fun _ _ => id }
  obtain ⟨_, later, -⟩ := now.use sound after
  rw [use_append]
  cases found : (Handle.use (u :: after) (Handle.use before h w).1 (Handle.use before h w).2).1.endOf s with
  | none => rfl
  | some d => exact (bare.symm.trans (later.ends s d found)).symm

end Sound

/-! ## The statuses -/

/-- The statuses of a handle at a later moment continue those at an earlier one, in the same order. -/
theorem statuses_continue (same : h'.processes = h.processes) (proceeds : w.Proceeds w' events)
    (honest : ∀ pid ∈ h.pids, w.Honest pid) :
    List.Forall₂ ProcessStatus.Continues (h.statusesIn w) (h'.statusesIn w') := by
  have known (w : World) (pid : Nat) (code : Int) :
      (w.process? pid).bind (·.seen) = some code ↔ w.seen? pid = some (some code) := by
    rw [seen?]
    cases w.process? pid <;> simp
  rw [statusesIn, statusesIn, same, List.forall₂_map_left_iff, List.forall₂_map_right_iff]
  refine List.forall₂_same.mpr fun entry member => ⟨rfl, rfl, rfl, fun code seen => ?_⟩
  rw [known] at seen ⊢
  exact proceeds.reaped _ code ⟨honest _ (List.mem_map_of_mem member) code seen, seen⟩

/-! ## From the start on -/

/-- Where some uses have brought a handle, since the moment of the handover. -/
structure Stands (c₀ : Custody) (uses : List Use) (h : Handle) (crew : List Pump) (w : World)
    (events : List Event) : Prop where
  /-- It came to this by steps of owners on what was theirs and open, and of nobody else. -/
  run : Run c₀ (h.custody crew w)
  trace : w.events = c₀.world.events ++ events
  /-- What was handed over is open and has one owner, or it was closed, once. -/
  accounted : ∀ d, c₀.Holds d → (h.custody crew w).Accounted events d
  /-- After its last use the handle owns nothing. -/
  bare : (∃ u ∈ uses, u.isLast) → ∀ s, h.endOf s = none
  /-- All is closed then but for what is with pumps that still run. -/
  closed : (∃ u ∈ uses, u.isLast) → ∀ d, c₀.Holds d →
    d ∈ closedBy events ∨ ∃ p ∈ h.pumps ++ crew, p.thread = .running ∧ p.holding = some d

/-- What further uses make of a handle: they carry the run on, ends only go, and statuses only become
known. -/
structure Onward (h : Handle) (crew : List Pump) (w : World) (h' : Handle) (w' : World) : Prop where
  run : ∃ more, Run (h.custody crew w) (h'.custody (crew ++ more) w')
  ends : ∀ s d, h'.endOf s = some d → h.endOf s = some d
  statuses : List.Forall₂ ProcessStatus.Continues (h.statusesIn w) (h'.statusesIn w')

private theorem Tended.onward (tended : Tended c h₀ crew h w) (sound : c.Sound)
    (honest : ∀ pid ∈ h₀.pids, c.world.Honest pid) (later : List Use) :
    Onward h crew w (Handle.use later h w).1 (Handle.use later h w).2 := by
  obtain ⟨_, before⟩ := tended.run.since sound
  have now : Tended.Left (h.custody crew w) h crew h w :=
    ⟨[], by rw [List.append_nil]; exact .refl tended.pumps, by simp⟩
  obtain ⟨more, after, -⟩ := now.use before.sound later
  obtain ⟨_, since⟩ := after.run.since before.sound
  refine ⟨⟨more, after.run⟩, after.ends,
    statuses_continue after.processes since.proceeds fun pid member => ?_⟩
  rw [pids, tended.processes] at member
  exact before.proceeds.honest pid (honest pid member)

/-- **Single ownership over a handle's life.** A start hands over everything that it has opened and not
closed. However the handle is used from then on, each of these descriptors has one owner and is open, or has
been closed, once, at every moment of the run that the uses are; and with time ends only go, and statuses only
become known. -/
theorem owned_for_life {item : Item} {values : RedirectValues} {e e' : Engine} {handle : Handle}
    (sound : w.Sound) (spawned : (Engine.spawn item values).exec e w = (.ok handle, e', w')) :
    ∃ w₁ σ w₀, Engine.Begins item values w handle.graph w₁ ∧
      (Engine.wire e.settings handle.graph).exec w₁ = (.ok σ, w₀) ∧
      (∀ d, (Engine.handed handle σ w₀).Holds d ↔
        d ∈ w₀.descriptors.map (·.1) ∧ d ∉ w.descriptors.map (·.1)) ∧
      (∀ c c', Run (Engine.handed handle σ w₀) c → Run c c' →
        ∃ events, Since c c' events ∧ ∀ d, c.Holds d → c'.Accounted events d) ∧
      ∀ uses, ∃ crew events, Stands (Engine.handed handle σ w₀) uses (use uses handle w').1 crew
          (use uses handle w').2 events ∧
        ∀ later, Onward (use uses handle w').1 crew (use uses handle w').2
          (use (uses ++ later) handle w').1 (use (uses ++ later) handle w').2 := by
  obtain ⟨w₁, w₂, σ, events, launching, starts, succeeds⟩ := Engine.spawn_ok sound spawned
  have handed := succeeds.handed_sound sound
  obtain ⟨started, settled⟩ := succeeds.handed_run sound spawned
  refine ⟨w₁, _, _, succeeds.begins, succeeds.wired, succeeds.holds_iff sound, fun c c' first second => ?_,
    fun uses => ?_⟩
  · obtain ⟨events, since⟩ := second.since (first.sound handed)
    exact ⟨events, since, fun d => since.accounted⟩
  have begun : Tended.Left (handle.custody [] w') handle [] handle w' :=
    ⟨[], by rw [List.append_nil]; exact .refl settled, by simp⟩
  have sound' := started.sound handed
  obtain ⟨crew, tended, crewSettled⟩ := begun.use sound' uses
  have run : Run (Engine.handed handle σ _) _ := started.trans tended.run
  obtain ⟨events, since⟩ := run.since handed
  refine ⟨[] ++ crew, events, ⟨run, since.proceeds.trace, fun d => since.accounted,
    begun.use_last sound', fun last d holds => ?_⟩, fun later => ?_⟩
  · by_cases owned : ((use uses handle w').1.custody ([] ++ crew) (use uses handle w').2).Holds d
    · refine .inr (running_of_holds (begun.use_last sound' last) (fun p member => ?_) owned)
      exact (List.mem_append.mp member).elim (tended.pumps p) (crewSettled p)
    · exact .inl ((since.closed d holds).mpr owned)
  · rw [use_append]
    exact tended.onward sound' (fun pid => succeeds.honest sound spawned) later

/-- The small graph gives the caller one end, which is gone when the handle has been read and closed. -/
theorem small_owned_for_life : ∃ handle e' w' w₁ σ w₀,
    (Engine.spawn Engine.smallGraph.toItem {}).exec {} (Engine.smallWorld ['a', 'b']) = (.ok handle, e', w') ∧
    (Engine.wire {} handle.graph).exec w₁ = (.ok σ, w₀) ∧ handle.endOf .stdout = some 14 ∧
    ∃ crew events, Stands (Engine.handed handle σ w₀) [.read, .close false]
        (use [.read, .close false] handle w').1 crew (use [.read, .close false] handle w').2 events ∧
      ∀ s, (use [.read, .close false] handle w').1.endOf s = none := by
  have ends : ((Engine.spawn Engine.smallGraph.toItem {}).exec {} (Engine.smallWorld ['a', 'b'])).1.toOption.map
      (fun h => h.endOf .stdout) = some (some 14) := by
    decide +kernel
  generalize ran : (Engine.spawn Engine.smallGraph.toItem {}).exec {} (Engine.smallWorld ['a', 'b']) = result
    at ends
  obtain ⟨outcome, e', w'⟩ := result
  cases outcome with
  | error failure => cases ends
  | ok handle =>
    have isEnd : handle.endOf .stdout = some 14 := Option.some.inj ends
    obtain ⟨w₁, σ, w₀, begins, wired, holds, moments, stands⟩ :=
      owned_for_life (Engine.smallWorld_sound ['a', 'b']) ran
    obtain ⟨crew, events, stand, -⟩ := stands [.read, .close false]
    exact ⟨handle, e', w', w₁, σ, w₀, rfl, wired, isEnd, crew, events, stand,
      stand.bare ⟨.close false, by simp, rfl⟩⟩

end Handle

end Pipework
