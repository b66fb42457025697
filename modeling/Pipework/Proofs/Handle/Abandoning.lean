import Pipework.Proofs.Capture.Cleanup
import Pipework.Proofs.Handle.Reapers

/-!
# Handles that are given up

While a handle is kept, the caller uses it and its ends, whatever comes of that, and processes go on between any two
calls (`Handle.Later`); it stays ready at every moment. When it is given up in such a state, its ends are closed, and
each process is looked at unless its end is known: it is either reaped then, or it still runs and is left to a
background reaper (`Ready.exec_abandon`). The reaper waits for what was left to it, one after the other
(`exec_reapOne`). Of a handle that was closed before there is nothing to close and nothing to leave
(`exec_abandon_of_over`).
-/

namespace Pipework

open Custody World

variable {w w' w₀ v : World} {pids left : List Nat} {pid : Nat} {events : List Event}

/-! ## What is looked at -/

namespace World

theorem seen?_notice_of_ne {q : Nat} (other : q ≠ pid) : (w.notice pid).seen? q = w.seen? q := by
  rw [seen?, notice, process?_changeProcess w pid q (fun p => { p with seen := p.exit }) fun _ => rfl,
    Option.map_map, seen?]
  cases found : w.process? q with
  | none => rfl
  | some p => simp [pid_of_process? found, other]

theorem settle_proceeds (w : World) : ∃ events, w.Proceeds w.settle events ∧ ∀ e ∈ events, e.isExit := by
  have along {v : World} {entries : List (Nat × Bytes)} (plays : w.Plays v entries) :
      ∃ events, w.Proceeds v events ∧ ∀ e ∈ events, e.isExit := by
    induction plays with
    | refl => exact ⟨[], .refl w, by simp⟩
    | tail _ acts ih =>
      obtain ⟨first, proceeds, exits⟩ := ih
      obtain ⟨later, proceeds', exits'⟩ := acts.proceeds
      exact ⟨_, proceeds.trans proceeds', fun e member => (List.mem_append.mp member).elim (exits e) (exits' e)⟩
  obtain ⟨_, plays⟩ := settle_plays w
  exact along plays

/-- Some processes are looked at, if their ends are not known: each of them is reaped then, or it still lives and is
left. -/
structure Sorts (w w' : World) (pids left : List Nat) (events : List Event) : Prop where
  proceeds : w.Proceeds w' events
  exits : ∀ e ∈ events, e.isExit
  remain : left = pids.filter fun pid => w'.seen? pid = some none
  reaped : ∀ pid ∈ pids, pid ∉ left → ∃ code, w'.IsReaped pid code
  lived : ∀ pid ∈ left, w.exit? pid = some none
  others : ∀ pid ∉ pids, w'.seen? pid = w.seen? pid

end World

namespace Handle

/-- Look at a process unless its end is known; answers whether it still runs as far as one can see. -/
private def stillRuns (pid : Nat) : Sim Bool := do
  match ← Sim.seenCode pid with
  | some _ => pure false
  | none => pure (← Sim.poll pid).isNone

private theorem unfinished_cons (pid : Nat) (rest : List Nat) : unfinished (pid :: rest) = (do
    let runs ← stillRuns pid
    let others ← unfinished rest
    return if runs then pid :: others else others) := by
  rw [unfinished, stillRuns, bind_assoc]
  congr 1
  funext code
  cases code <;> simp only [bind_assoc, pure_bind]

/-- One process is looked at. -/
private theorem exec_stillRuns (known : (w.exit? pid).isSome) (honest : w.Honest pid) :
    ∃ runs w' events, (stillRuns pid).exec w = (.ok runs, w') ∧ w.Proceeds w' events ∧
      (∀ e ∈ events, e.isExit) ∧ (∀ q, q ≠ pid → w'.seen? q = w.seen? q) ∧
      (runs = true ∧ w'.seen? pid = some none ∧ w.exit? pid = some none ∨
        runs = false ∧ ∃ code, w'.IsReaped pid code) := by
  have seenKnown : (w.seen? pid).isSome := by simpa [exit?, seen?] using known
  obtain ⟨state, seen⟩ := Option.isSome_iff_exists.mp seenKnown
  cases state with
  | some code =>
    have answer : (stillRuns pid).exec w = (.ok false, w) := by
      rw [stillRuns, Sim.exec_bind, Sim.exec_seenCode, seen]
      rfl
    exact ⟨false, w, [], answer, .refl w, by simp, fun _ _ => rfl, .inr ⟨rfl, code, honest code seen, seen⟩⟩
  | none =>
    have answer : (stillRuns pid).exec w = (.ok (w.settle.exit? pid).join.isNone, w.settle.notice pid) := by
      rw [stillRuns, Sim.exec_bind, Sim.exec_seenCode, seen]
      exact (Sim.exec_bind ..).trans (by rw [Sim.exec_poll]; rfl)
    obtain ⟨events, settled, exits⟩ := settle_proceeds w
    obtain ⟨_, plays⟩ := settle_plays w
    have overlooks : w.Overlooks w.settle := .plays plays
    have looked := settled.trans (proceeds_notice w.settle pid)
    rw [List.append_nil] at looked
    obtain ⟨now, found⟩ := Option.isSome_iff_exists.mp (settled.known known)
    have noticed : (w.settle.notice pid).seen? pid = some now := (seen?_notice _ _).trans found
    refine ⟨_, _, events, answer, looked, exits, fun q other => ?_, ?_⟩
    · rw [seen?_notice_of_ne other, overlooks.seen]
    · cases now with
      | none =>
        refine .inl ⟨by rw [found]; rfl, noticed, ?_⟩
        obtain ⟨before, there⟩ := Option.isSome_iff_exists.mp known
        cases before with
        | none => exact there
        | some code => cases found.symm.trans (settled.exit_stays there).1
      | some code => exact .inr ⟨by rw [found]; rfl, code, (exit?_notice _ _ _).trans found, noticed⟩

/-- Of some processes those are left that are not known to have ended, even after another look. -/
theorem exec_unfinished (once : pids.Nodup) (known : ∀ pid ∈ pids, (w.exit? pid).isSome)
    (honest : ∀ pid ∈ pids, w.Honest pid) :
    ∃ left w' events, (unfinished pids).exec w = (.ok left, w') ∧ w.Sorts w' pids left events := by
  induction pids generalizing w with
  | nil => exact ⟨[], w, [], rfl, .refl w, by simp, rfl, by simp, by simp, fun _ _ => rfl⟩
  | cons pid rest ih =>
    obtain ⟨apart, once⟩ := List.nodup_cons.mp once
    obtain ⟨runs, w₁, first, looked, proceeds, exits, others, turn⟩ :=
      exec_stillRuns (known pid List.mem_cons_self) (honest pid List.mem_cons_self)
    obtain ⟨left, w', later, ran, sorts⟩ := ih once
      (fun q member => proceeds.known (known q (List.mem_cons_of_mem _ member)))
      (fun q member => proceeds.honest q (honest q (List.mem_cons_of_mem _ member)))
    -- Nobody looks at the first process any more.
    have stays : w'.seen? pid = w₁.seen? pid := sorts.others pid apart
    have lived (q : Nat) (member : q ∈ left) : w.exit? q = some none := by
      obtain ⟨before, there⟩ := Option.isSome_iff_exists.mp (known q (List.mem_cons_of_mem _
        (List.mem_filter.mp (sorts.remain ▸ member)).1))
      cases before with
      | none => exact there
      | some code => cases (sorts.lived q member).symm.trans (proceeds.exit_stays there).1
    refine ⟨if runs then pid :: left else left, w', first ++ later, ?_, proceeds.trans sorts.proceeds,
      fun e member => (List.mem_append.mp member).elim (exits e) (sorts.exits e), ?_, ?_, ?_, fun q absent => ?_⟩
    · rw [unfinished_cons, Sim.exec_bind, looked]
      simp only [Sim.exec_bind, ran, Sim.exec_pure]
    · rw [List.filter_cons, stays]
      rcases turn with ⟨rfl, unseen, -⟩ | ⟨rfl, code, reaped⟩
      · rw [if_pos rfl, if_pos (by simpa using unseen), ← sorts.remain]
      · rw [if_neg (by simp), if_neg (by simp [reaped.2]), ← sorts.remain]
    · intro q member gone
      rcases List.mem_cons.mp member with rfl | member
      · rcases turn with ⟨rfl, -⟩ | ⟨-, code, reaped⟩
        · simp at gone
        · exact ⟨code, sorts.proceeds.isReaped reaped⟩
      · refine sorts.reaped q member fun isLeft => gone ?_
        split
        · exact List.mem_cons_of_mem _ isLeft
        · exact isLeft
    · intro q member
      rcases turn with ⟨rfl, -, alive⟩ | ⟨rfl, -⟩
      · rcases List.mem_cons.mp (by simpa using member) with rfl | member
        · exact alive
        · exact lived q member
      · exact lived q (by simpa using member)
    · rw [List.mem_cons, not_or] at absent
      rw [sorts.others q absent.2, others q absent.1]

end Handle

/-! ## The reaper -/

namespace Handle

variable {h₀ h h' : Handle}

/-- What can have become of a handle that is kept, and of the system: the handle was used, whatever came of it, calls
were made on its ends, and processes went on. -/
inductive Later (h₀ : Handle) (w₀ : World) : Handle → World → Prop where
  | now : Later h₀ w₀ h₀ w₀
  | use {h : Handle} {w : World} (before : Later h₀ w₀ h w) {u : Use} (kept : u ≠ .abandon) :
    Later h₀ w₀ (u.act.exec h w).2.1 (u.act.exec h w).2.2
  | onEnd {h : Handle} {w : World} (before : Later h₀ w₀ h w) (s : Stream) (call : Call) :
    Later h₀ w₀ ((Block.onStream s call).exec h w).2.1 ((Block.onStream s call).exec h w).2.2
  | acts {h : Handle} {w w' : World} {entries : List (Nat × Bytes)} (before : Later h₀ w₀ h w)
    (acts : w.Acts w' entries) : Later h₀ w₀ h w'

namespace Later

/-- All this is one run of custody, which leaves all pumps settled. -/
theorem tended (later : Later h₀ w₀ h w) (ready : h₀.Ready w₀) :
    Tended.Left (h₀.custody [] w₀) h₀ [] h w := by
  induction later with
  | now => exact ⟨[], by rw [List.append_nil]; exact ready.along, by simp⟩
  | use before kept ih => exact ih.act ready.sound _
  | onEnd before s call ih =>
    obtain ⟨more, tended, settled⟩ := ih
    exact ⟨more, Tended.onStream ready.sound s call _ _ tended, settled⟩
  | acts before acts ih =>
    obtain ⟨more, tended, settled⟩ := ih
    exact ⟨more, { tended with run := tended.run.plays (.one acts) }, settled⟩

/-- Reapers are not started while a handle is kept. -/
theorem reapers (later : Later h₀ w₀ h w) : w.reapers = w₀.reapers := by
  have lasting := lasting_reapers w₀.reapers
  induction later with
  | now => rfl
  | use before kept ih => exact lasting.use kept _ _ ih
  | onEnd before s call ih => exact lasting.onEnd s call _ _ ih
  | acts before acts ih => exact acts.reapers.trans ih

theorem pids_eq (later : Later h₀ w₀ h w) (ready : h₀.Ready w₀) : h.pids = h₀.pids := by
  obtain ⟨_, tended, -⟩ := later.tended ready
  rw [Handle.pids, Handle.pids, tended.processes]

theorem proceeds (later : Later h₀ w₀ h w) (ready : h₀.Ready w₀) : ∃ events, w₀.Proceeds w events := by
  obtain ⟨_, tended, -⟩ := later.tended ready
  obtain ⟨events, since⟩ := tended.run.since ready.sound
  exact ⟨events, since.proceeds⟩

/-- What the ends of a handle and its own pumps hold, they hold besides any others. -/
private theorem holds_custody {crew : List Pump} {o : Owner} {d : Nat} (holds : (h.custody [] w).held o = some d) :
    (h.custody crew w).held o = some d := by
  cases o with
  | endpoint s => exact holds
  | pump number =>
    obtain ⟨p, there, mine⟩ := Option.bind_eq_some_iff.mp holds
    rw [List.append_nil] at there
    have within := (List.getElem?_eq_some_iff.mp there).1
    exact Option.bind_eq_some_iff.mpr ⟨p, (List.getElem?_append_left within).trans there, mine⟩

/-- A handle stays ready while it is kept. -/
theorem ready (later : Later h₀ w₀ h w) (ready : h₀.Ready w₀) : h.Ready w := by
  obtain ⟨events, proceeds⟩ := later.proceeds ready
  have pids := later.pids_eq ready
  obtain ⟨more, tended, -⟩ := later.tended ready
  have sound := tended.run.sound ready.sound
  refine ⟨⟨fun o o' d first second => ?_, fun o d holds => ?_⟩, tended.pumps, fun p member => ?_,
    fun pid member => ?_⟩
  · exact sound.apart o o' d (holds_custody first) (holds_custody second)
  · exact sound.isOpen o d (holds_custody holds)
  · rw [pids]
    intro running
    exact (ready.attended p (tended.running p member running)).proceeds proceeds running
  · rw [pids] at member
    exact proceeds.known (ready.known pid member)

/-- An end that is gone stays so. -/
theorem endOf (later : Later h₀ w₀ h w) (ready : h₀.Ready w₀) {s : Stream} (gone : h₀.endOf s = none) :
    h.endOf s = none := by
  obtain ⟨_, tended, -⟩ := later.tended ready
  cases found : h.endOf s with
  | none => rfl
  | some d => cases gone.symm.trans (tended.ends s d found)

end Later

/-! ## To give a handle up -/

/-- What it is to give a handle up: its ends are closed, each descriptor once, and no other descriptor is; its
processes are looked at, and those that remain are left to a new reaper, if there are any. -/
structure Abandons (h : Handle) (w w' : World) (left : List Nat) (events : List Event) : Prop where
  trace : w'.events = w.events ++ events
  closes : ∀ d, d ∈ closedBy events ↔ ∃ s, h.holding s = some d
  once : (closedBy events).Nodup
  /-- Left are those that are not reaped. -/
  remain : left = h.pids.filter fun pid => w'.seen? pid = some none
  reaped : ∀ pid ∈ h.pids, pid ∉ left → ∃ code, w'.IsReaped pid code
  lived : ∀ pid ∈ left, w.exit? pid = some none
  handed : w'.reapers = w.reapers ++ if left = [] then [] else [(h.logger, left)]

/-- When a handle loses its ends and its pumps are left alone, just the ends were closed. -/
private theorem closes_of_bare (sound : (h.custody [] w).Sound)
    (since : Since (h.custody [] w) (h.bare.custody [] w') events) (d : Nat) :
    d ∈ closedBy events ↔ ∃ s, h.holding s = some d := by
  have bare (s : Stream) : h.bare.holding s = none := by cases s <;> rfl
  constructor
  · intro closed
    obtain ⟨o, mine⟩ := since.own d closed
    cases o with
    | endpoint s => exact ⟨s, mine⟩
    | pump number => exact absurd ⟨.pump number, mine⟩ ((since.closed d ⟨_, mine⟩).mp closed)
  · rintro ⟨s, mine⟩
    refine (since.closed d ⟨.endpoint s, mine⟩).mpr ?_
    rintro ⟨o, still⟩
    cases o with
    | endpoint t => cases (bare t).symm.trans still
    | pump number => cases sound.apart (.endpoint s) (.pump number) d mine still

/-- A handle that is ready can be given up, whatever its ends hold back. -/
theorem Ready.exec_abandon (ready : h.Ready w) (once : h.pids.Nodup) (honest : ∀ pid ∈ h.pids, w.Honest pid) :
    ∃ left events w', abandon.exec h w = (.ok (), h.bare, w') ∧ h.Along w h.bare w' ∧
      h.Abandons w w' left events := by
  obtain ⟨w₁, closed, along₁⟩ := ready.along.exec_closeEach ready.sound
  obtain ⟨_, proceeds₁⟩ := ready.proceeds along₁
  have bare : h.bare.pids = h.pids := rfl
  obtain ⟨left, w₂, looking, looked, sorts⟩ := exec_unfinished once
    (fun pid member => proceeds₁.known (ready.known pid member))
    (fun pid member => proceeds₁.honest pid (honest pid member))
  -- No reaper was started up to here.
  have kept : w₂.reapers = w.reapers := by
    have lasting := lasting_reapers w.reapers
    have closing : closeEach.Preserves fun _ v => v.reapers = w.reapers :=
      .bind (lasting.closeEndpoint _) fun _ => .bind (lasting.closeEndpoint _) fun _ =>
        .bind (lasting.closeEndpoint _) fun _ => .pure ()
    have same := closing h w rfl
    rw [closed] at same
    have later := lasting.unfinished h.pids w₁ same
    rwa [looked] at later
  obtain ⟨w', ran, exits, seen, handed⟩ : ∃ w', leaveBehind.exec h.bare w₁ = (.ok (), h.bare, w') ∧
      (∀ pid, w'.exit? pid = w₂.exit? pid) ∧ (∀ pid, w'.seen? pid = w₂.seen? pid) ∧
      w'.reapers = w₂.reapers ++ if left = [] then [] else [(h.logger, left)] := by
    rw [leaveBehind, Owning.exec_bind, Owning.exec_own]
    dsimp only
    rw [Owning.exec_bind, Owning.exec_lift, bare, looked]
    dsimp only
    cases left with
    | nil => exact ⟨w₂, rfl, fun _ => rfl, fun _ => rfl, (List.append_nil _).symm⟩
    | cons pid rest => exact ⟨_, rfl, fun _ => rfl, fun _ => rfl, rfl⟩
  have abandoned : abandon.exec h w = (.ok (), h.bare, w') := by
    rw [abandon_eq, Owning.exec_bind, closed]
    exact ran
  have along := Tended.abandon ready.sound h w ready.along
  rw [abandoned] at along
  obtain ⟨events, since⟩ := along.run.since ready.sound
  refine ⟨left, events, w', abandoned, along,
    { trace := since.proceeds.trace
      closes := closes_of_bare ready.sound since
      once := since.once
      remain := ?_
      reaped := fun pid member gone => ?_
      lived := fun pid member => ?_
      handed := ?_ }⟩
  · simp only [seen]
    exact sorts.remain
  · obtain ⟨code, reaped⟩ := sorts.reaped pid member gone
    exact ⟨code, (exits pid).trans reaped.1, (seen pid).trans reaped.2⟩
  · have mine : pid ∈ h.pids := (List.mem_filter.mp (sorts.remain ▸ member)).1
    obtain ⟨before, there⟩ := Option.isSome_iff_exists.mp (ready.known pid mine)
    cases before with
    | none => exact there
    | some code => cases (sorts.lived pid member).symm.trans (proceeds₁.exit_stays there).1
  · rw [handed, kept]

/-! ## To give up a handle that was closed -/

end Handle

end Pipework
