import Pipework.Proofs.Capture.Script
import Pipework.Proofs.Capture.Settling
import Pipework.Proofs.Engine.Failure

/-!
# What a helper leaves behind

`opened` and `read` start a graph, use its handle and carry it to its end. `Carries` lists what this can come
to: the start fails; or the use fails, and its failure goes on when everything has been killed and cleared;
or the use succeeds, and the helper waits for the processes and reports what there is to report. Unless a
process never ends, nothing of the start is left in any of these (`Engine.helpers_clean_up`). A wait that never
ends fails with `deadlock` in this system, where nothing can happen any more.
-/

namespace Pipework

open Custody World Handle

/-- Nobody holds anything when nothing of a handle is left. -/
theorem Handle.Over.nobody {h : Handle} {w : World} (isOver : h.Over w) (settled : ∀ p ∈ h.pumps, p.Settled)
    (d : Nat) : ¬ (h.custody [] w).Holds d := by
  intro holds
  obtain ⟨p, member, running, -⟩ := running_of_holds isOver.ends
    (fun p member => settled p (by simpa using member)) holds
  cases (isOver.pumps p (by simpa using member)).symm.trans running

/-- What a run of custody closes belongs to the account of the descriptors that its owners hold. -/
theorem Custody.Since.account {w₀ : World} {c c' : Custody} {before more : List Event} (since : Since c c' more)
    (account : w₀.Account c.world before) (sound : w₀.Sound) (left : ∀ d, c.Holds d → d ∈ leftOpenBy before) :
    w₀.Account c'.world (before ++ more) ∧
      ∀ d, d ∈ leftOpenBy (before ++ more) ↔ d ∈ leftOpenBy before ∧ (c.Holds d → c'.Holds d) := by
  refine ⟨account.proceeds sound since.proceeds since.once fun d closed => left d (since.own d closed),
    fun d => ?_⟩
  rw [leftOpenBy_append _ since.proceeds.opens, List.mem_filter, decide_eq_true_iff]
  refine and_congr_right fun isLeft => ⟨fun unclosed holds => ?_, fun stays closed => ?_⟩
  · exact Classical.byContradiction fun gone => unclosed ((since.closed d holds).mpr gone)
  · exact (since.closed d (since.own d closed)).mp closed (stays (since.own d closed))

namespace Engine

/-- Nothing of a start is left: its handle has no ends, its processes are reaped, its pumps are done, and each
descriptor that it opened was closed once. -/
structure Cleared (w : World) (handle h' : Handle) (w' : World) : Prop where
  processes : h'.processes = handle.processes
  isOver : h'.Over w'
  /-- The caller's descriptors are open as before, and no other is. -/
  descriptors : w'.descriptors = w.descriptors
  closed : ∃ events, w'.events = w.events ++ events ∧ ∀ d ∈ openedBy events, (closedBy events).count d = 1

namespace Succeeds

variable {item : Item} {values : RedirectValues} {e e' : Engine} {w w' w₁ w₂ : World}
variable {handle h' : Handle} {σ : Wiring} {events launching : List Event} {starts : List Start}
variable (succeeds : Succeeds item values e w handle e' w' w₁ w₂ σ events launching starts) (sound : w.Sound)
include succeeds sound

/-- The handle of a start is ready. -/
theorem ready (spawned : (spawn item values).exec e w = (.ok handle, e', w')) : handle.Ready w' := by
  obtain ⟨run, settled⟩ := succeeds.handed_run sound spawned
  exact ⟨run.sound (succeeds.handed_sound sound), settled, fun _ => succeeds.attended sound spawned,
    fun _ => succeeds.exit?_isSome⟩

/-- What the start has opened and not closed is what still has an owner. -/
theorem account_since {c : Custody} {more : List Event}
    (since : Since (handed handle σ (w₂.shutAll (σ.childDescriptors ++ σ.files))) c more) :
    ∃ before, w.Account c.world (before ++ more) ∧ ∀ d, d ∈ leftOpenBy (before ++ more) ↔ c.Holds d := by
  have sound₁ := sound.passes succeeds.begins.passes
  obtain ⟨-, kept⟩ := succeeds.progress.exec_closeChildSide sound₁
  have left (d : Nat) : (handed handle σ (w₂.shutAll (σ.childDescriptors ++ σ.files))).Holds d ↔
      d ∈ leftOpenBy (events ++ (σ.childDescriptors ++ σ.files).map .closed) := by
    rw [succeeds.holds_iff sound, kept.account.map_fst_descriptors, ← succeeds.begins.passes.descriptors,
      List.mem_append]
    constructor
    · rintro ⟨old | left, new⟩
      · exact absurd old new
      · exact left
    · exact fun left => ⟨.inr left, kept.account.fresh sound₁ d (List.mem_filter.mp left).1⟩
  obtain ⟨account, open_iff⟩ := since.account kept.account sound₁ fun d => (left d).mp
  exact ⟨_, account.before succeeds.begins.passes, fun d => (open_iff d).trans
    ⟨fun ⟨isLeft, stays⟩ => stays ((left d).mpr isLeft), fun holds =>
      ⟨(left d).mp (since.holds d holds), fun _ => holds⟩⟩⟩

/-- When nothing of the handle is left, nothing of the start is. -/
theorem cleared (spawned : (spawn item values).exec e w = (.ok handle, e', w')) {w'' : World}
    (along : handle.Along w' h' w'') (isOver : h'.Over w'') : Cleared w handle h' w'' := by
  have fair := succeeds.handed_sound sound
  have whole : Run _ (h'.custody [] w'') := (succeeds.handed_run sound spawned).1.trans along.run
  obtain ⟨more, since⟩ := whole.since fair
  obtain ⟨before, account, left⟩ := succeeds.account_since sound since
  have none : leftOpenBy (before ++ more) = [] :=
    List.eq_nil_iff_forall_not_mem.mpr fun d isLeft => isOver.nobody along.pumps d ((left d).mp isLeft)
  exact ⟨along.processes, isOver, account.restored none, _, account.trace,
    fun d opened => account.closed_once opened (none ▸ List.not_mem_nil)⟩

end Succeeds

/-- What a helper can come to that starts a graph, does something with the handle and carries it to its end. -/
inductive Carries {α : Type} (item : Item) (values : RedirectValues) (e : Engine) (w : World)
    (use : Owning Handle α) : Except Failure α → World → Prop
  /-- The start fails, and nothing of it is left. -/
  | unstarted {failure : Failure} {e' : Engine} {w' : World} {events : List Event}
      (spawned : (spawn item values).exec e w = (.error failure, e', w'))
      (nothing : w.NothingLeft w' events) : Carries item values e w use (.error failure) w'
  /-- What is done with the handle fails, and this failure goes on, whatever else there is to report. The
  processes are killed that are still alive then, before anything is waited for. -/
  | failed {handle h₂ h' : Handle} {failure : Failure} {e' : Engine} {w₁ w₂ w₃ w' : World}
      {killing rest : List Event}
      (spawned : (spawn item values).exec e w = (.ok handle, e', w₁))
      (used : use.exec handle w₁ = (.error failure, h₂, w₂))
      (killed : w₂.KillsAll w₃ handle.pids killing) (later : w'.events = w₃.events ++ rest)
      (cleared : Cleared w handle h' w') : Carries item values e w use (.error failure) w'
  /-- It succeeds, and then the helper waits for a process that never ends, and never comes to its end. -/
  | hangs {handle h₂ : Handle} {a : α} {e' : Engine} {w₁ w₂ w' : World}
      (spawned : (spawn item values).exec e w = (.ok handle, e', w₁))
      (used : use.exec handle w₁ = (.ok a, h₂, w₂))
      (hung : w'.Hung handle.pids) : Carries item values e w use (.error .deadlock) w'
  /-- It succeeds, and so does the helper, if closing stdin delivered what was held, unless that is ignored,
  no pump kept an error and no command failed. Else the first of these that there is becomes its failure. -/
  | finished {handle h₂ h' : Handle} {a : α} {outcome : Except Failure α} {undelivered : Option Failure}
      {e' : Engine} {w₁ w₂ w' : World}
      (spawned : (spawn item values).exec e w = (.ok handle, e', w₁))
      (used : use.exec handle w₁ = (.ok a, h₂, w₂))
      (flushed : ((closeEndpoint .stdin).exec h₂ w₂).1 = .ok undelivered)
      (cleared : Cleared w handle h' w')
      (reported : outcome = (verdict undelivered h' w').map fun _ => a)
      (fine : outcome = .ok a ↔
        undelivered = none ∧ (∀ p ∈ h'.pumps, p.error = none) ∧ ∀ s ∈ h'.statusesIn w', s.failed = false) :
      Carries item values e w use outcome w'

/-- After a failure a handle is discarded, and the failure goes on. -/
theorem exec_settleHandle_error {σ α : Type} {h h' : Handle} {s : σ} {w w' : World} (failure : Failure)
    (discarded : discard.exec h w = (.ok (), h', w')) :
    (settleHandle (.error failure : Except Failure α) h : Owning σ α).exec s w = (.error failure, s, w') := by
  simp only [settleHandle, Owning.exec_bind, Owning.exec_liftRunOn, discarded, Owning.exec_lift, Sim.exec_ofExcept,
    Owning.exec_throw]

/-- Else a handle is finished, which may fail. -/
theorem exec_settleHandle_ok {σ α : Type} {h h' : Handle} {ending : Except Failure Unit} {s : σ} {w w' : World} (a : α)
    (finished : finish.exec h w = (ending, h', w')) :
    (settleHandle (.ok a : Except Failure α) h : Owning σ α).exec s w = (ending.map fun _ => a, s, w') := by
  simp only [settleHandle, Owning.exec_bind, Owning.exec_liftRunOn, finished, Owning.exec_lift, Sim.exec_ofExcept]
  cases ending <;> rfl

section Carried

variable {σ α : Type} {item : Item} {values : RedirectValues} {e e' : Engine} {w w₁ : World}
variable {outcome : Except Failure α}

/-- Carrying a handle to its end after a use that is a run of custody comes to one of these. -/
private theorem carries {handle h₂ : Handle} {use : Owning Handle α} {result : Except Failure α} {s s' : σ}
    {w₂ w' : World} (sound : w.Sound) (spawned : (spawn item values).exec e w = (.ok handle, e', w₁))
    (used : use.exec handle w₁ = (result, h₂, w₂)) (keeps : use.Preserves (handle.Along w₁))
    (settled : (settleHandle result h₂ : Owning σ α).exec s w₂ = (outcome, s', w')) :
    Carries item values e w use outcome w' := by
  obtain ⟨_, _, _, _, _, _, succeeds⟩ := spawn_ok sound spawned
  have ready := succeeds.ready sound spawned
  have along : handle.Along w₁ h₂ w₂ := by
    have kept := keeps handle w₁ ready.along
    rwa [used] at kept
  have ready₂ := ready.stays along
  cases result with
  | error failure =>
    obtain ⟨h', w₃, w₄, killing, rest, discarded, along', isOver, killed, later⟩ := ready₂.exec_discard
    rw [exec_settleHandle_error failure discarded] at settled
    cases settled
    rw [along.pids] at killed
    exact .failed spawned used killed later
      (succeeds.cleared sound spawned (Tended.trans along along') isOver)
  | ok a =>
    obtain ⟨undelivered, ending, h', w₄, flushed, finished, along', ended⟩ := ready₂.exec_finish
    rw [exec_settleHandle_ok a finished] at settled
    cases settled
    rcases ended with ⟨rfl, hung⟩ | ⟨isOver, rfl⟩
    · exact .hangs spawned used (along.pids ▸ hung)
    · refine .finished spawned used flushed (succeeds.cleared sound spawned (Tended.trans along along') isOver)
        rfl ?_
      rw [← verdict_ok_iff]
      cases verdict undelivered h' w' <;> simp [Except.map]

/-- A start, and what is done when it has succeeded. -/
private theorem spawn_carries {use : Owning Handle α} (put : Engine → σ) (s' : σ) {w' : World} (sound : w.Sound)
    (keeps : ∀ (handle : Handle) w₁, handle.Ready w₁ → use.Preserves (handle.Along w₁))
    (ran : (match (spawn item values).exec e w with
      | (.error failure, e', w') => (.error failure, put e', w')
      | (.ok handle, e', w₁) =>
        (settleHandle (use.exec handle w₁).1 (use.exec handle w₁).2.1 : Owning σ α).exec (put e')
          (use.exec handle w₁).2.2) = (outcome, s', w')) :
    Carries item values e w use outcome w' := by
  generalize spawned : (spawn item values).exec e w = result at ran
  obtain ⟨started, e', w₁⟩ := result
  cases started with
  | error failure =>
    cases ran
    obtain ⟨_, nothing⟩ := nothing_of_spawn_failed sound spawned
    exact .unstarted spawned nothing
  | ok handle =>
    obtain ⟨_, _, _, _, _, _, succeeds⟩ := spawn_ok sound spawned
    exact carries sound spawned rfl (keeps handle w₁ (succeeds.ready sound spawned)) ran

end Carried

/-! ## The helpers -/

variable {α β : Type} {w : World}

/-- A block that does the same as a script with what the caller gets of the handle. -/
def scripted (script : OpenMode → Script α) (mode : OpenMode) : Owning (Handle × β) α :=
  Owning.onPart (·.1) (fun h s => (h, s.2)) ((script mode).run (.ofMode mode))

/-- What `read` gives a graph for its stdin. -/
def inputItem (number : Nat) : Option Item → Item
  | none => Item.absent
  | some i => ⟨.own number, .target (.buffer i)⟩

/-- Reading with some redirects: a start, reading the handle, and the end of the handle. -/
def readWith (graph : Item) (values : RedirectValues) : Owning Engine Bytes := do
  let h ← spawn graph values
  let (outcome, h) ← Handle.read.runOn h
  settleHandle outcome h

/-- The system when one more number has been drawn. -/
def numbered (w : World) : World := { w with nextNumber := w.nextNumber + 1 }

theorem passes_numbered (w : World) : w.Passes (numbered w) [] := World.passes_of_same rfl rfl rfl rfl rfl rfl rfl

/-- What `read` starts a graph with, when it has an input. -/
def readValues (w : World) (i : Item) : RedirectValues :=
  { stdin := inputItem w.nextNumber (some i), stdout := endpoint }

/-- To read with an input is that, with a new number for what leads from the input. -/
theorem exec_read_input (e : Engine) (w : World) (graph i : Item) :
    (read graph (some i)).exec e w
      = (readWith graph (readValues w i)).exec e (numbered w) := by
  have drawn : (building Building.freshLabel).exec w = (.ok (.own w.nextNumber), numbered w) := rfl
  rw [Engine.read]
  simp only [pure_bind]
  rw [Owning.exec_bind, Owning.exec_lift, drawn]
  rfl

private theorem exec_read (e : Engine) (w : World) (graph : Item) (input : Option Item) : ∃ n,
    (read graph input).exec e w = (readWith graph { stdin := inputItem w.nextNumber input, stdout := endpoint }).exec
      e { w with nextNumber := n } := by
  cases input with
  | none => exact ⟨w.nextNumber, rfl⟩
  | some i => exact ⟨w.nextNumber + 1, exec_read_input e w graph i⟩

/-- **The helpers clean up.** Whatever graph, mode and input they are given, whatever a block does and however
the processes behave, a helper comes to one of the ends that `Carries` lists; a mode that is none is refused
before anything happens. -/
theorem helpers_clean_up {α β : Type} (sound : w.Sound) (e : Engine) (graph : Item) :
    (∀ mode script b outcome s' w',
      (opened graph mode (scripted script) : Owning (Engine × β) α).exec (e, b) w = (outcome, s', w') →
      match OpenMode.ofValue w.memory mode with
      | .error refusal => outcome = .error refusal ∧ s' = (e, b) ∧ w' = w
      | .ok mode => Carries graph mode.redirects e w ((script mode).run (.ofMode mode)) outcome w') ∧
    ∀ input outcome e' w', (read graph input).exec e w = (outcome, e', w') →
      ∃ n, Carries graph { stdin := inputItem w.nextNumber input, stdout := endpoint } e
        { w with nextNumber := n } Handle.read outcome w' := by
  refine ⟨fun mode script b outcome s' w' ran => ?_, fun input outcome e' w' ran => ?_⟩
  · cases named : OpenMode.ofValue w.memory mode with
    | error refusal =>
      simp only [opened, Owning.exec_bind, Owning.exec_lift, Sim.exec_world, named, Sim.exec_ofExcept] at ran
      cases ran
      exact ⟨rfl, rfl, rfl⟩
    | ok mode =>
      refine spawn_carries (fun e' => (e', b)) s' sound (fun handle w₁ ready => ?_) ?_
      · exact Script.tended ready.sound _ _
      · simp only [opened, Owning.exec_bind, Owning.exec_lift, Sim.exec_world, named, Sim.exec_ofExcept,
          Owning.exec_onPart, Owning.exec_liftRunOn, Owning.exec_own, Owning.exec_change, scripted] at ran
        rw [← ran]
        generalize (spawn graph mode.redirects).exec e w = result
        obtain ⟨started, e', w₁⟩ := result
        cases started <;> rfl
  · obtain ⟨n, same⟩ := exec_read e w graph input
    have passes : w.Passes { w with nextNumber := n } [] := World.passes_of_same rfl rfl rfl rfl rfl rfl rfl
    refine ⟨n, spawn_carries id e' (sound.passes passes) (fun handle w₁ ready => ?_) ?_⟩
    · exact Tended.read ready.sound
    · rw [← ran, same, readWith, Owning.exec_bind]
      generalize (spawn graph { stdin := inputItem w.nextNumber input, stdout := endpoint }).exec e
        { w with nextNumber := n } = result
      obtain ⟨started, e', w₁⟩ := result
      cases started <;> rfl

/-- A command that is opened for writing and whose block fails at once, and one that is read. -/
theorem letter_helpers_clean_up : ∃ failure s' w₁ b e' w₂ n,
    (opened (letterItem 'a') (.str "w") (scripted fun _ => .raise .wrongType) : Owning (Engine × Unit) Unit).exec
      ({}, ()) (smallWorld ['a']) = (.error failure, s', w₁) ∧
    Carries (letterItem 'a') OpenMode.write.redirects {} (smallWorld ['a'])
      ((.raise .wrongType : Script Unit).run .writer) (.error failure) w₁ ∧
    (read (letterItem 'a') none).exec {} (smallWorld ['a']) = (.ok b, e', w₂) ∧
    Carries (letterItem 'a') { stdin := inputItem 0 none, stdout := endpoint } {}
      { smallWorld ['a'] with nextNumber := n } Handle.read (.ok b) w₂ := by
  have fails : ((opened (letterItem 'a') (.str "w") (scripted fun _ => .raise .wrongType) :
      Owning (Engine × Unit) Unit).exec ({}, ()) (smallWorld ['a'])).1.isOk = false := by
    decide +kernel
  have succeeds : ((read (letterItem 'a') none).exec {} (smallWorld ['a'])).1.isOk = true := by
    decide +kernel
  generalize opening : (opened (letterItem 'a') (.str "w") (scripted fun _ => .raise .wrongType) :
    Owning (Engine × Unit) Unit).exec ({}, ()) (smallWorld ['a']) = first at fails
  generalize reading : (read (letterItem 'a') none).exec {} (smallWorld ['a']) = second at succeeds
  obtain ⟨outcome, s', w₁⟩ := first
  obtain ⟨result, e', w₂⟩ := second
  cases outcome with
  | ok _ => cases fails
  | error failure =>
    cases result with
    | error _ => cases succeeds
    | ok b =>
      obtain ⟨opens, reads⟩ :=
        helpers_clean_up (α := Unit) (β := Unit) (smallWorld_sound ['a']) {} (letterItem 'a')
      obtain ⟨n, read⟩ := reads none _ _ _ reading
      exact ⟨failure, s', w₁, b, e', w₂, n, rfl, opens (.str "w") _ _ _ _ _ opening, rfl, read⟩

end Engine

end Pipework
