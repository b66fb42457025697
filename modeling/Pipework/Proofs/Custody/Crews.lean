import Pipework.Proofs.Custody.Calls
import Pipework.Proofs.Exchange.Communicating

/-!
# The owners that `communicate` makes

A call of `communicate` hands its input to a pump that takes over the end of stdin, and the end of stderr to
another. Both are started in any case, so that of the pumps that a call leaves behind each has finished or
is a drain that runs; how far the call comes after that makes no difference (`Handle.Tended.communicate`).
-/

namespace Pipework

namespace Custody

theorem heldBy_append (ends : Stream → Option Nat) (pumps : List Pump) (p : Pump) :
    heldBy ends (pumps ++ [p]) = Function.update (heldBy ends pumps) (.pump pumps.length) p.holding := by
  funext o
  cases o with
  | endpoint s => rw [Function.update_of_ne (by simp)]; rfl
  | pump number =>
    by_cases here : number = pumps.length
    · simp [heldBy, here]
    · rw [Function.update_of_ne (by simpa using here)]
      simp only [heldBy, List.getElem?_append]
      split
      · rfl
      · next past =>
        obtain ⟨k, within⟩ : ∃ k, number - pumps.length = k + 1 := ⟨number - pumps.length - 1, by omega⟩
        rw [within, List.getElem?_eq_none (by simp), List.getElem?_eq_none (by omega)]

end Custody

/-- A pump can be started in any state of the system. -/
theorem Pump.start_ok (p : Pump) (w : World) : (start.exec p w).1 = .ok () := by
  cases direction : p.direction with
  | drain => rw [exec_start_of_drain direction]
  | feed =>
    rw [exec_start_of_feed direction]
    obtain ⟨_, ran⟩ := exec_run { p with thread := .running } (w.emit (.threadStarted p.threadName))
    rw [ran]

/-- So can several. -/
theorem Handle.run_onPumps_start_ok (pumps : List Pump) (w : World) :
    (Id.run ((onPumps Pump.start pumps).run w)).1.1 = .ok () := by
  induction pumps generalizing w with
  | nil => rfl
  | cons p rest ih =>
    have started := p.start_ok w
    rw [run_onPumps_cons]
    generalize Pump.start.exec p w = result at started
    obtain ⟨outcome, p', w'⟩ := result
    cases started
    exact ih w'

/-- Pumps that are started one after the other are settled. -/
theorem Custody.Run.startAll {c : Custody} (sound : c.Sound) {ends : Stream → Option Nat} {crew : List Pump}
    {w : World} (before after : List Pump) (suited : ∀ p ∈ crew, p.Suited)
    (run : Run c ⟨w, heldBy ends (before ++ (crew ++ after))⟩) :
    ∃ crew' w', Id.run ((Handle.onPumps Pump.start crew).run w) = ((.ok (), crew'), w') ∧
      crew'.length = crew.length ∧ (∀ p ∈ crew', p.Settled) ∧
      Run c ⟨w', heldBy ends (before ++ (crew' ++ after))⟩ := by
  obtain ⟨length, -, all, -, later⟩ := Run.onPumps Pump.start Pump.Suited Pump.Settled ends before after
    (fun p f o w suited holds run => by
      obtain ⟨p', w', started, settled, run'⟩ := run.start sound holds suited
      rw [started]
      exact ⟨settled, run'⟩) crew suited run
  have fine := Handle.run_onPumps_start_ok crew w
  generalize Id.run ((Handle.onPumps Pump.start crew).run w) = result at length all later fine
  obtain ⟨⟨outcome, crew'⟩, w'⟩ := result
  cases fine
  exact ⟨crew', w', rfl, length, all rfl, later⟩

namespace Handle.Tended

open Custody World

variable {c : Custody} {h₀ h : Handle} {crew : List Pump} {w : World} {s : Stream}

/-- A new pump takes over an end of the handle. -/
theorem handOn {p : Pump} (tended : Tended c h₀ crew h w) (mine : p.holding = h.holding s) :
    Tended c h₀ (crew ++ [p]) (h.without s) w := by
  have pumps : (h.without s).pumps = h.pumps := by cases s <;> rfl
  have run : Run c ⟨w, heldBy (h.without s).holding ((h.without s).pumps ++ (crew ++ [p]))⟩ := by
    have free : heldBy h.holding (h.pumps ++ crew) (.pump (h.pumps ++ crew).length) = none := by
      simp [heldBy]
    rw [pumps, ← List.append_assoc, holding_without, heldBy_update, heldBy_append, mine]
    cases holds : h.holding s with
    | none =>
      have ended : heldBy h.holding (h.pumps ++ crew) (.endpoint s) = none := holds
      have same : Function.update (heldBy h.holding (h.pumps ++ crew)) (.pump (h.pumps ++ crew).length) none
          = heldBy h.holding (h.pumps ++ crew) := by
        rw [← free, Function.update_eq_self]
      rw [same, ← ended, Function.update_eq_self]
      exact tended.run
    | some d => exact tended.run.tail (.handOn (c := h.custody crew w) holds free)
  exact
    { run
      pumps := pumps ▸ tended.pumps
      running := pumps ▸ tended.running
      count := pumps ▸ tended.count
      processes := by cases s <;> exact tended.processes
      settings := by cases s <;> exact tended.settings
      ends := fun t d there => by
        rw [endOf_without] at there
        split at there
        · cases there
        · exact tended.ends t d there }

/-- The end of stdin goes to a pump that feeds it, if there is such an end. -/
private theorem takeFeed (tended : Tended c h₀ crew h w) (buffer : Buffer) :
    (∃ e, (Handle.takeFeed buffer).exec h w = (.error e, h, w)) ∨
      ∃ p, (Handle.takeFeed buffer).exec h w = (.ok p, h.without .stdin, w) ∧
        Tended c h₀ (crew ++ [p]) (h.without .stdin) w ∧ p.Suited := by
  unfold Handle.takeFeed
  rw [Owning.exec_bind, Owning.exec_own]
  dsimp only
  cases stdin : h.stdin with
  | none => exact .inl ⟨_, rfl⟩
  | some r =>
    right
    refine ⟨_, rfl, tended.handOn ?_, rfl⟩
    simp [Pump.make, Pump.holding, PumpEnd.holding, holding, stdin]

/-- The end of stderr goes to a pump that drains it, if there is such an end. -/
private theorem takeErrors (tended : Tended c h₀ crew h w) :
    ∃ errors h' w', Handle.takeErrors.exec h w = (.ok errors, h', w') ∧
      Tended c h₀ (crew ++ (errors.map (·.1)).toList) h' w' ∧ ∀ p ∈ (errors.map (·.1)).toList, p.Suited := by
  unfold Handle.takeErrors
  rw [Owning.exec_bind, Owning.exec_own]
  dsimp only
  cases stderr : h.stderr with
  | none => exact ⟨none, h, w, rfl, by rwa [Option.map_none, Option.toList_none, List.append_nil], by simp⟩
  | some r =>
    have noted (memory : Memory) : Tended c h₀ crew h { w with memory } :=
      { tended with run := tended.run.of_same rfl rfl rfl rfl rfl rfl rfl }
    simp only [Owning.exec_bind, Owning.exec_lift, Pump.exec_onMemory, Owning.exec_change, Owning.exec_pure]
    refine ⟨_, h.without .stderr, _, rfl, (noted _).handOn ?_, ?_⟩
    · simp [Pump.make, Pump.holding, PumpEnd.holding, holding, stderr]
    · simp [Pump.make, Pump.Suited, Pump.readerOf]

/-- A step on the pumps of the crew. -/
private theorem onCrew {more : List Pump} (tended : Tended c h₀ (crew ++ more) h w) (step : Owning Pump Unit)
    (Before : Pump → Prop)
    (each : ∀ p f o w, Before p → f o = p.holding → Run c ⟨w, f⟩ →
      (step.exec p w).2.1.Settled ∧
        Run c ⟨(step.exec p w).2.2, Function.update f o (step.exec p w).2.1.holding⟩)
    (fit : ∀ p ∈ more, Before p) :
    let r := Id.run ((Handle.onPumps step more).run w)
    Tended c h₀ (crew ++ r.1.2) h r.2 ∧ (∀ p ∈ r.1.2, p.Settled ∨ Before p) ∧
      (r.1.1 = .ok () → ∀ p ∈ r.1.2, p.Settled) := by
  have run : Run c ⟨w, heldBy h.holding ((h.pumps ++ crew) ++ (more ++ []))⟩ := by
    rw [List.append_nil, List.append_assoc]
    exact tended.run
  obtain ⟨-, either, all, -, run'⟩ := Custody.Run.onPumps step Before Pump.Settled h.holding _ _ each more fit run
  rw [List.append_nil, List.append_assoc] at run'
  exact ⟨{ tended with run := run' }, either, all⟩

/-- The state of a handle that may have left some pumps behind. -/
def Left (c : Custody) (h₀ : Handle) (crew : List Pump) (h : Handle) (w : World) : Prop :=
  ∃ more, Tended c h₀ (crew ++ more) h w ∧ ∀ p ∈ more, p.Settled

section Sound

variable (sound : c.Sound)
include sound

/-- What a call does with its pumps when they are done. -/
private def report (undelivered : Option Failure) (errors : Option (Pump × ObjectRef)) (limit : Limit)
    (outcome : Except Failure Unit) (pumps : List Pump) (output : Option Bytes) : Owning Handle (Option Bytes) := do
  Sim.ofExcept outcome
  match errors with
  | some (_, ref) =>
    let collected := (← Pipework.world).memory.bytesOf ref
    Owning.change fun h => { h with stderrOutput := some collected }
  | none => pure ()
  Handle.raise? undelivered
  Handle.raise? (firstError? pumps)
  let _ ← Handle.wait limit
  return output

/-- What a call does when it has read stdout. -/
private def gather (undelivered : Option Failure) (errors : Option (Pump × ObjectRef)) (limit : Limit)
    (more : List Pump) (output : Option Bytes) : Owning Handle (Option Bytes) := do
  let (outcome, pumps) ← onPumps (Pump.join none) more
  report undelivered errors limit outcome pumps output

/-- What a call does when its pumps are started leaves them settled. -/
private theorem collect {undelivered : Option Failure} {errors : Option (Pump × ObjectRef)} {limit : Limit}
    {more : List Pump} (tended : Tended c h₀ (crew ++ more) h w) (settled : ∀ p ∈ more, p.Settled) :
    let r := (Handle.collect undelivered errors limit more).exec h w
    Left c h₀ crew r.2.1 r.2.2 := by
  have later (output : Option Bytes) (w : World) (tended : Tended c h₀ (crew ++ more) h w) :
      let r := (gather undelivered errors limit more output).exec h w
      Left c h₀ crew r.2.1 r.2.2 := by
    obtain ⟨joined, either, -⟩ := tended.onCrew (Pump.join none) Pump.Settled
      (fun p f o w settled holds run =>
        (run.join sound holds settled none).imp_right And.right) settled
    rw [gather, Owning.exec_bind, exec_onPumps]
    generalize Id.run ((Handle.onPumps (Pump.join none) more).run w) = result at joined either
    obtain ⟨⟨outcome, pumps⟩, w₁⟩ := result
    refine ⟨pumps, ?_, fun p member => (either p member).elim id id⟩
    have rest : (report undelivered errors limit outcome pumps output).Preserves
        (Tended c h₀ (crew ++ pumps)) := by
      have wait : (do
          Handle.raise? undelivered
          Handle.raise? (firstError? pumps)
          let _ ← Handle.wait limit
          return output : Owning Handle (Option Bytes)).Preserves (Tended c h₀ (crew ++ pumps)) :=
        .bind (raise? _) fun _ => .bind (raise? _) fun _ => .bind (Tended.wait sound _) fun _ => .pure _
      refine .bind (ofExcept _) fun _ => ?_
      split
      · exact .bind world fun _ => .bind (.change fun h w so => { so with }) fun _ => wait
      · exact wait
    exact rest h w₁ joined
  unfold Handle.collect
  rw [Owning.exec_bind, Owning.exec_own]
  dsimp only
  cases stdout : h.stdout with
  | none => exact later none w tended
  | some r =>
    have holds : (h.custody (crew ++ more) w).held (.endpoint .stdout) = r.holding := by
      simp [custody, heldBy, holding, stdout]
    have run := Within.readAll sound holds w tended.run
    dsimp only
    rw [Owning.exec_bind, Owning.exec_lift]
    generalize r.readAll.exec w = result at run
    obtain ⟨outcome, w₁⟩ := result
    have read : Tended c h₀ (crew ++ more) h w₁ := { tended with run }
    cases outcome with
    | error e => exact ⟨more, read, settled⟩
    | ok b => exact later (some b) w₁ read

/-- With a pump for stdin or without one, a call goes on to take stderr for another, starts them and
collects. -/
private theorem start {undelivered : Option Failure} {limit : Limit} {feeds : List Pump}
    (tended : Tended c h₀ (crew ++ feeds) h w) (suited : ∀ p ∈ feeds, p.Suited) :
    let r := (do
      let errors ← Handle.takeErrors
      let (outcome, pumps) ← onPumps Pump.start (feeds ++ (errors.map (·.1)).toList)
      Sim.ofExcept outcome
      Handle.collect undelivered errors limit pumps : Owning Handle (Option Bytes)).exec h w
    Left c h₀ crew r.2.1 r.2.2 := by
  have started (errors : Option (Pump × ObjectRef)) {h : Handle} {w : World} {more : List Pump}
      (tended : Tended c h₀ (crew ++ more) h w) (suited : ∀ p ∈ more, p.Suited) :
      let r := (do
        let (outcome, pumps) ← onPumps Pump.start more
        Sim.ofExcept outcome
        Handle.collect undelivered errors limit pumps : Owning Handle (Option Bytes)).exec h w
      Left c h₀ crew r.2.1 r.2.2 := by
    obtain ⟨launched, -, all⟩ := tended.onCrew Pump.start Pump.Suited
      (fun p f o w suited holds run => by
        obtain ⟨p', w', started, settled, run'⟩ := run.start sound holds suited
        rw [started]
        exact ⟨settled, run'⟩) suited
    have fine := run_onPumps_start_ok more w
    rw [Owning.exec_bind, exec_onPumps]
    generalize Id.run ((Handle.onPumps Pump.start more).run w) = result at launched all fine
    obtain ⟨⟨outcome, pumps⟩, w₁⟩ := result
    cases fine
    exact collect sound launched (all rfl)
  obtain ⟨errors, h', w', took, tended', drains⟩ := tended.takeErrors
  rw [Owning.exec_bind, took]
  have taken : Tended c h₀ (crew ++ (feeds ++ (errors.map (·.1)).toList)) h' w' := by
    rwa [← List.append_assoc]
  refine started errors taken fun p member => ?_
  exact (List.mem_append.mp member).elim (suited p) (drains p)

/-- A call of `communicate` leaves the handle and all pumps settled, whatever it comes to. -/
theorem communicate (tended : Tended c h₀ crew h w) (input : Option Buffer) (limit : Limit) :
    let r := (Handle.communicate input limit).exec h w
    Left c h₀ crew r.2.1 r.2.2 := by
  rw [communicate_eq]
  cases input with
  | none =>
    obtain ⟨undelivered, w₁, closed, tended₁, -⟩ := tended.closeEndpoint sound .stdin
    simp only [pure_bind]
    rw [Owning.exec_bind, closed]
    have alone : Tended c h₀ (crew ++ []) (h.without .stdin) w₁ := by rwa [List.append_nil]
    exact start sound alone (by simp)
  | some buffer =>
    simp only [pure_bind]
    rw [Owning.exec_bind]
    rcases tended.takeFeed buffer with ⟨e, failed⟩ | ⟨p, took, tended', suited⟩
    · rw [failed]
      exact ⟨[], by rwa [List.append_nil], by simp⟩
    · rw [took]
      exact start sound tended' (by simpa using suited)

end Sound

end Handle.Tended

end Pipework
