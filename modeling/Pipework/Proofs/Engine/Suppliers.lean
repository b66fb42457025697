import Pipework.Proofs.Custody.Crews
import Pipework.Proofs.Custody.Handover
import Pipework.Proofs.Supply.Reaching

/-!
# The pumps that feed, after a start

When the wiring of a start is done, every pump that is to feed a command is alone with its end of the pipe, and
no other pump and no end of the caller is on that pipe (`Succeeds.posted`). So from this moment on everything that
happens is an interleaving of its feeding with the rest (`Succeeds.supplies`).
-/

/-!
## A pump that feeds, among the pumps of a start

The pumps of a start are started one after the other, and each of them only uses descriptors of its own. For
one that feeds a pipe which none of the others is on (`Supply.Posted`), all that happens before, during and
after its start is an interleaving of its feeding with the rest (`Posted.launches`).
-/

namespace Pipework

open World

/-- What a descriptor leads to, it leads to until it is closed. -/
theorem World.Proceeds.channel?_of_open {w w' : World} {events : List Event} {d : Nat}
    (proceeds : w.Proceeds w' events) (isOpen : d ∉ closedBy events) : w'.channel? d = w.channel? d := by
  rw [channel?, channel?, proceeds.descriptors, List.find?_filter]
  congr 2
  funext x
  by_cases here : x.1 = d
  · simp [here, isOpen]
  · have other : ((x.1 : Int) == (d : Int)) = false := beq_eq_false_iff_ne.mpr (mt Int.ofNat_inj.mp here)
    simp [other]

namespace Supply

/-- A pump stands among others, at a moment when it has not been started: it is to feed a pipe that none of the
others is on. -/
structure Posted (ends : Stream → Option Nat) (before after : List Pump) (p : Pump) (d pipe : Nat) (w : World) :
    Prop where
  sound : (Custody.mk w (Custody.heldBy ends (before ++ p :: after))).Sound
  onEnd : p.pipeEnd = .descriptor d
  leads : w.channel? d = some (.writeEnd pipe)
  known : pipe < w.pipes.length
  lone : w.Lone pipe
  apart : ∀ o d', Custody.heldBy ends (before ++ p :: after) o = some d' → d' ≠ d → w.pipeOf? d' ≠ some pipe

namespace Posted

variable {ends : Stream → Option Nat} {before before' after : List Pump} {p p' : Pump} {d pipe : Nat}
variable {w w' : World} {s₀ s : Supply}

section

variable (posted : Posted ends before after p d pipe w)
include posted

/-- The pump is the owner of its end. -/
theorem holds : Custody.heldBy ends (before ++ p :: after) (.pump before.length) = some d := by
  rw [Custody.heldBy_pump, Pump.holding, posted.onEnd]
  rfl

/-- The others are owners of other ends. -/
private theorem others {gone : Pump} (nothing : gone.holding = none) {o : Owner} {d' : Nat}
    (holds : Custody.heldBy ends (before ++ gone :: after) o = some d') :
    Custody.heldBy ends (before ++ p :: after) o = some d' ∧ d' ≠ d := by
  rw [Custody.heldBy_set ends before after p, nothing] at holds
  by_cases mine : o = .pump before.length
  · rw [mine, Function.update_self] at holds
    cases holds
  · rw [Function.update_of_ne mine] at holds
    refine ⟨holds, ?_⟩
    rintro rfl
    exact mine (posted.sound.apart _ _ _ holds posted.holds)

/-- Without it the others are owners as before. -/
private theorem without {gone : Pump} (nothing : gone.holding = none) :
    (Custody.mk w (Custody.heldBy ends (before ++ gone :: after))).Sound where
  apart o o' d' holds holds' :=
    posted.sound.apart o o' d' (posted.others nothing holds).1 (posted.others nothing holds').1
  isOpen o d' holds := posted.sound.isOpen o d' (posted.others nothing holds).1

/-- What the others do is nothing to the pipe. -/
private theorem aside {gone : Pump} {c : Custody} {events : List Event} (nothing : gone.holding = none)
    (proceeds : w.Proceeds w' events) (sound : (Custody.mk w' (Custody.heldBy ends (before ++ gone :: after))).Sound)
    (run : Run s₀ s) (here : s.world = w') (isPipe : s.pipe = pipe)
    (moves : Custody.Run ⟨w', Custody.heldBy ends (before ++ gone :: after)⟩ c) :
    ∃ entries taken, Run s₀ { s with world := c.world, entries, taken } := by
  subst here isPipe
  refine run.custody ?_ (posted.lone.of_still proceeds.still) sound (fun o d' holds => ?_) moves
  · rw [proceeds.pipes]
    exact posted.known
  · obtain ⟨holds, other⟩ := posted.others nothing holds
    rw [proceeds.pipeOf?]
    exact posted.apart o d' holds other

/-- The pumps before it have been started. -/
private theorem later (run : Custody.Run ⟨w, Custody.heldBy ends (before ++ p :: after)⟩
      ⟨w', Custody.heldBy ends (before' ++ p :: after)⟩) : Posted ends before' after p d pipe w' := by
  obtain ⟨events, since⟩ := run.since posted.sound
  have stillMine : Custody.heldBy ends (before' ++ p :: after) (.pump before'.length) = some d := by
    rw [Custody.heldBy_pump, Pump.holding, posted.onEnd]
    rfl
  have isOpen : d ∉ closedBy events := fun closed =>
    (since.closed d ⟨.pump before.length, posted.holds⟩).mp closed ⟨.pump before'.length, stillMine⟩
  exact
    { sound := since.sound
      onEnd := posted.onEnd
      leads := (since.proceeds.channel?_of_open isOpen).trans posted.leads
      known := by
        rw [since.proceeds.pipes]
        exact posted.known
      lone := posted.lone.of_still since.proceeds.still
      apart := fun o d' holds other => by
        obtain ⟨o', mine⟩ := since.holds d' ⟨o, holds⟩
        rw [since.proceeds.pipeOf?]
        exact posted.apart o' d' mine other }

/-- **A pump that feeds is one of several.** When all pumps have been started, this one has finished, and what has
happened is a run of its feeding, as is all that the pumps and the caller do with their own ends after that. It
tells of how the run has come to its end. -/
theorem launches {input : Input} {coding : Coding} (suited : ∀ q ∈ before ++ p :: after, q.Suited)
    (feeds : p.direction = .feed) (clean : p.error = none) (source : p.buffer = input.toBuffer)
    (named : ∀ t, input = .text t → p.codingFor "encode() argument 'encoding'" = .ok coding) :
    ∃ before' p' after' w', ∃ s : Supply, Id.run ((Handle.onPumps Pump.start (before ++ p :: after)).run w)
        = ((.ok (), before' ++ p' :: after'), w') ∧
      before'.length = before.length ∧ p'.thread = .finished ∧ s.outflow.Told p.settings p'.error ∧
      ∀ c, Custody.Run ⟨w', Custody.heldBy ends (before' ++ p' :: after')⟩ c → ∃ entries taken,
        Run (start w ⟨d, [], false⟩ pipe ((input.encodedIn? coding).bind p.settings.cut?))
          { s with world := c.world, entries, taken } := by
  -- Those before it, once with it among the owners and once without.
  have earlier : ∀ q ∈ before, q.Suited := fun q member => suited q (List.mem_append_left _ member)
  obtain ⟨before', w₁, started₁, length, -, run₁⟩ :=
    Custody.Run.startAll posted.sound [] (p :: after) earlier .refl
  have nothing : ({ p with pipeEnd := .gone } : Pump).holding = none := rfl
  obtain ⟨_, _, again, -, -, reduced⟩ :=
    Custody.Run.startAll (posted.without nothing) [] ({ p with pipeEnd := .gone } :: after) earlier .refl
  cases started₁.symm.trans again
  rw [List.nil_append] at run₁ reduced
  have posted₁ := posted.later run₁
  obtain ⟨entries, taken, supplied⟩ := posted.aside nothing (.refl w) (posted.without nothing)
    (s := start w ⟨d, [], false⟩ pipe ((input.encodedIn? coding).bind p.settings.cut?)) .refl rfl rfl reduced
  -- The pump itself.
  obtain ⟨outcome, p₁, fed, how⟩ := Pump.exec_feedAll (p := { p with thread := .running, pipeEnd := .gone })
    (r := ⟨d, [], false⟩) rfl source named (w₁.emit (.threadStarted p.threadName))
  obtain ⟨closing, s, started, supplied₂, -, closes⟩ :=
    supplied.starts rfl posted₁.known posted₁.leads feeds posted.onEnd fed
  obtain ⟨p', started₂, finished, told⟩ : ∃ p', Pump.start.exec p w₁ = (.ok (), p', s.world) ∧
      p'.thread = .finished ∧ s.outflow.Told p.settings p'.error :=
    ⟨_, started, rfl, closes.told (p := { p with thread := .running, pipeEnd := .gone }) rfl rfl how clean⟩
  obtain ⟨_, _, again, settled, run₂⟩ := Custody.Run.start (p := p) posted₁.sound .refl
    (o := .pump before'.length) (Custody.heldBy_pump ends before' after p)
    (suited p (List.mem_append_right _ List.mem_cons_self))
  cases started₂.symm.trans again
  rw [← Custody.heldBy_set] at run₂
  have sound₂ := run₂.sound posted₁.sound
  obtain ⟨events, since⟩ := run₂.since posted₁.sound
  -- Those after it.
  have shifted (rest : List Pump) : before' ++ p' :: rest = (before' ++ [p']) ++ (rest ++ []) := by simp
  have others : ∀ q ∈ after, q.Suited := fun q member =>
    suited q (List.mem_append_right _ (List.mem_cons_of_mem _ member))
  have here : Custody.Run ⟨s.world, Custody.heldBy ends (before' ++ p' :: after)⟩
      ⟨s.world, Custody.heldBy ends ((before' ++ [p']) ++ (after ++ []))⟩ := by rw [← shifted]
  obtain ⟨after', w₃, started₃, -, -, run₃⟩ := Custody.Run.startAll sound₂ _ [] others here
  rw [← shifted] at run₃
  refine ⟨before', p', after', w₃, s, ?_, length, finished, told, fun c moves => ?_⟩
  · rw [Handle.run_onPumps_append started₁, Handle.run_onPumps_cons, started₂]
    dsimp only
    rw [started₃]
  · exact posted₁.aside (settled.holding finished) since.proceeds sound₂ supplied₂ rfl closes.pipe
      (run₃.trans moves)

end

end Posted

end Supply

end Pipework

namespace Pipework

namespace Engine

open Pipework.Graph World

/-- The moment of a start when its wiring is done and a pump is about to feed some chunks to the stdin of a command,
if it can have them: nothing has been written into the pipe that leads there, and the pump has its other end. -/
structure Provides (item : Item) (values : RedirectValues) (e : Engine) (w : World) (graph : Graph) (place : Place)
    (chunks? : Option (List Bytes)) (s₀ : Supply) : Prop where
  wired : ∃ w₁ σ, Begins item values w graph w₁ ∧ (wire e.settings graph).exec w₁ = (.ok σ, s₀.world) ∧
    (.near place .stdin, .readEnd s₀.pipe) ∈ graph.channels w₁ ∧
    (.far place .stdin, .writeEnd s₀.pipe) ∈ graph.channels w₁
  starts : ∃ d, s₀ = .start s₀.world ⟨d, [], false⟩ s₀.pipe chunks?
  sound : Supply.Sound s₀ s₀
  empty : s₀.world.content s₀.pipe = []

namespace Succeeds

variable {item : Item} {values : RedirectValues} {e e' : Engine} {w w' w₁ w₂ : World}
variable {handle : Handle} {σ : Wiring} {events launching : List Event} {starts : List Start}
variable (succeeds : Succeeds item values e w handle e' w' w₁ w₂ σ events launching starts)
include succeeds

/-! ## When the wiring is done -/

/-- What is open then was open before, or has been opened and not closed. -/
private theorem mem_wired (sound : w.Sound) (x : Nat × Channel) :
    x ∈ (w₂.shutAll (σ.childDescriptors ++ σ.files)).descriptors ↔ x ∈ w₁.descriptors ∨
      (∃ c ∈ handle.graph.channels w₁, ((handle.graph.values w₁.nextDescriptor c.1).toNat, c.2) = x) ∧
        x.1 ∉ closedBy (events ++ (σ.childDescriptors ++ σ.files).map .closed) := by
  obtain ⟨-, kept⟩ := succeeds.progress.exec_closeChildSide (sound.passes succeeds.begins.passes)
  rw [kept.account.descriptors, List.mem_append, List.mem_filter, decide_eq_true_iff, allocatedBy_append,
    allocatedBy_of_quiet (openedBy_map_closed _), List.append_nil, succeeds.progress.served.allocated, List.mem_map]
  rfl

/-- What is kept is its keeper's alone then. -/
theorem owned_wired (sound : w.Sound) (hosted : handle.graph.Hosted w) {place : Place} {s : Stream}
    (kept : .far place s ∈ handle.graph.kept) {pipe : Nat}
    (leads : (.far place s, farChannel s pipe) ∈ handle.graph.channels w₁) :
    (w₂.shutAll (σ.childDescriptors ++ σ.files)).Owned
      (handle.graph.values w₁.nextDescriptor (.far place s)).toNat (farChannel s pipe) pipe := by
  have sound₁ := sound.passes succeeds.begins.passes
  obtain ⟨-, soundly⟩ := succeeds.progress.exec_closeChildSide sound₁
  have left := (succeeds.progress.kept_perm sound₁).mem_iff.mp (List.mem_map_of_mem kept)
  have isOpen := of_decide_eq_true (List.mem_filter.mp left).2
  exact succeeds.owned_of_open sound hosted soundly.sound
    (fun x member => ((succeeds.mem_wired sound x).mp member).imp_right And.left)
    (by rw [processes_shutAll]) kept leads ((succeeds.mem_wired sound _).mpr (.inr ⟨⟨_, leads, rfl⟩, isOpen⟩))

/-- The processes of the start have numbers of their own, and no others have been started on its pipes. -/
theorem lone (sound : w.Sound) {c : Claim × Channel} (leads : c ∈ handle.graph.channels w₁) {pipe : Nat}
    (isEnd : c.2.pipe? = some pipe) : (w₂.shutAll (σ.childDescriptors ++ σ.files)).Lone pipe := by
  have sound₁ := sound.passes succeeds.begins.passes
  have roster := succeeds.progress.roster
  have isNew := Making.channels_range leads pipe isEnd
  have untouched {p : Process} (old : p ∈ w₁.processes) : ¬ p.Touches pipe := by
    rintro ⟨stream, isStream, isEnd⟩
    have := sound₁.streams p old stream isStream pipe isEnd
    omega
  rw [Lone, processes_shutAll, roster.processes, List.pairwise_append]
  refine ⟨?_, ?_, ?_⟩
  · refine List.Pairwise.imp_of_mem (fun first second _ touches => ?_) (List.pairwise_of_forall fun _ _ => trivial)
    exact absurd touches (not_or.mpr ⟨untouched first, untouched second⟩)
  · have distinct : ((starts.filterMap Start.process?).map (·.pid)).Nodup := by
      rw [roster.pids]
      exact List.nodup_range'
    refine (List.pairwise_map.mp distinct).imp ?_
    intro p q differ _
    exact differ
  · intro p old q new _ same
    have small := sound₁.pids p old
    have large : q.pid ∈ (starts.filterMap Start.process?).map (·.pid) := List.mem_map_of_mem new
    rw [roster.pids, List.mem_range'_1] at large
    omega

/-- Nothing has been written into the pipes of the start then. -/
theorem content_wired (sound : w.Sound) {c : Claim × Channel} (leads : c ∈ handle.graph.channels w₁) {pipe : Nat}
    (isEnd : c.2.pipe? = some pipe) : (w₂.shutAll (σ.childDescriptors ++ σ.files)).content pipe = [] := by
  have sound₁ := sound.passes succeeds.begins.passes
  have isNew := Making.channels_range leads pipe isEnd
  have wired := succeeds.wired
  obtain ⟨k, pipes⟩ := Chore.performAll_pipes (handle.graph.values w₁.nextDescriptor) (handle.graph.chores [])
    { settings := e.settings } w₁
  rw [← Wiring.exec_walk] at pipes
  generalize walked : (Wiring.walk {} handle.graph).exec { settings := e.settings } w₁ = result at pipes
  obtain ⟨outcome, σ', v⟩ := result
  cases outcome with
  | error failure =>
    obtain ⟨_, _, _, _, _, failed, -⟩ := exec_wire_of_error sound₁ walked
    cases failed.symm.trans wired
  | ok _ =>
    obtain ⟨_, _, -, again⟩ := exec_wire_of_ok sound₁ walked
    have same := congrArg (fun r => r.2.content pipe) (wired.symm.trans again)
    dsimp only at same pipes
    rw [same, content, pipes_shutAll, pipes, List.getD_eq_getElem?_getD, List.getElem?_append_right isNew,
      List.getElem?_replicate]
    split <;> rfl

/-! ## A pump that feeds -/

variable {place : Place} {number : Nat} {held : Item}

/-- A pump that is to feed a command stands among the others on a pipe that it is alone to feed. -/
theorem posted (sound : w.Sound) (hosted : handle.graph.Hosted w)
    (buffer : handle.graph.buffers[number]? = some (place, .stdin, held)) :
    ∃ before after pipe, before.length = number ∧
      σ.pumps = before ++ Wiring.pumpOf (handle.graph.values w₁.nextDescriptor) e.settings number
        (place, .stdin, held) :: after ∧
      (.near place .stdin, .readEnd pipe) ∈ handle.graph.channels w₁ ∧
      (.far place .stdin, .writeEnd pipe) ∈ handle.graph.channels w₁ ∧
      Supply.Posted handle.holding before after
        (Wiring.pumpOf (handle.graph.values w₁.nextDescriptor) e.settings number (place, .stdin, held))
        (handle.graph.values w₁.nextDescriptor (.far place .stdin)).toNat pipe
        (w₂.shutAll (σ.childDescriptors ++ σ.files)) := by
  have pumps : σ.pumps = handle.graph.buffers.mapIdx
      (Wiring.pumpOf (handle.graph.values w₁.nextDescriptor) e.settings) := succeeds.progress.served.pumps
  have there : σ.pumps[number]? = some (Wiring.pumpOf (handle.graph.values w₁.nextDescriptor) e.settings number
      (place, .stdin, held)) := by
    rw [pumps, List.getElem?_mapIdx, buffer]
    rfl
  obtain ⟨inRange, isPump⟩ := List.getElem?_eq_some_iff.mp there
  have split : σ.pumps = σ.pumps.take number ++ Wiring.pumpOf (handle.graph.values w₁.nextDescriptor) e.settings
      number (place, .stdin, held) :: σ.pumps.drop (number + 1) := by
    rw [← isPump, ← List.drop_eq_getElem_cons inRange, List.take_append_drop]
  have kept : .far place .stdin ∈ handle.graph.kept :=
    List.mem_append_left _ (List.mem_map.mpr ⟨_, List.mem_of_getElem? buffer, rfl⟩)
  obtain ⟨pipe, reads, leads⟩ := channels_of_stdin kept w₁
  have owned := succeeds.owned_wired sound hosted kept leads
  refine ⟨_, _, pipe, List.length_take_of_le (Nat.le_of_lt inRange), split, reads, leads,
    { sound := split ▸ succeeds.handed_sound sound
      onEnd := rfl
      leads := owned.leads
      known := owned.known
      lone := succeeds.lone sound leads rfl
      apart := fun o d' holds other same => other ?_ }⟩
  rw [← split] at holds
  obtain ⟨c, isKept, rfl⟩ := List.mem_map.mp ((succeeds.holds_iff_kept w₂ d').mp ⟨o, holds⟩)
  obtain ⟨place', s', -, rfl, -⟩ := kept_cases isKept
  obtain ⟨pipe', leads'⟩ := channel_of_kept isKept w₁
  cases (succeeds.owned_wired sound hosted isKept leads').pipeOf?.symm.trans same
  rw [eq_of_kept_pipe isKept kept leads' leads (pipe?_farChannel _ _) rfl]

/-- **A pump that feeds goes on amid everything else.** From the moment when the wiring is done, what becomes of
the input of a command is a run of `Supply`: the start itself, and after it whatever is done with the handle. The
pump has finished when the start has, and its error tells of how that went. -/
theorem supplies (sound : w.Sound) (hosted : handle.graph.Hosted w)
    (spawned : (spawn item values).exec e w = (.ok handle, e', w'))
    (buffer : handle.graph.buffers[number]? = some (place, .stdin, held)) {input : Input} {coding : Coding}
    (given : held.it.toBuffer = input.toBuffer)
    (named : ∀ t, input = .text t → ∃ name, e.settings.pumps.coding = some name ∧ Coding.named name = .ok coding) :
    ∃ s₀ p', ∃ s : Supply,
      Provides item values e w handle.graph place ((input.encodedIn? coding).bind e.settings.pumps.cut?) s₀ ∧
      handle.pumps[number]? = some p' ∧ p'.thread = .finished ∧ s.outflow.Told e.settings.pumps p'.error ∧
      ∀ c, Custody.Run (handle.custody [] w') c → ∃ entries taken,
        Supply.Run s₀ { s with world := c.world, entries, taken } := by
  obtain ⟨before, after, pipe, length, split, reads, leads, posted⟩ := succeeds.posted sound hosted buffer
  have kept : .far place .stdin ∈ handle.graph.kept :=
    List.mem_append_left _ (List.mem_map.mpr ⟨_, List.mem_of_getElem? buffer, rfl⟩)
  have owned := succeeds.owned_wired sound hosted kept leads
  obtain ⟨before', p', after', w₃, s, launched, length', finished, told, runs⟩ :=
    posted.launches (split ▸ succeeds.suited) rfl rfl given fun t isText => by
      obtain ⟨name, isName, isCoding⟩ := named t isText
      have known : (Wiring.pumpOf (handle.graph.values w₁.nextDescriptor) e.settings number
          (place, .stdin, held)).settings.coding = some name := isName
      rw [Pump.codingFor, known]
      exact isCoding
  have provides : Provides item values e w handle.graph place ((input.encodedIn? coding).bind e.settings.pumps.cut?)
      (.start (w₂.shutAll (σ.childDescriptors ++ σ.files))
        ⟨(handle.graph.values w₁.nextDescriptor (.far place .stdin)).toNat, [], false⟩ pipe
        ((input.encodedIn? coding).bind e.settings.pumps.cut?)) :=
    { wired := ⟨_, _, succeeds.begins, succeeds.wired, reads, leads⟩
      starts := ⟨_, rfl⟩
      sound := Supply.sound_start owned.known owned.exclusive rfl rfl
      empty := succeeds.content_wired sound leads rfl }
  rw [← split] at launched
  obtain ⟨pumps, line, rfl⟩ := succeeds.eq_of_launched spawned launched
  refine ⟨_, p', s, provides, ?_, finished, told, fun c run => ?_⟩
  · rw [pumps, ← length, ← length']
    simp
  · refine runs c (.trans ?_ run)
    rw [Handle.custody, pumps, List.append_nil]
    exact Custody.Run.of_same .refl rfl rfl rfl rfl rfl rfl rfl

end Succeeds

end Engine

end Pipework
