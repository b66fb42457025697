import Pipework.Proofs.Wiring.Abreast
import Pipework.Proofs.Wiring.Carrying
import Pipework.Proofs.Wiring.Doable

/-!
# What comes of every command

What comes of the start of a command is decided when the walk comes to it (`CameTo`): it depends on its program, which
is the same all along, and on whether its streams are open by then. So when two walks come to their ends, of graphs
that have the same commands in the same order and make the same for them, though in another order, the same comes of
each command (`peers_of_ends`), on the same streams under other numbers. What is opened on the way, what the pumps
move and what the caller gets is then the same under the same numbers.
-/

namespace Pipework

theorem Chore.mem_tries {value : Claim → Descriptor} {σ : Wiring} {w : World} {c : Chore} {s : Start}
    (tried : s ∈ c.tries value σ w) : c = .start s.leaf s.above ∧
      s.result = Sim.prepare w (σ.requestOf s.command (s.context value)) := by
  cases c with
  | start leaf above =>
    rw [tries] at tried
    cases isLeaf : leaf.commandOf with
    | error e =>
      rw [isLeaf] at tried
      cases tried
    | ok command =>
      rw [isLeaf] at tried
      rw [List.mem_singleton.mp tried]
      exact ⟨rfl, rfl⟩
  | redirect | edge | refuse => cases tried

/-- Where the same programs are, the same one is found. -/
theorem World.Filed.findProgram {w w' : World} {names : List Text} (filed : w.Filed names w') {r r' : Sim.StartRequest}
    (args : r'.args = r.args) (directory : r'.directory = r.directory) :
    Sim.findProgram w' r' = Sim.findProgram w r := by
  rw [Sim.findProgram, Sim.findProgram, args, directory, filed.directories, filed.programs]

namespace Wiring

/-- A walk came to a command and tried to start it, after it had done the chores before. -/
def CameTo (g : Graph) (settings : StartSettings) (w₀ : World) (s : Start) : Prop :=
  ∃ before after w σ events starts names, g.chores [] = before ++ .start s.leaf s.above :: after ∧
    Progress (g.values w₀.nextDescriptor) settings w₀ w before σ events starts ∧ w₀.Filed names w ∧
    s.result = Sim.prepare w (σ.requestOf s.command (s.context (g.values w₀.nextDescriptor)))

section Walk

variable {g : Graph} {settings : StartSettings} {w₀ w w' : World} {done now rest : List Chore} {σ σ' : Wiring}
variable {events : List Event} {starts : List Start} {names : List Text}

/-- A walk that does some chores more comes to their commands. -/
private theorem Progress.goOn (progress : Progress (g.values w₀.nextDescriptor) settings w₀ w done σ events starts)
    (filed : w₀.Filed names w) (split : g.chores [] = done ++ (now ++ rest))
    (came : ∀ s ∈ starts, CameTo g settings w₀ s)
    (ran : (Chore.performAll (g.values w₀.nextDescriptor) now).exec σ w = (.ok (), σ', w')) :
    ∃ events starts, Progress (g.values w₀.nextDescriptor) settings w₀ w' (done ++ now) σ' events starts ∧
      ∀ s ∈ starts, CameTo g settings w₀ s := by
  induction now generalizing done σ w events starts names with
  | nil =>
    cases ran
    exact ⟨events, starts, (List.append_nil done).symm ▸ progress, came⟩
  | cons c later ih =>
    obtain ⟨more, effect⟩ := Chore.perform_effect (g.values w₀.nextDescriptor) c σ w
    rw [Chore.performAll, Owning.exec_bind] at ran
    generalize (c.perform (g.values w₀.nextDescriptor)).exec σ w = result at effect ran
    obtain ⟨_ | _, σ₁, w₁⟩ := result
    · cases ran
    · have fit := progress.fit split
      rw [List.cons_append, ← List.singleton_append, Chore.makings_append] at fit
      have came' : ∀ s ∈ starts ++ c.tries (g.values w₀.nextDescriptor) σ w, CameTo g settings w₀ s := by
        intro s member
        rcases List.mem_append.mp member with old | new
        · exact came s old
        · obtain ⟨rfl, result⟩ := Chore.mem_tries new
          exact ⟨done, later ++ rest, w, σ, events, starts, names, split, progress, filed, result⟩
      obtain ⟨events', starts', after, cameAll⟩ := ih (progress.step fit.left effect) (filed.trans effect.filed)
        (by rw [split, List.append_assoc]; rfl) came' ran
      exact ⟨events', starts', List.append_cons .. ▸ after, cameAll⟩

/-- A walk that comes to its end has come to every command. -/
theorem walk_comes (sound : w₀.Sound) (walked : (walk {} g).exec { settings } w₀ = (.ok (), σ, w)) :
    ∃ events starts, Progress (g.values w₀.nextDescriptor) settings w₀ w (g.chores []) σ events starts ∧
      ∀ s ∈ starts, CameTo g settings w₀ s := by
  rw [exec_walk] at walked
  have split : g.chores [] = [] ++ (g.chores [] ++ []) := (List.append_nil _).symm
  exact (Progress.empty _ settings w₀ sound).goOn (.of_same rfl rfl rfl rfl) split (by simp) walked

end Walk

section Two

variable {φ : Claim → Claim} {l r : Graph} {settings : StartSettings} {w₀ w w' : World} {σ σ' : Wiring}
variable {events events' : List Event} {starts starts' : List Start} {s s' : Start}

/-- Two walks that come to the same command, on streams that stand for each other, start it both or not. -/
private theorem CameTo.alike (carries : l.Carries φ r) (names : l.NamesNoNew w₀.nextDescriptor)
    (came : CameTo l settings w₀ s) (came' : CameTo r settings w₀ s') (command : s'.command = s.command)
    (nearest : ∀ t, s'.leaf.nearest s'.above t = (s.leaf.nearest s.above t).map φ) :
    (s'.result.map fun _ => ()) = (s.result.map fun _ => ()) ∧
      ∀ t, (s'.leaf.nearest s'.above t).map (r.values w₀.nextDescriptor) =
        ((s.leaf.nearest s.above t).map (l.values w₀.nextDescriptor)).map
          (·.renamed (l.renumberBy φ r w₀.nextDescriptor)) := by
  obtain ⟨before, after, w, σ, events, starts, made, split, progress, filed, result⟩ := came
  obtain ⟨before', after', w', σ', events', starts', made', split', progress', filed', result'⟩ := came'
  have reaches := progress.reaches_alike carries names split nearest progress' split'
  have same : σ'.settings = σ.settings := progress'.roster.settings.trans progress.roster.settings.symm
  refine ⟨?_, progress.streams_alike carries names split nearest⟩
  rw [result, result']
  have program : Sim.findProgram w' (σ'.requestOf s'.command (s'.context (r.values w₀.nextDescriptor))) =
      Sim.findProgram w (σ.requestOf s.command (s.context (l.values w₀.nextDescriptor))) :=
    (filed'.findProgram (congrArg Command.args command) (congrArg StartSettings.directory same)).trans
      (filed.findProgram rfl rfl).symm
  have pids := Sim.map_pid_prepare program (reaches .stdin _) (reaches .stdout _) (reaches .stderr _)
  generalize Sim.prepare w' _ = made' at pids ⊢
  generalize Sim.prepare w _ = made at pids ⊢
  cases made <;> cases made' <;> first | rfl | cases pids
  rfl

/-- Processes that are numbered one after the other. -/
private def Numbered (first : Nat) (starts : List Start) : Prop :=
  (starts.filterMap Start.process?).map Process.pid =
    List.range' first (starts.filterMap Start.process?).length

private theorem numbered_cons {first : Nat} {rest : List Start} : Numbered first (s :: rest) ↔
    match s.result with
    | .ok p => p.pid = first ∧ Numbered (first + 1) rest
    | .error _ => Numbered first rest := by
  rw [Numbered, List.filterMap_cons, Start.process?]
  cases s.result with
  | error e => exact .rfl
  | ok p => simp [Numbered, List.range'_succ]

/-- If every command is started in two walks or in none, the processes have the same numbers. -/
private theorem pids_alike {first : Nat} (numbered : Numbered first starts) (numbered' : Numbered first starts')
    (started : List.Forall₂ (fun s s' : Start => (s'.result.map fun _ => ()) = (s.result.map fun _ => ())) starts starts') :
    List.Forall₂ (fun s s' : Start => s'.result.map Process.pid = s.result.map Process.pid) starts starts' := by
  induction started generalizing first with
  | nil => exact .nil
  | @cons s s' rest rest' same _ ih =>
    rw [numbered_cons] at numbered numbered'
    cases result : s.result <;> cases result' : s'.result <;>
      rw [result, result'] at same <;> rw [result] at numbered <;> rw [result'] at numbered'
    case error.ok | ok.error => cases same
    case error.error e e' =>
      cases same
      exact .cons (by rw [result, result']) (ih numbered numbered')
    case ok.ok p p' =>
      refine .cons ?_ (ih numbered.2 numbered'.2)
      rw [result, result', Except.map, Except.map, numbered.1, numbered'.1]

/-- **Where two walks come to their ends, the same comes of every command.** -/
theorem peers_of_ends (rearranged : l.Rearranged φ r) (names : l.NamesNoNew w₀.nextDescriptor)
    (left : Progress (l.values w₀.nextDescriptor) settings w₀ w (l.chores []) σ events starts)
    (right : Progress (r.values w₀.nextDescriptor) settings w₀ w' (r.chores []) σ' events' starts')
    (came : ∀ s ∈ starts, CameTo l settings w₀ s) (came' : ∀ s ∈ starts', CameTo r settings w₀ s) :
    List.Forall₂ (Start.Peer (l.renumberBy φ r w₀.nextDescriptor) (l.values w₀.nextDescriptor)
      (r.values w₀.nextDescriptor)) starts starts' := by
  -- The commands come up in the same order.
  have pairs : List.Forall₂ (fun s s' : Start => s'.leaf.commandOf = s.leaf.commandOf ∧
      ∀ t, s'.leaf.nearest s'.above t = (s.leaf.nearest s.above t).map φ) starts starts' := by
    have occurrences := rearranged.occurrences
    rw [Graph.occurrences, Graph.occurrences, ← left.roster.occurrences, ← right.roster.occurrences,
      List.forall₂_map_left_iff, List.forall₂_map_right_iff] at occurrences
    exact occurrences
  have each : ∀ {s s'}, (s, s') ∈ starts.zip starts' → s'.command = s.command ∧
      (s'.result.map fun _ => ()) = (s.result.map fun _ => ()) ∧
      ∀ t, (s'.leaf.nearest s'.above t).map (r.values w₀.nextDescriptor) =
        ((s.leaf.nearest s.above t).map (l.values w₀.nextDescriptor)).map
          (·.renamed (l.renumberBy φ r w₀.nextDescriptor)) := by
    intro s s' paired
    obtain ⟨isHere, isThere⟩ := List.of_mem_zip paired
    obtain ⟨same, nearest⟩ := (List.forall₂_iff_zip.mp pairs).2 paired
    have command : s'.command = s.command := by
      rw [left.roster.commands s isHere, right.roster.commands s' isThere] at same
      exact Except.ok.inj same
    exact ⟨command, (came s isHere).alike rearranged.carries names (came' s' isThere) command nearest⟩
  -- As the same ones are started, and the numbers of processes go up, these are the same.
  have pids := pids_alike left.roster.pids right.roster.pids
    (List.forall₂_iff_zip.mpr ⟨pairs.length_eq, fun paired => (each paired).2.1⟩)
  refine List.forall₂_iff_zip.mpr ⟨pairs.length_eq, fun {s s'} paired => ?_⟩
  obtain ⟨command, -, streams⟩ := each paired
  have pid := (List.forall₂_iff_zip.mp pids).2 paired
  refine ⟨command, pid, ?_⟩
  rw [Start.event, Start.event]
  cases result : s.result <;> cases result' : s'.result <;> rw [result, result'] at pid
  case error.ok | ok.error => cases pid
  case error.error e e' =>
    cases pid
    rw [command]
    rfl
  case ok.ok p p' =>
    rw [command]
    exact Chore.contextOf_renamed streams s.command (Except.ok.inj pid)

end Two

end Wiring

/-! ## What is opened, moved and handed out -/

/-- What is opened, under other numbers. -/
def Event.renumbered (ρ : Nat → Nat) : Event → Event
  | pipe reading writing => pipe (ρ reading) (ρ writing)
  | opened name mode d => opened name mode (ρ d)
  | e => e

/-- The end of a pump's pipe, under another number. -/
def PumpEnd.renumbered (ρ : Nat → Nat) : PumpEnd → PumpEnd
  | descriptor n => descriptor (ρ n)
  | e => e

/-- What a pump moves, and which way. -/
structure Charge where
  direction : Direction
  pipeEnd : PumpEnd
  buffer : Buffer

def Pump.charge (p : Pump) : Charge := ⟨p.direction, p.pipeEnd, p.buffer⟩

def Charge.renumbered (ρ : Nat → Nat) (c : Charge) : Charge := { c with pipeEnd := c.pipeEnd.renumbered ρ }

namespace Graph

/-- The pumps that the start of a graph makes, before they are started. -/
def pumps (g : Graph) (settings : StartSettings) (next : Nat) : List Pump :=
  g.buffers.mapIdx (Wiring.pumpOf (g.values next) settings)

/-- The ends that the start of a graph makes for the caller. -/
def ends (g : Graph) (next : Nat) : List (Stream × Nat) :=
  g.endpoints.map fun e => (e.2, (g.values next (.far e.1 e.2)).toNat)

/-- What the start of a graph opens, in the order of the chores. -/
def openings (g : Graph) (next : Nat) : List Event :=
  (Chore.makings (g.chores [])).filterMap (Making.event? (g.values next))

theorem charges_eq (g : Graph) (settings : StartSettings) (next : Nat) : (g.pumps settings next).map Pump.charge =
    ((g.chores []).filterMap Chore.charge?).map fun x =>
      ⟨Wiring.directionOf x.1, .descriptor (g.values next x.2.1).toNat, x.2.2.toBuffer⟩ := by
  have listed : (g.chores []).filterMap Chore.charge? = g.buffers.map fun b => (b.2.1, .far b.1 b.2.1, b.2.2.it) := by
    rw [buffers, List.map_filterMap]
    congr 1
    funext c
    rcases c with ⟨place, s, _ | _ | _ | _ | _ | _ | _⟩ | _ | _ | _ <;> rfl
  rw [listed, List.map_map]
  refine List.ext_getElem? fun i => ?_
  rw [pumps, List.getElem?_map, List.getElem?_mapIdx, List.getElem?_map]
  cases g.buffers[i]? <;> rfl

theorem ends_eq (g : Graph) (next : Nat) : g.ends next =
    ((g.chores []).filterMap Chore.request?).map fun x => (x.1, (g.values next x.2).toNat) := by
  rw [ends, endpoints, List.map_filterMap, List.map_filterMap]
  congr 1
  funext c
  rcases c with ⟨place, s, _ | _ | _ | _ | _ | _ | _⟩ | _ | _ | _ <;> rfl

/-- The far end of a pipe is opened. -/
private theorem far_allocated {g : Graph} {place : Place} {s : Stream} {t : Target}
    (member : .redirect place s t ∈ g.chores [])
    (pipe : t.making? place s = some (if s = .stdin then .pipe (.near place s) (.far place s)
      else .pipe (.far place s) (.near place s))) : .far place s ∈ g.allocated := by
  refine List.mem_flatMap.mpr ⟨_, List.mem_filterMap.mpr ⟨_, member, pipe⟩, ?_⟩
  split <;> simp [Making.allocated]

section Rearranged

variable {φ : Claim → Claim} {l r : Graph} (next : Nat)

/-- The same is opened, in another order and under other numbers. -/
theorem Carries.openings (carries : l.Carries φ r) :
    ((l.openings next).map (Event.renumbered (l.renumberBy φ r next))).Perm (r.openings next) := by
  have one : ∀ m ∈ Chore.makings (l.chores []), (m.map φ).event? (r.values next) =
      (m.event? (l.values next)).map (Event.renumbered (l.renumberBy φ r next)) := by
    intro m made
    have number {c : Claim} (mine : c ∈ m.allocated) : (r.values next (φ c)).toNat =
        l.renumberBy φ r next (l.values next c).toNat :=
      (Carries.renumber_allocated next (List.mem_flatMap.mpr ⟨m, made, mine⟩)).symm
    cases m with
    | pipe reading writing =>
      simp only [Making.map, Making.event?, Option.map_some, Event.renumbered]
      rw [number (by simp [Making.allocated]), number (by simp [Making.allocated])]
    | file name mode claim =>
      simp only [Making.map, Making.event?, Option.map_some, Event.renumbered]
      rw [number (by simp [Making.allocated])]
    | given d claim => rfl
  have moved := List.filterMap_congr one
  rw [← List.map_filterMap, ← Function.comp_def, ← List.filterMap_map] at moved
  exact moved ▸ List.Perm.filterMap _ carries

variable (rearranged : l.Rearranged φ r)
include rearranged

/-- The pumps move the same, on ends of other numbers. -/
theorem Rearranged.charges (settings : StartSettings) :
    (((l.pumps settings next).map Pump.charge).map (Charge.renumbered (l.renumberBy φ r next))).Perm
      ((r.pumps settings next).map Pump.charge) := by
  have perm := rearranged.filterMap fun _ _ => Chore.Carried.charge?
  rw [charges_eq, charges_eq, List.map_map]
  refine .trans (.of_eq ?_) (perm.map _)
  rw [List.map_map]
  refine List.map_congr_left fun x member => ?_
  obtain ⟨c, isChore, serves⟩ := List.mem_filterMap.mp member
  cases c with
  | redirect place s t =>
    cases t with
    | buffer held =>
      cases serves
      have number := Carries.renumber_allocated (φ := φ) (r := r) next (far_allocated isChore rfl)
      simp only [Function.comp_apply, Charge.renumbered, PumpEnd.renumbered, number]
    | _ => cases serves
  | edge | start | refuse => cases serves

/-- The caller gets the same ends, under other numbers. -/
theorem Rearranged.ends : ((l.ends next).map fun e => (e.1, l.renumberBy φ r next e.2)).Perm (r.ends next) := by
  have perm := rearranged.filterMap fun _ _ => Chore.Carried.request?
  rw [ends_eq, ends_eq, List.map_map]
  refine .trans (.of_eq ?_) (perm.map _)
  rw [List.map_map]
  refine List.map_congr_left fun x member => ?_
  obtain ⟨c, isChore, serves⟩ := List.mem_filterMap.mp member
  cases c with
  | redirect place s t =>
    cases t with
    | endpoint =>
      cases serves
      have number := Carries.renumber_allocated (φ := φ) (r := r) next (far_allocated isChore rfl)
      simp only [Function.comp_apply, number]
    | _ => cases serves
  | edge | start | refuse => cases serves

end Rearranged

end Graph

end Pipework
