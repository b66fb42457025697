import Pipework.Proofs.Wiring.Readiness
import Pipework.Proofs.Wiring.Renaming

/-!
# Two walks side by side

At every moment of a walk the chores that were done tell which descriptors are open: those that were open
before, and those that the claims of these chores get. So a stream that is decided by such a claim leads
somewhere, and a descriptor that a redirect names leads where it led before the walk, as long as the walk
does not open one of that number.

The walks of two groupings of a pipe, in one system, go side by side (`Abreast`): the chores of the one come up
in the other in the same order, but for the pipes of the two pipe nodes, and pipes can always be made. Every
chore can be done in both walks or in none, and for the same reason, since it finds the same files and the same
programs, and the streams of every command are open in both walks or in none.
-/

namespace Pipework

/-! ## What a walk has opened so far -/

namespace Making

theorem length_allocated (makings : List Making) : (makings.flatMap allocated).length = sizes makings := by
  rw [List.length_flatMap, sizes]
  congr 2
  funext m
  cases m <;> rfl

end Making

namespace Wiring

variable {g : Graph} {settings : StartSettings} {w₀ w : World} {done rest : List Chore} {σ : Wiring}
variable {events : List Event} {starts : List Start}
variable (progress : Progress (g.values w₀.nextDescriptor) settings w₀ w done σ events starts)

section
include progress

/-- What was opened can be told from the chores that were done. -/
theorem Progress.opened_eq : openedBy events =
    List.range' w₀.nextDescriptor (Making.sizes (Chore.makings done)) := by
  have opened := congrArg List.length progress.served.opened
  rw [List.length_map, List.length_map, Making.length_allocated] at opened
  rw [progress.ledger.account.opened, opened]

theorem Progress.next : w.nextDescriptor = w₀.nextDescriptor + Making.sizes (Chore.makings done) := by
  rw [progress.ledger.account.next, progress.opened_eq, List.length_range']

/-- The chores still to be done find what they open where the assignment says. -/
theorem Progress.fit (split : g.chores [] = done ++ rest) :
    Making.Fit (g.values w₀.nextDescriptor) w.nextDescriptor (Chore.makings rest) := by
  have fit := g.fit_values w₀.nextDescriptor
  rw [split, Chore.makings_append] at fit
  rw [progress.next]
  exact fit.right

/-- What was opened leads somewhere. -/
theorem Progress.reaches_opened {c : Claim} (opened : c ∈ (Chore.makings done).flatMap Making.allocated)
    (inherited : Channel) :
    (Sim.childChannel? w inherited (some (g.values w₀.nextDescriptor c))).isSome := by
  obtain ⟨n, -, isNumber⟩ := progress.served.value_of_allocated opened
  have notNull : ((n : Int)) ≠ Target.nullNumber := by
    change (n : Int) ≠ -3
    omega
  rw [isNumber, Sim.childChannel?]
  change (if (n : Int) = Target.nullNumber then some Channel.null else w.channel? n).isSome
  rw [if_neg notNull, World.channel?, Option.isSome_map, List.find?_isSome]
  rw [← Making.map_fst_channels w₀.pipes.length w₀.openings.length, List.mem_map] at opened
  obtain ⟨e, known, rfl⟩ := opened
  refine ⟨((g.values w₀.nextDescriptor e.1).toNat, e.2), ?_, ?_⟩
  · rw [progress.open_eq]
    exact List.mem_append_right _ (List.mem_map_of_mem (f := fun e : Claim × Channel => (_, e.2)) known)
  · simp [isNumber]

/-- What has another number leads where it led before. -/
theorem Progress.reaches_other (split : g.chores [] = done ++ rest) {d : Descriptor}
    (other : d.toInt < (w₀.nextDescriptor : Int) ∨ (w₀.nextDescriptor + g.size : Int) ≤ d.toInt)
    (inherited : Channel) :
    Sim.childChannel? w inherited (some d) = Sim.childChannel? w₀ inherited (some d) := by
  have notNew : ((Making.channels w₀.pipes.length w₀.openings.length (Chore.makings done)).map fun e =>
      ((g.values w₀.nextDescriptor e.1).toNat, e.2)).find? (fun x => (x.1 : Int) == d.toInt) = none := by
    refine List.find?_eq_none.mpr fun x member same => ?_
    obtain ⟨e, known, rfl⟩ := List.mem_map.mp member
    have opened : e.1 ∈ g.allocated := by
      rw [Graph.allocated, split, Chore.makings_append, List.flatMap_append]
      refine List.mem_append_left _ ?_
      rw [← Making.map_fst_channels w₀.pipes.length w₀.openings.length]
      exact List.mem_map_of_mem known
    have range := Graph.toNat_mem w₀.nextDescriptor opened
    rw [List.mem_range'_1] at range
    have same : ((g.values w₀.nextDescriptor e.1).toNat : Int) = d.toInt := by simpa using same
    omega
  have leads : w.channel? d.toInt = w₀.channel? d.toInt := by
    rw [World.channel?, World.channel?]
    change (w.descriptors.find? fun x => (x.1 : Int) == d.toInt).map (·.2) =
      (w₀.descriptors.find? fun x => (x.1 : Int) == d.toInt).map (·.2)
    rw [progress.open_eq, List.find?_append, notNew, Option.or_none]
  rw [Sim.childChannel?, Sim.childChannel?, leads]

/-- When a command comes up, every claim that decides one of its streams has been made. -/
theorem Progress.claimed {leaf : Graph} {above : Lineage}
    (split : g.chores [] = done ++ .start leaf above :: rest) {s : Stream} {c : Claim}
    (nearest : leaf.nearest above s = some c) : c ∈ Chore.claims done := by
  have ordered : Chore.Ordered [] (g.chores []) := Chore.ordered_chores g nofun
  rw [split] at ordered
  obtain ⟨d, isDone, serves⟩ := ordered.provide s c nearest
  exact Chore.claims_of_mem isDone c (serves.mem_claims (progress.possible d isDone))

end

section Carries

variable {φ : Claim → Claim} {l r : Graph} {w' : World} {done' rest' : List Chore} {σ' : Wiring}
variable {events' : List Event} {starts' : List Start} {leaf leaf' : Graph} {above above' : Lineage}
variable (carries : l.Carries φ r) (names : l.NamesNoNew w₀.nextDescriptor)
variable (onLeft : Progress (l.values w₀.nextDescriptor) settings w₀ w done σ events starts)
variable (left : l.chores [] = done ++ .start leaf above :: rest)
variable (nearest : ∀ s, leaf'.nearest above' s = (leaf.nearest above s).map φ)
include carries names onLeft left nearest

/-- A stream of a command is open in both walks or in none, if two graphs make the same. -/
theorem Progress.reaches_alike (onRight : Progress (r.values w₀.nextDescriptor) settings w₀ w' done' σ' events' starts')
    (right : r.chores [] = done' ++ .start leaf' above' :: rest') (s : Stream) (inherited : Channel) :
    (Sim.childChannel? w' inherited ((leaf'.nearest above' s).map (r.values w₀.nextDescriptor))).isSome =
      (Sim.childChannel? w inherited ((leaf.nearest above s).map (l.values w₀.nextDescriptor))).isSome := by
  rw [nearest s]
  cases isNearest : leaf.nearest above s with
  | none => rfl
  | some k =>
    have claimed := onLeft.claimed left isNearest
    have claimed' := onRight.claimed right ((nearest s).trans (congrArg _ isNearest))
    obtain ⟨m, made, mine⟩ := List.mem_flatMap.mp claimed
    obtain ⟨m', made', mine'⟩ := List.mem_flatMap.mp claimed'
    have inLeft {m : Making} (made : m ∈ Chore.makings done) : m ∈ Chore.makings (l.chores []) := by
      rw [left, Chore.makings_append]
      exact List.mem_append_left _ made
    have inRight {m : Making} (made : m ∈ Chore.makings done') : m ∈ Chore.makings (r.chores []) := by
      rw [right, Chore.makings_append]
      exact List.mem_append_left _ made
    rw [Option.map_some, Option.map_some, Option.map_some]
    rcases Making.mem_claims.mp mine with opened | ⟨d, rfl⟩
    · rw [onLeft.reaches_opened (List.mem_flatMap.mpr ⟨m, made, opened⟩)]
      have allocated : k ∈ l.allocated := List.mem_flatMap.mpr ⟨m, inLeft made, opened⟩
      rcases Making.mem_claims.mp mine' with opened' | ⟨d, rfl⟩
      · exact onRight.reaches_opened (List.mem_flatMap.mpr ⟨m', made', opened'⟩) inherited
      · exact absurd (inRight made') (Graph.not_given_of_allocated (carries.mem_allocated allocated) d)
    · have given := inLeft made
      have other := names d k given
      have other' : d.toInt < (w₀.nextDescriptor : Int) ∨ (w₀.nextDescriptor + r.size : Int) ≤ d.toInt := by
        rw [carries.size]
        exact other
      rw [(l.fit_values _).of_given given, (r.fit_values _).of_given (carries.given given),
        onLeft.reaches_other left other, onRight.reaches_other right other']

/-- Every stream of a command is the same in both walks, under another number. -/
theorem Progress.streams_alike (s : Stream) : (leaf'.nearest above' s).map (r.values w₀.nextDescriptor) =
    ((leaf.nearest above s).map (l.values w₀.nextDescriptor)).map
      (·.renamed (l.renumberBy φ r w₀.nextDescriptor)) := by
  rw [nearest s]
  cases isNearest : leaf.nearest above s with
  | none => rfl
  | some k =>
    have claimed : k ∈ Chore.claims (l.chores []) := by
      rw [left, Chore.claims_append]
      exact List.mem_append_left _ (onLeft.claimed left isNearest)
    exact congrArg some (carries.values _ names claimed)

end Carries

end Wiring

/-! ## Two walks -/

/-- Two systems in which the same files can be opened and the same programs started. -/
structure World.Resembles (w w' : World) : Prop where
  files : w'.files = w.files
  directories : w'.directories = w.directories
  denied : w'.denied = w.denied
  programs : w'.programs = w.programs
  memory : w'.memory = w.memory
  processes : w'.processes.length = w.processes.length

namespace World

theorem resembles_written (w : World) (line : LogLine) : w.Resembles (w.written line) := ⟨rfl, rfl, rfl, rfl, rfl, rfl⟩

theorem resembles_emit (w : World) (e : Event) : w.Resembles (w.emit e) := ⟨rfl, rfl, rfl, rfl, rfl, rfl⟩

theorem resembles_addPipe (w : World) : w.Resembles w.addPipe := ⟨rfl, rfl, rfl, rfl, rfl, rfl⟩

theorem resembles_addOpening (w : World) (name : Text) (mode : FileMode) : w.Resembles (w.addOpening name mode) :=
  ⟨rfl, rfl, rfl, rfl, rfl, rfl⟩

end World

/-- Whether a process can be started depends on its program, and on whether its streams are open. Its number depends
on how many there are. -/
theorem Sim.map_pid_prepare {w w' : World} {r r' : StartRequest} (program : findProgram w' r' = findProgram w r)
    (stdin : (childChannel? w' .hostInput r'.stdin).isSome = (childChannel? w .hostInput r.stdin).isSome)
    (stdout : (childChannel? w' .hostOutput r'.stdout).isSome = (childChannel? w .hostOutput r.stdout).isSome)
    (stderr : (childChannel? w' .hostError r'.stderr).isSome = (childChannel? w .hostError r.stderr).isSome) :
    (prepare w' r').map Process.pid = (prepare w r).map fun _ => 1001 + w'.processes.length := by
  unfold prepare
  rw [program]
  cases findProgram w r with
  | error e => rfl
  | ok program =>
    cases a : childChannel? w .hostInput r.stdin <;> cases a' : childChannel? w' .hostInput r'.stdin <;>
      simp only [a, a', Option.isSome_some, Option.isSome_none, reduceCtorEq] at stdin
    · rfl
    cases b : childChannel? w .hostOutput r.stdout <;> cases b' : childChannel? w' .hostOutput r'.stdout <;>
      simp only [b, b', Option.isSome_some, Option.isSome_none, reduceCtorEq] at stdout
    · rfl
    cases c : childChannel? w .hostError r.stderr <;> cases c' : childChannel? w' .hostError r'.stderr <;>
      simp only [c, c', Option.isSome_some, Option.isSome_none, reduceCtorEq] at stderr
    · rfl
    · rfl

namespace World.Resembles

variable {w w' : World} (resembles : w.Resembles w')
include resembles

theorem symm : w'.Resembles w :=
  ⟨resembles.files.symm, resembles.directories.symm, resembles.denied.symm, resembles.programs.symm,
    resembles.memory.symm, resembles.processes.symm⟩

theorem trans {w'' : World} (next : w'.Resembles w'') : w.Resembles w'' :=
  ⟨next.files.trans resembles.files, next.directories.trans resembles.directories,
    next.denied.trans resembles.denied, next.programs.trans resembles.programs, next.memory.trans resembles.memory,
    next.processes.trans resembles.processes⟩

/-- Whatever is done to the one and to the other that makes no difference. -/
theorem between {w₁ w₁' : World} (left : w.Resembles w₁) (right : w'.Resembles w₁') : w₁.Resembles w₁' :=
  (left.symm.trans resembles).trans right

theorem file? (name : Text) : w'.file? name = w.file? name := by rw [World.file?, World.file?, resembles.files]

theorem openError? (name : Text) (mode : FileMode) : Sim.openError? w' name mode = Sim.openError? w name mode := by
  rw [Sim.openError?, Sim.openError?, resembles.denied, resembles.directories, resembles.file?]

private theorem putFile (name : Text) (b : Bytes) : (w.putFile name b).Resembles (w'.putFile name b) := by
  obtain ⟨files, directories, denied, programs, memory, processes⟩ := resembles
  unfold World.putFile
  rw [files]
  split <;> exact ⟨rfl, directories, denied, programs, memory, processes⟩

theorem readyFile (name : Text) (mode : FileMode) : (w.readyFile name mode).Resembles (w'.readyFile name mode) := by
  cases mode with
  | read => exact resembles
  | write => exact resembles.putFile name []
  | append =>
    rw [World.readyFile, World.readyFile, resembles.file?]
    exact resembles.putFile name _

theorem findProgram {r r' : Sim.StartRequest} (args : r'.args = r.args) (directory : r'.directory = r.directory) :
    Sim.findProgram w' r' = Sim.findProgram w r := by
  rw [Sim.findProgram, Sim.findProgram, args, directory, resembles.directories, resembles.programs]

theorem addProcess (p p' : Process) (r r' : Sim.StartRequest) :
    (w.addProcess p r).Resembles (w'.addProcess p' r') := by
  refine ⟨resembles.files, resembles.directories, resembles.denied, resembles.programs, resembles.memory, ?_⟩
  change (w'.processes ++ [p']).length = (w.processes ++ [p]).length
  rw [List.length_append, List.length_append, resembles.processes]
  rfl

/-- The same process can be started if its program is the same, and its streams are open in both or in none. -/
theorem prepare (r r' : Sim.StartRequest) (args : r'.args = r.args) (directory : r'.directory = r.directory)
    (stdin : (Sim.childChannel? w' .hostInput r'.stdin).isSome = (Sim.childChannel? w .hostInput r.stdin).isSome)
    (stdout : (Sim.childChannel? w' .hostOutput r'.stdout).isSome = (Sim.childChannel? w .hostOutput r.stdout).isSome)
    (stderr : (Sim.childChannel? w' .hostError r'.stderr).isSome = (Sim.childChannel? w .hostError r.stderr).isSome) :
    (Sim.prepare w' r').map Process.pid = (Sim.prepare w r).map Process.pid := by
  have here : (Sim.prepare w r).map Process.pid = (Sim.prepare w r).map fun _ => 1001 + w.processes.length :=
    Sim.map_pid_prepare rfl rfl rfl rfl
  rw [Sim.map_pid_prepare (resembles.findProgram args directory) stdin stdout stderr, resembles.processes, here]

end World.Resembles

/-- A command that is started on streams of other numbers. -/
theorem Chore.contextOf_renamed {value value' : Claim → Descriptor} {claim claim' : Stream → Option Claim} {ρ : Nat → Nat}
    (same : ∀ s, (claim' s).map value' = ((claim s).map value).map (·.renamed ρ)) (command : Command) {p p' : Process}
    (pid : p'.pid = p.pid) : spawnedEvent command (contextOf value' claim') p' =
      (spawnedEvent command (contextOf value claim) p).renamed ρ := by
  rw [spawnedEvent, spawnedEvent, Event.renamed, pid]
  simp only [contextOf, same]

/-- The same try to start a command, but for the numbers of descriptors. -/
structure Start.Peer (ρ : Nat → Nat) (value value' : Claim → Descriptor) (s s' : Start) : Prop where
  command : s'.command = s.command
  result : s'.result.map Process.pid = s.result.map Process.pid
  event : s'.event value' = (s.event value).renamed ρ

namespace Start.Peer

variable {ρ : Nat → Nat} {value value' : Claim → Descriptor} {s s' : Start} (peer : Peer ρ value value' s s')
include peer

/-- The same process is kept, if one was started. -/
theorem entry? : s'.entry? = s.entry? := by
  obtain ⟨command, result, -⟩ := peer
  rw [Start.entry?, Start.entry?, process?, process?, command]
  cases ran : s.result <;> cases ran' : s'.result <;> rw [ran, ran'] at result <;>
    first | rfl | exact congrArg (fun pid => some (s.command, pid)) (Except.ok.inj result) | cases result

/-- The same failure is kept, if none was started. -/
theorem failure? : s'.failure? = s.failure? := by
  obtain ⟨command, result, -⟩ := peer
  rw [Start.failure?, Start.failure?, command]
  cases ran : s.result <;> cases ran' : s'.result <;> rw [ran, ran'] at result <;>
    first | rfl | cases result; rfl | cases result

end Start.Peer

section Peers

variable {ρ : Nat → Nat} {value value' : Claim → Descriptor} {starts starts' : List Start}
variable (peers : List.Forall₂ (Start.Peer ρ value value') starts starts')
include peers

/-- What the wiring keeps of peers is the same. -/
theorem Start.filterMap_peers {α : Type} {f : Start → Option α}
    (same : ∀ s s', Start.Peer ρ value value' s s' → f s' = f s) : starts'.filterMap f = starts.filterMap f := by
  induction peers with
  | nil => rfl
  | cons peer later ih => rw [List.filterMap_cons, List.filterMap_cons, same _ _ peer, ih]

theorem Start.map_event_peers :
    starts'.map (Start.event value') = (starts.map (Start.event value)).map (Event.renamed ρ) := by
  induction peers with
  | nil => rfl
  | cons peer later ih => rw [List.map_cons, List.map_cons, List.map_cons, peer.event, ih]

end Peers

/-- The same try to start a command, but for the numbers of descriptors and of the leaf. -/
structure Start.Twin (ρ : Nat → Nat) (value value' : Claim → Descriptor) (s s' : Start) : Prop where
  leaf : s.leaf.Alike s'.leaf
  command : s'.command = s.command
  result : s'.result.map Process.pid = s.result.map Process.pid
  event : s'.event value' = (s.event value).renamed ρ

theorem Start.Twin.peer {ρ : Nat → Nat} {value value' : Claim → Descriptor} {s s' : Start}
    (twin : Twin ρ value value' s s') : Peer ρ value value' s s' := ⟨twin.command, twin.result, twin.event⟩

namespace Wiring

/-- A moment of a walk. -/
structure Moment where
  done : List Chore
  wiring : Wiring
  world : World
  events : List Event
  starts : List Start

/-- Two walks in one system that have come equally far. -/
structure Abreast (l r : Graph) (settings : StartSettings) (w₀ : World) (x y : Moment) : Prop where
  left : Progress (l.values w₀.nextDescriptor) settings w₀ x.world x.done x.wiring x.events x.starts
  right : Progress (r.values w₀.nextDescriptor) settings w₀ y.world y.done y.wiring y.events y.starts
  resembles : x.world.Resembles y.world
  twins : List.Forall₂ (Start.Twin (l.renumber r w₀.nextDescriptor) (l.values w₀.nextDescriptor)
    (r.values w₀.nextDescriptor)) x.starts y.starts

/-- What it comes to when two walks do some chores more: both do all of them, or both fail, for the same reason. -/
inductive Together (l r : Graph) (settings : StartSettings) (w₀ : World) (chores chores' : List Chore)
    (x y : Moment) : Prop
  | finished (x' y' : Moment)
    (ranLeft : (Chore.performAll (l.values w₀.nextDescriptor) chores).exec x.wiring x.world =
      (.ok (), x'.wiring, x'.world))
    (ranRight : (Chore.performAll (r.values w₀.nextDescriptor) chores').exec y.wiring y.world =
      (.ok (), y'.wiring, y'.world))
    (doneLeft : x'.done = x.done ++ chores) (doneRight : y'.done = y.done ++ chores')
    (abreast : Abreast l r settings w₀ x' y')
  | failed (x' y' : Moment) {e : Failure} (noSpawn : ∀ failures, e ≠ .spawn failures)
    (ranLeft : (Chore.performAll (l.values w₀.nextDescriptor) chores).exec x.wiring x.world =
      (.error e, x'.wiring, x'.world))
    (ranRight : (Chore.performAll (r.values w₀.nextDescriptor) chores').exec y.wiring y.world =
      (.error e, y'.wiring, y'.world))
    (abreast : Abreast l r settings w₀ x' y')

variable {l r : Graph} {settings : StartSettings} {w₀ : World} {x y : Moment}
variable {chores chores' more more' rest rest' : List Chore} {c c' : Chore}

/-- First some chores, and then others. -/
theorem Together.append (first : Together l r settings w₀ chores chores' x y)
    (second : ∀ x' y', x'.done = x.done ++ chores → y'.done = y.done ++ chores' →
      Abreast l r settings w₀ x' y' → Together l r settings w₀ more more' x' y') :
    Together l r settings w₀ (chores ++ more) (chores' ++ more') x y := by
  cases first with
  | finished x' y' ranLeft ranRight doneLeft doneRight abreast =>
    cases second x' y' doneLeft doneRight abreast with
    | finished _ _ ranLeft' ranRight' doneLeft' doneRight' abreast' =>
      refine .finished _ _ ?_ ?_ ?_ ?_ abreast'
      · rw [Chore.performAll_append, ranLeft]
        exact ranLeft'
      · rw [Chore.performAll_append, ranRight]
        exact ranRight'
      · rw [doneLeft', doneLeft, List.append_assoc]
      · rw [doneRight', doneRight, List.append_assoc]
    | failed _ _ noSpawn ranLeft' ranRight' abreast' =>
      refine .failed _ _ noSpawn ?_ ?_ abreast'
      · rw [Chore.performAll_append, ranLeft]
        exact ranLeft'
      · rw [Chore.performAll_append, ranRight]
        exact ranRight'
  | failed _ _ noSpawn ranLeft ranRight abreast =>
    refine .failed _ _ noSpawn ?_ ?_ abreast
    · rw [Chore.performAll_append, ranLeft]
    · rw [Chore.performAll_append, ranRight]

/-- Two chores that have the same outcome, and start the same if they can be done. -/
structure Matches (l r : Graph) (w₀ : World) (c c' : Chore) (x y : Moment) : Prop where
  outcome : ((c'.perform (r.values w₀.nextDescriptor)).exec y.wiring y.world).1 =
    ((c.perform (l.values w₀.nextDescriptor)).exec x.wiring x.world).1
  noSpawn : ∀ failures,
    ((c.perform (l.values w₀.nextDescriptor)).exec x.wiring x.world).1 ≠ .error (.spawn failures)
  resembles : ((c.perform (l.values w₀.nextDescriptor)).exec x.wiring x.world).2.2.Resembles
    ((c'.perform (r.values w₀.nextDescriptor)).exec y.wiring y.world).2.2
  tries : ((c.perform (l.values w₀.nextDescriptor)).exec x.wiring x.world).1 = .ok () →
    List.Forall₂ (Start.Twin (l.renumber r w₀.nextDescriptor) (l.values w₀.nextDescriptor)
      (r.values w₀.nextDescriptor)) (c.tries (l.values w₀.nextDescriptor) x.wiring x.world)
      (c'.tries (r.values w₀.nextDescriptor) y.wiring y.world)

theorem performAll_single (value : Claim → Descriptor) (c : Chore) (σ : Wiring) (w : World) :
    (Chore.performAll value [c]).exec σ w = (c.perform value).exec σ w := by
  rw [Chore.performAll, Owning.exec_bind]
  cases (c.perform value).exec σ w with
  | mk outcome after => cases outcome <;> rfl

/-- Two chores that match keep two walks side by side. -/
theorem Abreast.advance (abreast : Abreast l r settings w₀ x y) (left : l.chores [] = x.done ++ c :: rest)
    (right : r.chores [] = y.done ++ c' :: rest') (matching : Matches l r w₀ c c' x y) :
    Together l r settings w₀ [c] [c'] x y := by
  obtain ⟨isLeft, isRight, -, twins⟩ := abreast
  have fit := isLeft.fit left
  have fit' := isRight.fit right
  rw [← List.singleton_append, Chore.makings_append] at fit fit'
  obtain ⟨outcome, noSpawn, resembles, tries⟩ := matching
  obtain ⟨events, effect⟩ := Chore.perform_effect (l.values w₀.nextDescriptor) c x.wiring x.world
  obtain ⟨events', effect'⟩ := Chore.perform_effect (r.values w₀.nextDescriptor) c' y.wiring y.world
  generalize ran : (c.perform (l.values w₀.nextDescriptor)).exec x.wiring x.world = result
    at outcome noSpawn resembles tries effect
  generalize ran' : (c'.perform (r.values w₀.nextDescriptor)).exec y.wiring y.world = result'
    at outcome resembles effect'
  obtain ⟨verdict, σ₁, w₁⟩ := result
  obtain ⟨verdict', σ₂, w₂⟩ := result'
  dsimp only at outcome
  subst outcome
  rw [← performAll_single] at ran ran'
  cases verdict' with
  | ok _ =>
    exact .finished ⟨_, σ₁, w₁, _, _⟩ ⟨_, σ₂, w₂, _, _⟩ ran ran' rfl rfl
      ⟨isLeft.step fit.left effect, isRight.step fit'.left effect', resembles, List.rel_append twins (tries rfl)⟩
  | error e =>
    exact .failed ⟨_, σ₁, w₁, _, _⟩ ⟨_, σ₂, w₂, _, _⟩
      (fun failures same => noSpawn failures (congrArg Except.error same)) ran ran'
      ⟨isLeft.stop effect, isRight.stop effect', resembles, twins⟩

end Wiring

end Pipework
