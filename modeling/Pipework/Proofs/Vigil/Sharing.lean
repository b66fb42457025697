import Mathlib.Data.List.Basic
import Pipework.Proofs.Pump.Writes
import Pipework.Proofs.Vigil.Waiting

/-!
# Drains that share an object

Several drains may put what they read into one object. Every write is one step, and each drain has a pipe and a
decoder of its own; so at any time the object has taken the writes of all of them in some order, in which those of
each drain are what it would have written alone (`Vigil.Shared`).
-/

namespace Pipework

/-! ## Interleavings -/

/-- A list is made up of two others, each in its own order. -/
inductive Interleaves {α : Type} : List α → List α → List α → Prop where
  | nil : Interleaves [] [] []
  | left {a b c : List α} (x : α) (rest : Interleaves a b c) : Interleaves (x :: a) b (x :: c)
  | right {a b c : List α} (x : α) (rest : Interleaves a b c) : Interleaves a (x :: b) (x :: c)

/-- What comes from a pipe in a log that tells for everything the pipe that it comes from. -/
def ofPipe {α : Type} (pipe : Nat) (log : List (Nat × α)) : List α :=
  log.filterMap fun a => if a.1 = pipe then some a.2 else none

/-- The chunks that have been put into buffers out of a pipe, in order. -/
def chunksFrom (pipe : Nat) (puts : List Put) : List Bytes :=
  ofPipe pipe (puts.map fun x => (x.pipe, x.chunk))

section Logs

variable {α : Type} {pipe pipe' : Nat}

@[simp] theorem ofPipe_append (pipe : Nat) (a b : List (Nat × α)) :
    ofPipe pipe (a ++ b) = ofPipe pipe a ++ ofPipe pipe b := List.filterMap_append

theorem ofPipe_of_all {log : List (Nat × α)} (all : ∀ a ∈ log, a.1 = pipe) : ofPipe pipe log = log.map Prod.snd := by
  rw [ofPipe, ← List.filterMap_eq_map]
  exact List.filterMap_congr fun a member => if_pos (all a member)

theorem ofPipe_of_none {log : List (Nat × α)} (none : ∀ a ∈ log, a.1 ≠ pipe) : ofPipe pipe log = [] :=
  List.filterMap_eq_nil_iff.mpr fun a member => if_neg (none a member)

/-- What comes from two pipes is made up of what comes from each. -/
theorem interleaves_ofPipe {log : List (Nat × α)} (different : pipe ≠ pipe')
    (two : ∀ a ∈ log, a.1 = pipe ∨ a.1 = pipe') :
    Interleaves (ofPipe pipe log) (ofPipe pipe' log) (log.map Prod.snd) := by
  induction log with
  | nil => exact .nil
  | cons a rest ih =>
    have later := ih fun b member => two b (List.mem_cons_of_mem _ member)
    rcases two a List.mem_cons_self with rfl | rfl
    · simpa [ofPipe, different] using later.left a.2
    · simpa [ofPipe, Ne.symm different] using later.right a.2

@[simp] theorem chunksFrom_append (pipe : Nat) (a b : List Put) :
    chunksFrom pipe (a ++ b) = chunksFrom pipe a ++ chunksFrom pipe b := by
  rw [chunksFrom, List.map_append, ofPipe_append]
  rfl

theorem flatten_chunksFrom (pipe : Nat) (puts : List Put) : (chunksFrom pipe puts).flatten = drawnFrom pipe puts := by
  induction puts with
  | nil => rfl
  | cons x rest ih =>
    by_cases mine : x.pipe = pipe <;> simp_all [chunksFrom, ofPipe, drawnFrom]

end Logs

/-- All that a thread which feeds does is to come to its end. -/
theorem Strand.Step.feeding {t t' : Strand} {w w' : World} {puts : List Put} (step : t.Step w w' t' puts)
    (feeding : t.task = .feeding) : w' = w ∧ puts = [] ∧ ∃ outcome, t'.task = .done outcome := by
  cases step with
  | feeds task outcome moved => exact ⟨rfl, rfl, outcome, rfl⟩
  | reads task | fails task | ends task | puts task | refused task | closes task | finishes task =>
    exact nomatch task.symm.trans feeding

namespace Strand

variable {t t' : Strand} {w w' : World} {puts : List Put} {i : Inflow} {pipe : Nat}

/-- A drain puts nothing into its buffer but what comes from its pipe. -/
theorem Effect.chunksFrom_mine (effect : t.Effect w w' t' puts) (inflow : t.inflow = some i) :
    chunksFrom i.pipe puts = puts.map Put.chunk := by
  rw [chunksFrom, ofPipe_of_all, List.map_map]
  · rfl
  · rintro _ member
    obtain ⟨x, isPut, rfl⟩ := List.mem_map.mp member
    have logged := congrArg Prod.fst (effect.logged x isPut)
    rw [Strand.ends, inflow] at logged
    exact Option.some.inj logged

theorem Effect.chunksFrom_other (effect : t.Effect w w' t' puts) (other : t.ends.1 ≠ some pipe) :
    chunksFrom pipe puts = [] := by
  refine ofPipe_of_none fun _ member same => other ?_
  obtain ⟨x, isPut, rfl⟩ := List.mem_map.mp member
  rw [← effect.logged x isPut, ← same]

end Strand

namespace Vigil

variable {v v' : Vigil} {w₀ w w' : World} {ref : ObjectRef} {x y : Cell} {log : List (Nat × Chunk)} {t t' : Strand}
  {number : Nat} {puts : List Put} {new : List (Nat × Chunk)}

/-- An object that is drained into under one reference only. -/
def Knows (v : Vigil) (ref : ObjectRef) : Prop :=
  ∀ x ∈ v.strands.map Strand.ends, x.1.isSome → ∀ other, x.2 = .object other → other.id = ref.id → other = ref

/-- An object has taken all the writes of a log since it held a cell, and those from the pipe of a drain that has not
failed are what its chunks come to. -/
structure Shared (ref : ObjectRef) (x : Cell) (v : Vigil) (log : List (Nat × Chunk)) : Prop where
  held : ∃ y, v.world.memory.get? ref = some y ∧ x.TookEach (log.map Prod.snd) y
  known : ∀ a ∈ log, (some a.1, Buffer.object ref) ∈ v.strands.map Strand.ends
  /-- Without a pipe a thread does nothing but feed. -/
  feeds : ∀ t ∈ v.strands, t.inflow = none → t.task = .feeding ∨ ∃ outcome, t.task = .done outcome
  told : ∀ (number : Nat) (t : Strand) (i : Inflow), v.strands[number]? = some t → t.inflow = some i →
    t.pump.buffer = .object ref → t.Unfailed → t.Told ref.kind (chunksFrom i.pipe v.puts) (ofPipe i.pipe log)

theorem Shared.feeding (shared : v.Shared ref x log) (member : t ∈ v.strands) (noInflow : t.inflow = none)
    (step : t.Step w w' t' puts) : t.task = .feeding :=
  (shared.feeds t member noInflow).resolve_right fun ⟨outcome, finished⟩ => step.unfinished outcome finished

/-- Something happens around the threads, or one of them does something. -/
theorem Step.around_or_thread (step : Step v v') :
    (v'.strands = v.strands ∧ v'.puts = v.puts) ∨
      ∃ number t t' w puts, v.strands[number]? = some t ∧ t.Step v.world w t' puts ∧
        v' = { v with world := w, strands := v.strands.set number t', puts := v.puts ++ puts } := by
  cases step with
  | thread there step => exact .inr ⟨_, _, _, _, _, there, step, rfl⟩
  | _ => exact .inl ⟨rfl, rfl⟩

/-- What a step of a thread writes into an object that held a cell. -/
structure Contributes (ref : ObjectRef) (y : Cell) (w : World) (t t' : Strand) (puts : List Put)
    (new : List (Nat × Chunk)) : Prop where
  held : ∃ z, w.memory.get? ref = some z ∧ y.TookEach (new.map Prod.snd) z
  mine : ∀ a ∈ new, t.ends = (some a.1, .object ref)
  told : ∀ i, t.inflow = some i → t.pump.buffer = .object ref →
    t.Adds t' ref.kind (chunksFrom i.pipe puts) (ofPipe i.pipe new)

/-- A thread that does not drain into the object writes nothing there. -/
private theorem Contributes.nothing (same : w.memory.get? ref = some y) (nothing : y.TookEach [] y)
    (other : ∀ i, t.inflow = some i → t.pump.buffer ≠ .object ref) : Contributes ref y w t t' puts [] where
  held := ⟨y, same, nothing⟩
  mine _ member := nomatch member
  told i inflow buffer := absurd buffer (other i inflow)

theorem Shared.contributes (shared : v.Shared ref x log) (sound : v.Sound w₀) (one : v.Knows ref)
    (takes : ref.kind.TakesBytes ∨ ref.kind.TakesText) (here : v.world.memory.get? ref = some y)
    (same : y.kind = ref.kind) (there : v.strands[number]? = some t) (step : t.Step v.world w t' puts) :
    ∃ new, Contributes ref y w t t' puts new := by
  have nothing : y.TookEach [] y := .nothing (same ▸ takes)
  have member := List.mem_of_getElem? there
  cases inflow : t.inflow with
  | none =>
    obtain ⟨rfl, -, -⟩ := step.feeding (shared.feeding member inflow step)
    exact ⟨[], .nothing here nothing fun i inflow' => nomatch inflow.symm.trans inflow'⟩
  | some i =>
    by_cases buffer : t.pump.buffer = .object ref
    · obtain ⟨more, z, after, took, adds⟩ :=
        step.writes (sound.strand number t i there inflow).drains buffer takes here same
      have all : ofPipe i.pipe (more.map (Prod.mk i.pipe)) = more := by
        rw [ofPipe_of_all (by simp), List.map_map]
        exact List.map_id more
      refine ⟨more.map (Prod.mk i.pipe), ⟨z, after, ?_⟩, fun a isNew => ?_, ?_⟩
      · rw [List.map_map]
        simpa [Function.comp_def] using took
      · obtain ⟨c, -, rfl⟩ := List.mem_map.mp isNew
        rw [Strand.ends, inflow, buffer]
        rfl
      · rintro j inflow' -
        cases inflow.symm.trans inflow'
        rwa [step.effect.chunksFrom_mine inflow, all]
    · refine ⟨[], .nothing ?_ nothing fun _ _ => buffer⟩
      rw [step.effect.others ref fun other isBuffer sameId => ?_, here]
      have ends : t.ends ∈ v.strands.map Strand.ends := List.mem_map_of_mem member
      obtain rfl := one t.ends ends (by rw [Strand.ends, inflow]; rfl) other isBuffer sameId.symm
      exact buffer isBuffer

/-- A step of a thread adds what it writes to the log. -/
theorem Shared.thread (shared : v.Shared ref x log) (sound : v.Sound w₀) (one : v.Knows ref)
    (takes : ref.kind.TakesBytes ∨ ref.kind.TakesText) (same : x.kind = ref.kind)
    (there : v.strands[number]? = some t) (step : t.Step v.world w t' puts) : ∃ new,
      Shared ref x { v with world := w, strands := v.strands.set number t', puts := v.puts ++ puts } (log ++ new) := by
  obtain ⟨y, here, took⟩ := shared.held
  obtain ⟨new, ⟨z, after, took'⟩, mine, adds⟩ :=
    shared.contributes sound one takes here (took.kind.trans same) there step
  have member := List.mem_of_getElem? there
  have ends := (Step.thread there step).sameEnds.ends
  refine ⟨new, ⟨z, after, ?_⟩, fun a isLogged => ?_, fun u isStrand noInflow => ?_, ?_⟩
  · rw [List.map_append]
    exact took.append took'
  · rw [ends]
    rcases List.mem_append.mp isLogged with earlier | now
    · exact shared.known a earlier
    · rw [← mine a now]
      exact List.mem_map_of_mem member
  · rcases List.mem_or_eq_of_mem_set isStrand with before | rfl
    · exact shared.feeds u before noInflow
    · have drains := congrArg Prod.fst step.effect.ends
      rw [Strand.ends, Strand.ends, noInflow] at drains
      exact .inr (step.feeding (shared.feeding member (Option.map_eq_none_iff.mp drains.symm) step)).2.2
  · intro other u j isStrand inflow buffer fine
    rw [chunksFrom_append, ofPipe_append]
    rcases getElem?_set_cases isStrand with ⟨rfl, rfl⟩ | ⟨different, isStrand⟩
    · have drains := congrArg Prod.fst step.effect.ends
      rw [Strand.ends, Strand.ends, inflow] at drains
      obtain ⟨i, inflow', pipe⟩ := Option.map_eq_some_iff.mp drains.symm
      have buffer' : t.pump.buffer = .object ref := (congrArg Prod.snd step.effect.ends).symm.trans buffer
      obtain ⟨unfailed, further⟩ := adds i inflow' buffer' fine
      rw [← pipe]
      exact further _ _ (shared.told _ t i there inflow' buffer' unfailed)
    · have notMine := sound.other there isStrand different (by rw [Strand.ends, inflow]; rfl)
      have none : ofPipe j.pipe new = [] := ofPipe_of_none fun a isNew pipe => notMine (by rw [mine a isNew, pipe])
      rw [step.effect.chunksFrom_other notMine, none, List.append_nil, List.append_nil]
      exact shared.told other u j isStrand inflow buffer fine

/-- Whatever happens, the object has taken the writes of a log. -/
theorem Guarded.shared (guarded : Guarded v v') (shared : v.Shared ref x log) (sound : v.Sound w₀) (one : v.Knows ref)
    (fills : v.Fills ref.id) (takes : ref.kind.TakesBytes ∨ ref.kind.TakesText) (same : x.kind = ref.kind) :
    ∃ new, v'.Shared ref x (log ++ new) := by
  obtain ⟨happens, untouched⟩ := guarded
  rcases happens.around_or_thread with ⟨strands, puts⟩ | ⟨number, t, t', w, puts, there, step, rfl⟩
  · refine ⟨[], ?_⟩
    rw [List.append_nil]
    exact
      { held := by rw [untouched strands ref fills]; exact shared.held
        known := by rw [strands]; exact shared.known
        feeds := by rw [strands]; exact shared.feeds
        told := by rw [strands, puts]; exact shared.told }
  · exact shared.thread sound one takes same there step

theorem GuardedRun.shared (run : GuardedRun v v') (shared : v.Shared ref x log) (sound : v.Sound w₀)
    (one : v.Knows ref) (fills : v.Fills ref.id) (takes : ref.kind.TakesBytes ∨ ref.kind.TakesText)
    (same : x.kind = ref.kind) : ∃ log', v'.Shared ref x log' := by
  have both : ∃ log', v'.Shared ref x log' ∧ v'.Sound w₀ := by
    induction run with
    | refl => exact ⟨log, shared, sound⟩
    | tail earlier guarded ih =>
      obtain ⟨log', shared, sound⟩ := ih
      have ends := GuardedRun.run earlier |>.sameEnds
      obtain ⟨new, later⟩ := guarded.shared shared sound (by rw [Knows, ends.ends]; exact one)
        (by rw [ends.fills]; exact fills) takes same
      exact ⟨_, later, guarded.1.sound sound⟩
  obtain ⟨log', shared', -⟩ := both
  exact ⟨log', shared'⟩

/-! ## When the drains have finished -/

/-- Two drains, told apart by their pipes, fill one object, and no other drain does. -/
structure SharedBy (v : Vigil) (ref : ObjectRef) (pipe pipe' : Nat) : Prop where
  different : pipe ≠ pipe'
  first : (some pipe, Buffer.object ref) ∈ v.strands.map Strand.ends
  second : (some pipe', Buffer.object ref) ∈ v.strands.map Strand.ends
  alone : ∀ x ∈ v.strands.map Strand.ends, x.1.isSome → ∀ other, x.2 = .object other → other.id = ref.id →
    x = (some pipe, .object ref) ∨ x = (some pipe', .object ref)

variable {pipe pipe' : Nat}

/-- No pump besides the two drains into anything. -/
theorem SharedBy.of_ends (different : pipe ≠ pipe')
    (ends : v.strands.map Strand.ends = [(some pipe, .object ref), (some pipe', .object ref)]) :
    v.SharedBy ref pipe pipe' where
  different := different
  first := by simp [ends]
  second := by simp [ends]
  alone x member _ _ _ _ := by simpa [ends] using member

theorem SharedBy.sameEnds (two : v.SharedBy ref pipe pipe') (same : v.SameEnds v') : v'.SharedBy ref pipe pipe' :=
  ⟨two.different, same.ends ▸ two.first, same.ends ▸ two.second, same.ends ▸ two.alone⟩

theorem SharedBy.fills (two : v.SharedBy ref pipe pipe') : v.Fills ref.id := ⟨_, two.first, rfl, ref, rfl, rfl⟩

theorem SharedBy.knows (two : v.SharedBy ref pipe pipe') : v.Knows ref := by
  intro x member drains other buffer same
  rcases two.alone x member drains other buffer same with rfl | rfl <;> exact (Buffer.object.inj buffer).symm

/-- What a drain that has come to its end has written, write by write: its chunks as they are, or the texts that they
come to, which together are the text of them all. Its chunks are all that its pipe has ever delivered, unless it may
read nothing at a time. -/
structure Delivered (v : Vigil) (w₀ : World) (ref : ObjectRef) (pipe : Nat) (t : Strand) (writes : List Chunk) :
    Prop where
  drain : t ∈ v.strands ∧ t.ends = (some pipe, .object ref)
  bytes : ref.kind.TakesBytes → writes = (chunksFrom pipe v.puts).map .bytes
  text : ref.kind.TakesText → ∃ coding texts,
    (chunksFrom pipe v.puts ≠ [] → t.pump.codingFor "lookup() argument" = .ok coding) ∧ writes = texts.map .text ∧
      texts = coding.transcript (chunksFrom pipe v.puts) ∧
      texts.flatten = coding.decodeReplacing (chunksFrom pipe v.puts).flatten
  whole : t.pump.settings.chunkSize ≠ some 0 →
    v.world.Ended pipe ∧ (chunksFrom pipe v.puts).flatten = w₀.content pipe ++ v.entered pipe

/-- An object has taken the writes of two drains in some order, those of each in their own. -/
def Merged (v : Vigil) (w₀ : World) (ref : ObjectRef) (x : Cell) (pipe pipe' : Nat) : Prop :=
  ∃ y writes a b t u, v.world.memory.get? ref = some y ∧ x.TookEach writes y ∧ Interleaves a b writes ∧
    v.Delivered w₀ ref pipe t a ∧ v.Delivered w₀ ref pipe' u b

theorem Shared.delivered (shared : v.Shared ref x log) (sound : v.Sound w₀)
    (drains : (some pipe, Buffer.object ref) ∈ v.strands.map Strand.ends)
    (finished : ∀ t ∈ v.strands, t.ends = (some pipe, .object ref) → t.task = .done (.ok ())) :
    ∃ t, v.Delivered w₀ ref pipe t (ofPipe pipe log) := by
  obtain ⟨t, member, ends⟩ := List.mem_map.mp drains
  obtain ⟨number, there⟩ := List.getElem?_of_mem member
  obtain ⟨i, inflow, rfl⟩ := Option.map_eq_some_iff.mp (congrArg Prod.fst ends)
  have done := finished t member ends
  have buffer : t.pump.buffer = .object ref := congrArg Prod.snd ends
  have unfailed : t.Unfailed := by simp [Strand.Unfailed, done, Task.outcome?]
  have told := (shared.told number t i there inflow buffer unfailed).complete done
  refine ⟨t, ⟨member, ends⟩, fun takes => ?_, fun takes => ?_, fun reads => ?_⟩
  · generalize ofPipe i.pipe log = writes at told
    cases told with
    | bytes => rfl
    | text text => exact absurd text takes.noText
  · generalize ofPipe i.pipe log = writes at told
    cases told with
    | bytes bytes => exact absurd takes bytes.noText
    | @text coding _ coded => exact ⟨coding, _, coded, rfl, rfl, coding.flatten_transcript _⟩
  · have ended := ((sound.strand number t i there inflow).ended (by rw [done]; rfl)).resolve_left reads
    exact ⟨ended, by rw [flatten_chunksFrom, sound.drawn there inflow done ended]⟩

/-- A drain that ignores nothing, and has finished without a failure to tell of, has not failed. -/
theorem Sound.fine (sound : v.Sound w₀) (member : t ∈ v.strands) (drains : t.ends.1 = some pipe)
    (finished : ∃ outcome, t.task = .done outcome) (quiet : t.pump.error = none)
    (strict : t.pump.settings.ignoresBrokenPipe = false) : t.task = .done (.ok ()) := by
  obtain ⟨number, there⟩ := List.getElem?_of_mem member
  obtain ⟨i, inflow, -⟩ := Option.map_eq_some_iff.mp drains
  obtain ⟨outcome, finished⟩ := finished
  cases outcome with
  | ok _ => exact finished
  | error e =>
    have ignored := ((sound.strand number t i there inflow).failed e finished quiet).2
    exact nomatch strict.symm.trans ignored

theorem Shared.merged (shared : v.Shared ref x log) (sound : v.Sound w₀) (two : v.SharedBy ref pipe pipe')
    (finished : ∀ t ∈ v.strands, t.ends = (some pipe, .object ref) ∨ t.ends = (some pipe', .object ref) →
      t.task = .done (.ok ())) : v.Merged w₀ ref x pipe pipe' := by
  obtain ⟨y, here, took⟩ := shared.held
  obtain ⟨t, first⟩ := shared.delivered sound two.first fun t member ends => finished t member (.inl ends)
  obtain ⟨u, second⟩ := shared.delivered sound two.second fun t member ends => finished t member (.inr ends)
  refine ⟨y, _, _, _, t, u, here, took, interleaves_ofPipe two.different fun a member => ?_, first, second⟩
  refine (two.alone _ (shared.known a member) rfl ref rfl rfl).imp (fun same => ?_) fun same => ?_
  all_goals exact Option.some.inj (congrArg Prod.fst same)

end Vigil

/-- The pumps of a vigil have the settings that they started with. -/
theorem Handle.settings_of_run {h : Handle} {w : World} {v : Vigil} {t : Strand} (run : Vigil.Run (h.vigil w) v)
    (member : t ∈ v.strands) : ∃ p ∈ h.pumps, p.settings = t.pump.settings := by
  have known : t.pump.settings ∈ (h.vigil w).strands.map (·.pump.settings) :=
    run.settings ▸ List.mem_map_of_mem member
  obtain ⟨u, isStrand, same⟩ := List.mem_map.mp known
  obtain ⟨p, isPump, rfl⟩ := List.mem_map.mp isStrand
  refine ⟨p, isPump, same ▸ ?_⟩
  unfold Pump.strand
  split <;> rfl

/-- Before anything is read, the object holds what it held. -/
theorem Handle.vigil_shared {h : Handle} {w : World} {ref : ObjectRef} {x : Cell}
    (fresh : ∀ p ∈ h.pumps, p.decoder = none) (here : w.memory.get? ref = some x) (same : x.kind = ref.kind)
    (takes : ref.kind.TakesBytes ∨ ref.kind.TakesText) : (h.vigil w).Shared ref x [] where
  held := ⟨x, here, .nothing (same ▸ takes)⟩
  known := nofun
  feeds t member noInflow := by
    obtain ⟨p, isPump, rfl⟩ := List.mem_map.mp member
    unfold Pump.strand at noInflow ⊢
    split at noInflow
    · cases noInflow
    · exact .inl rfl
  told number t i there inflow buffer fine := by
    obtain ⟨p, isPump, rfl⟩ := List.mem_map.mp (List.mem_of_getElem? there)
    refine .nothing takes ?_ ?_
    all_goals unfold Pump.strand at inflow ⊢
    all_goals split at inflow
    · simp
    · cases inflow
    · exact fresh p isPump
    · cases inflow

end Pipework
