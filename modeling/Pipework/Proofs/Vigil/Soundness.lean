import Pipework.Proofs.Vigil.Strands

/-!
# When a wait has returned

Whatever the schedule, nothing is lost on the way into the buffers (`Vigil.Sound`), and a wait looks at every
process and then at every pump (`Vigil.Advanced`). So when it has returned, every process has been reaped, and
every pump that it did not leave behind has finished with everything that its pipe will ever deliver
(`Vigil.Run.concluded`).
-/

namespace Pipework

open World (Ended Gains)

namespace Vigil

variable {v v' : Vigil} {w₀ : World} {number : Nat} {t u : Strand} {i : Inflow}

/-! ## What stays the same -/

/-- The pumps drain the same pipes into the same buffers, and the processes are the same. -/
structure SameEnds (v v' : Vigil) : Prop where
  ends : v'.strands.map Strand.ends = v.strands.map Strand.ends
  pids : v'.pids = v.pids

/-- One of several is replaced. -/
theorem getElem?_set_cases {α : Type} {l : List α} {number other : Nat} {a b : α}
    (there : (l.set number a)[other]? = some b) :
    other = number ∧ b = a ∨ other ≠ number ∧ l[other]? = some b := by
  by_cases here : other = number
  · subst here
    obtain ⟨inRange, same⟩ := List.getElem?_eq_some_iff.mp there
    rw [List.getElem_set_self] at same
    exact .inl ⟨rfl, same.symm⟩
  · rw [List.getElem?_set_ne (Ne.symm here)] at there
    exact .inr ⟨here, there⟩

/-- What no step of a thread changes about it stays the same for all of them. -/
theorem Step.map_strands {α : Type} {f : Strand → α} (step : Step v v')
    (keeps : ∀ {t t' : Strand} {w w' : World} {puts : List Put}, t.Step w w' t' puts → f t' = f t) :
    v'.strands.map f = v.strands.map f := by
  cases step with
  | @thread number t t' w puts there step =>
    obtain ⟨inRange, same⟩ := List.getElem?_eq_some_iff.mp there
    rw [List.map_set, keeps step, ← same, ← List.getElem_map f, List.set_getElem_self]
    rwa [List.length_map]
  | _ => rfl

theorem Step.sameEnds (step : Step v v') : v.SameEnds v' := by
  refine ⟨step.map_strands fun step => step.effect.ends, ?_⟩
  cases step <;> rfl

/-- A guarded schedule is one of all schedules. -/
theorem GuardedRun.run (run : GuardedRun v v') : Run v v' :=
  Relation.ReflTransGen.mono (fun _ _ => And.left) _ _ run

theorem Run.sameEnds (run : Run v v') : v.SameEnds v' := by
  induction run with
  | refl => exact ⟨rfl, rfl⟩
  | tail _ step ih => exact ⟨step.sameEnds.ends.trans ih.ends, step.sameEnds.pids.trans ih.pids⟩

theorem Run.settings (run : Run v v') :
    v'.strands.map (·.pump.settings) = v.strands.map (·.pump.settings) := by
  induction run with
  | refl => rfl
  | tail _ step ih => exact (step.map_strands fun step => step.effect.settings).trans ih

theorem SameEnds.owns (same : v.SameEnds v') : v'.Owns = v.Owns := by
  funext pipe
  rw [Owns, Owns, same.ends]

theorem SameEnds.fills (same : v.SameEnds v') : v'.Fills = v.Fills := by
  funext id
  rw [Fills, Fills, same.ends]

/-- A pipe that a pump drains is one of those that are drained. -/
theorem owns_of_inflow (there : v.strands[number]? = some t) (inflow : t.inflow = some i) :
    v.Owns i.pipe :=
  ⟨t.ends, List.mem_map_of_mem (List.mem_of_getElem? there), by rw [Strand.ends, inflow]; rfl⟩

/-! ## Bytes -/

/-- What holds all along a run: the drains have different pipes, nothing of what comes to them is lost, and the
byte arrays hold what was put into them. -/
structure Sound (w₀ : World) (v : Vigil) : Prop where
  apart : (v.strands.map Strand.ends).Pairwise fun x y => ∀ pipe, x.1 = some pipe → y.1 ≠ some pipe
  strand : ∀ (number : Nat) (t : Strand) (i : Inflow), v.strands[number]? = some t → t.inflow = some i →
    t.Sound w₀ v.world v.entries (drawnFrom i.pipe v.puts) i
  logged : ∀ x ∈ v.puts, (some x.pipe, x.buffer) ∈ v.strands.map Strand.ends
  arrays : ∀ id b, v.Fills id → w₀.memory.array? id = some b →
    v.world.memory.array? id = some (b ++ putInto id v.puts)

/-- No other pump drains the pipe of a pump. -/
theorem Sound.other (sound : v.Sound w₀) {other pipe : Nat} (there : v.strands[number]? = some t)
    (elsewhere : v.strands[other]? = some u) (different : other ≠ number) (drains : u.ends.1 = some pipe) :
    t.ends.1 ≠ some pipe := by
  intro same
  obtain ⟨inRange, rfl⟩ := List.getElem?_eq_some_iff.mp there
  obtain ⟨inRange', rfl⟩ := List.getElem?_eq_some_iff.mp elsewhere
  have apart := List.pairwise_iff_getElem.mp sound.apart
  simp only [List.getElem_map, List.length_map] at apart
  rcases Nat.lt_or_gt_of_ne different with before | after
  · exact apart other number inRange' inRange before pipe drains same
  · exact apart number other inRange inRange' after pipe same drains

/-- Every drain stays sound. -/
theorem Step.strand (step : Step v v') (sound : v.Sound w₀) :
    ∀ (number : Nat) (t : Strand) (i : Inflow), v'.strands[number]? = some t → t.inflow = some i →
      t.Sound w₀ v'.world v'.entries (drawnFrom i.pipe v'.puts) i := by
  have quiet {w : World} (gains : ∀ pipe, v.Owns pipe → Gains pipe [] v.world w) :
      ∀ (number : Nat) (t : Strand) (i : Inflow), v.strands[number]? = some t → t.inflow = some i →
        t.Sound w₀ w v.entries (drawnFrom i.pipe v.puts) i := fun number t i there inflow =>
    (sound.strand number t i there inflow).quiet (gains i.pipe (owns_of_inflow there inflow))
  cases step with
  | acts acts =>
    intro number t i there inflow
    have mine := sound.strand number t i there inflow
    exact mine.gains (acts.gains mine.inflow.exclusive.processes) fun noWriter =>
      acts.silent (World.holders_eq_zero_iff.mp (World.hasWriter_eq_false_iff.mp noWriter)).2
  | elsewhere apart untouched => exact quiet fun pipe owns => apart.gains owns
  | @thread number t t' w puts there step =>
    intro other u i isStrand inflow
    dsimp only
    rw [drawnFrom_append]
    rcases getElem?_set_cases isStrand with ⟨rfl, rfl⟩ | ⟨different, isStrand⟩
    · have drains : ∃ j, t.inflow = some j ∧ j.pipe = i.pipe := by
        have same := congrArg Prod.fst step.effect.ends
        rw [Strand.ends, Strand.ends, inflow, Option.map_some, eq_comm, Option.map_eq_some_iff] at same
        exact same
      obtain ⟨j, before, samePipe⟩ := drains
      obtain ⟨i', after, -, kept⟩ := step.sound (sound.strand _ t j there before) before
      cases inflow.symm.trans after
      rwa [samePipe] at kept
    · have other := sound.other there isStrand different (by rw [Strand.ends, inflow]; rfl)
      rw [step.effect.drawnFrom_other other, List.append_nil]
      exact (sound.strand _ u i isStrand inflow).quiet (step.effect.gains _ other)
  | reaped stage ended => exact quiet fun pipe _ => World.gains_notice
  | calls | turns | joined | passes | returns | raises => exact sound.strand

/-- Every byte array that is drained into holds what it held at first, and then what was put into it. -/
theorem Step.arrays (step : Step v v') (sound : v.Sound w₀) :
    ∀ id b, v'.Fills id → w₀.memory.array? id = some b →
      v'.world.memory.array? id = some (b ++ putInto id v'.puts) := by
  intro id b fills before
  rw [step.sameEnds.fills] at fills
  have now := sound.arrays id b fills before
  cases step with
  | acts acts => rwa [acts.memory]
  | elsewhere apart untouched => rwa [untouched id fills]
  | thread there step =>
    rw [putInto_append, ← List.append_assoc]
    exact step.effect.arrays id _ now
  | reaped | calls | turns | joined | passes | returns | raises => exact now

theorem Step.sound (step : Step v v') (sound : v.Sound w₀) : v'.Sound w₀ where
  apart := by
    rw [step.sameEnds.ends]
    exact sound.apart
  strand := step.strand sound
  logged x member := by
    rw [step.sameEnds.ends]
    cases step with
    | thread there step =>
      rcases List.mem_append.mp member with earlier | now
      · exact sound.logged x earlier
      · rw [step.effect.logged x now]
        exact List.mem_map_of_mem (List.mem_of_getElem? there)
    | acts | elsewhere | reaped | calls | turns | joined | passes | returns | raises =>
      exact sound.logged x member
  arrays := step.arrays sound

/-! ## The wait -/

/-- A process that has been waited for stays so. -/
theorem Step.isReaped (step : Step v v') {pid : Nat} {code : Int} (reaped : v.world.IsReaped pid code) :
    v'.world.IsReaped pid code := by
  have same {w : World} (processes : w.processes = v.world.processes) : w.IsReaped pid code := by
    simpa [World.IsReaped, World.exit?, World.seen?, World.process?, processes] using reaped
  cases step with
  | acts acts =>
    obtain ⟨_, passes, -⟩ := acts.runs
    exact passes.isReaped reaped
  | elsewhere apart untouched => exact same apart.processes
  | thread there step => exact same step.effect.processes
  | reaped stage ended => exact (World.notice_passes v.world _).isReaped reaped
  | calls | turns | joined | passes | returns | raises => exact reaped

/-- How far a wait has come. -/
structure Advanced (v : Vigil) : Prop where
  reaped : ∀ pid ∈ v.pids, pid ∈ v.stage.pending v.pids ∨ ∃ code, v.world.IsReaped pid code
  finished : ∀ (number : Nat) (t : Strand), v.stage.Past number → v.strands[number]? = some t →
    number ∈ v.late ∨ ∃ outcome, t.task = .done outcome
  quiet : v.stage = .returned → ∀ (number : Nat) (t : Strand), v.strands[number]? = some t →
    number ∈ v.late ∨ t.pump.error = none
  unlimited : v.limited = false → v.late = []

/-- Every process has been waited for, or is still to be. -/
theorem Step.reaped_or (step : Step v v') (advanced : v.Advanced) :
    ∀ pid ∈ v'.pids, pid ∈ v'.stage.pending v'.pids ∨ ∃ code, v'.world.IsReaped pid code := by
  intro pid member
  rw [step.sameEnds.pids] at member ⊢
  rcases advanced.reaped pid member with pending | ⟨code, reaped⟩
  · cases step with
    | calls idle limited => exact .inl member
    | raises busy => exact .inl member
    | @reaped pid' rest code stage ended =>
      rw [stage] at pending
      rcases List.mem_cons.mp pending with rfl | later
      · exact .inr ⟨code, by rw [World.exit?_notice, ended], by rw [World.seen?_notice, ended]⟩
      · exact .inl later
    | turns stage =>
      rw [stage] at pending
      cases pending
    | joined stage there finished =>
      rw [stage] at pending
      cases pending
    | passes stage there limited =>
      rw [stage] at pending
      cases pending
    | returns stage quiet =>
      rw [stage] at pending
      cases pending
    | acts | elsewhere | thread => exact .inl pending
  · exact .inr ⟨code, step.isReaped reaped⟩

theorem Step.finished (step : Step v v') (advanced : v.Advanced) :
    ∀ (number : Nat) (t : Strand), v'.stage.Past number → v'.strands[number]? = some t →
      number ∈ v'.late ∨ ∃ outcome, t.task = .done outcome := by
  intro other u past there
  cases step with
  | acts | elsewhere => exact advanced.finished other u past there
  | @thread number t t' w puts before step =>
    rcases getElem?_set_cases there with ⟨rfl, rfl⟩ | ⟨-, there⟩
    · rcases advanced.finished _ t past before with late | ⟨outcome, finished⟩
      · exact .inl late
      · exact absurd finished (step.unfinished outcome)
    · exact advanced.finished other u past there
  | reaped stage ended => cases past
  | calls idle limited => cases past
  | raises busy => cases past
  | turns stage => exact absurd past (Nat.not_lt_zero _)
  | @joined number t outcome stage before finished =>
    rcases Nat.lt_succ_iff_lt_or_eq.mp past with earlier | rfl
    · exact advanced.finished other u (by rw [stage]; exact earlier) there
    · cases before.symm.trans there
      exact .inr ⟨outcome, finished⟩
  | @passes number stage before limited =>
    rcases Nat.lt_succ_iff_lt_or_eq.mp past with earlier | rfl
    · refine (advanced.finished other u (by rw [stage]; exact earlier) there).imp_left fun late => ?_
      exact List.mem_append_left _ late
    · exact .inl (List.mem_append_right _ (List.mem_singleton_self _))
  | returns stage quiet =>
    refine advanced.finished other u ?_ there
    rw [stage]
    exact (List.getElem?_eq_some_iff.mp there).1

theorem Step.quiet (step : Step v v') (advanced : v.Advanced) : v'.stage = .returned →
    ∀ (number : Nat) (t : Strand), v'.strands[number]? = some t →
      number ∈ v'.late ∨ t.pump.error = none := by
  intro returned other u there
  cases step with
  | acts | elsewhere => exact advanced.quiet returned other u there
  | @thread number t t' w puts before step =>
    rcases getElem?_set_cases there with ⟨rfl, rfl⟩ | ⟨-, there⟩
    · rcases advanced.finished _ t (by rw [returned]; trivial) before with late | ⟨outcome, finished⟩
      · exact .inl late
      · exact absurd finished (step.unfinished outcome)
    · exact advanced.quiet returned other u there
  | reaped | calls | raises | turns | joined | passes => cases returned
  | returns stage quiet => exact .inr (quiet u (List.mem_of_getElem? there))

theorem Step.advanced (step : Step v v') (advanced : v.Advanced) : v'.Advanced where
  reaped := step.reaped_or advanced
  finished := step.finished advanced
  quiet := step.quiet advanced
  unlimited := by
    cases step with
    | calls idle limited => exact fun _ => rfl
    | passes stage there limited => exact fun unlimited => nomatch limited.symm.trans unlimited
    | acts | elsewhere | thread | reaped | raises | turns | joined | returns => exact advanced.unlimited

/-- Along any run everything stays sound. -/
theorem Run.sound (run : Run v v') (sound : v.Sound w₀) (advanced : v.Advanced) :
    v'.Sound w₀ ∧ v'.Advanced := by
  induction run with
  | refl => exact ⟨sound, advanced⟩
  | tail earlier step ih => exact ⟨step.sound ih.1, step.advanced ih.2⟩

/-! ## When the wait has returned -/

/-- No other pump drains into the object that a pump with some ends drains into. -/
def Alone (v : Vigil) (ends : Option Nat × Buffer) (id : Nat) : Prop :=
  ∀ x ∈ v.strands.map Strand.ends, x.1.isSome → (∃ ref, x.2 = .object ref ∧ ref.id = id) → x = ends

/-- Everything that a pipe ever delivers has been put into the buffer of its drain. A byte array that no other
pump drains into holds it. -/
structure Drained (v : Vigil) (w₀ : World) (t : Strand) (i : Inflow) : Prop where
  ended : v.world.Ended i.pipe
  drawn : drawnFrom i.pipe v.puts = w₀.content i.pipe ++ v.entered i.pipe
  array : ∀ ref b, t.pump.buffer = .object ref → v.Alone t.ends ref.id → w₀.memory.array? ref.id = some b →
    v.world.memory.array? ref.id = some (b ++ (w₀.content i.pipe ++ v.entered i.pipe))

/-- The buffer of a drain broke off by a failure that the drain ignores. -/
def BrokeOff (t : Strand) : Prop :=
  t.pump.settings.ignoresBrokenPipe ∧ ∃ e, e.isBrokenPipe ∧ t.task = .done (.error e)

/-- What a pump has come to that was waited for: it has finished, and has no failure to tell of. A drain has put
everything into its buffer, unless it may read nothing at a time or its buffer broke off. -/
structure Complete (v : Vigil) (w₀ : World) (t : Strand) : Prop where
  finished : ∃ outcome, t.task = .done outcome
  quiet : t.pump.error = none
  drained : ∀ i, t.inflow = some i →
    t.pump.settings.chunkSize = some 0 ∨ BrokeOff t ∨ v.Drained w₀ t i

/-- What is true when a wait has returned. Only a wait with a limit leaves a pump behind. -/
structure Concluded (v : Vigil) (w₀ : World) : Prop where
  reaped : ∀ pid ∈ v.pids, ∃ code, v.world.IsReaped pid code
  pumps : ∀ (number : Nat) (t : Strand), v.strands[number]? = some t → number ∉ v.late → v.Complete w₀ t
  /-- What has been put into the byte arrays is there, whoever put it. -/
  arrays : ∀ id b, v.Fills id → w₀.memory.array? id = some b →
    v.world.memory.array? id = some (b ++ putInto id v.puts)
  unlimited : v.limited = false → v.late = []

/-- What was put into an object is what came out of the pipe of the only pump that drains into it. -/
theorem Sound.putInto_eq (sound : v.Sound w₀) (there : v.strands[number]? = some t)
    (inflow : t.inflow = some i) {ref : ObjectRef} (buffer : t.pump.buffer = .object ref)
    (alone : v.Alone t.ends ref.id) : putInto ref.id v.puts = drawnFrom i.pipe v.puts := by
  have mine : t.ends = (some i.pipe, .object ref) := by rw [Strand.ends, inflow, buffer]; rfl
  rw [putInto, drawnFrom, List.flatMap_def, List.flatMap_def]
  refine congrArg List.flatten (List.map_congr_left fun x member => ?_)
  have logged := sound.logged x member
  by_cases same : x.pipe = i.pipe
  · obtain ⟨u, isStrand, ends⟩ := List.mem_map.mp logged
    obtain ⟨other, found⟩ := List.getElem?_of_mem isStrand
    have equal : u.ends = t.ends := by
      by_cases here : other = number
      · subst here
        cases there.symm.trans found
        rfl
      · refine absurd ?_ (sound.other there found here (congrArg Prod.fst ends))
        rw [mine, same]
    rw [ends, mine] at equal
    simp [(Prod.mk.inj equal).2, same]
  · rw [if_neg same]
    split
    · next other isBuffer =>
      refine if_neg fun sameId => same ?_
      have equal := alone _ logged rfl ⟨other, isBuffer, sameId⟩
      rw [mine] at equal
      exact Option.some.inj (Prod.mk.inj equal).1
    · rfl

/-- A drain that has come to its end without a failure has put all that its pipe has delivered into its buffer. -/
theorem Sound.drawn (sound : v.Sound w₀) (there : v.strands[number]? = some t) (inflow : t.inflow = some i)
    (finished : t.task = .done (.ok ())) (ended : v.world.Ended i.pipe) :
    drawnFrom i.pipe v.puts = w₀.content i.pipe ++ v.entered i.pipe := by
  have mine := sound.strand number t i there inflow
  have taken := mine.conserved (by rw [finished]; nofun)
  have conserved := mine.inflow.conserved
  rw [finished, Task.carried, List.append_nil] at taken
  rw [mine.early, ended.content, List.nil_append, List.append_nil] at conserved
  rw [taken, entered, conserved]

/-- When a wait has returned, nothing is missing from the buffers of the pumps that it has not left behind. -/
theorem Run.concluded (run : Run v v') (sound : v.Sound w₀) (advanced : v.Advanced)
    (returned : v'.stage = .returned) : v'.Concluded w₀ := by
  obtain ⟨sound, advanced⟩ := run.sound sound advanced
  refine
    { reaped := fun pid member => ?_
      pumps := fun number t there notLate => ?_
      arrays := sound.arrays
      unlimited := advanced.unlimited }
  · refine (advanced.reaped pid member).resolve_left fun pending => ?_
    rw [returned] at pending
    cases pending
  · obtain ⟨outcome, finished⟩ :=
      (advanced.finished number t (by rw [returned]; trivial) there).resolve_left notLate
    have quiet := (advanced.quiet returned number t there).resolve_left notLate
    refine ⟨⟨outcome, finished⟩, quiet, fun i inflow => ?_⟩
    have mine := sound.strand number t i there inflow
    cases outcome with
    | error e =>
      obtain ⟨broken, ignores⟩ := mine.failed e finished quiet
      exact .inr (.inl ⟨ignores, e, broken, finished⟩)
    | ok _ =>
      refine (mine.ended (by rw [finished]; rfl)).imp_right fun ended => .inr ?_
      have whole := sound.drawn there inflow finished ended
      refine ⟨ended, whole, fun ref b buffer alone before => ?_⟩
      have fills : v'.Fills ref.id := by
        refine ⟨t.ends, List.mem_map_of_mem (List.mem_of_getElem? there), ?_, ref, buffer, rfl⟩
        rw [Strand.ends, inflow]
        rfl
      rw [sound.arrays ref.id b fills before, sound.putInto_eq there inflow buffer alone, whole]

end Vigil

end Pipework
