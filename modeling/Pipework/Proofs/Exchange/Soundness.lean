import Pipework.Proofs.Exchange.Steps

/-!
# Every step of an exchange conserves the bytes

* `Inflow.Sound`: what entered an output and what was there before is what was taken, in order, and then
  what is still there.
* `Outflow.Sound`: what entered stdin, what the writer holds and the chunks that are left are what was
  written and then what the call was given, unless the pipe broke.
* `Step.sound`: every step keeps that, whoever takes it.
-/

namespace Pipework

open World (Exclusive Gains Releases)

variable {c : Exchange.Call} {w₀ w w' : World} {entries more : List (Nat × Bytes)} {s s' : Exchange}

/-! ## What a call feeds -/

/-- Chunks of a size are the content again. -/
theorem Pump.flatten_chunksOf {size : Nat} (positive : 0 < size) {n : Nat} {b : Bytes}
    (enough : b.length ≤ n) : (chunksOf size n b).flatten = b := by
  induction n generalizing b with
  | zero => rw [List.eq_nil_of_length_eq_zero (Nat.eq_zero_of_le_zero enough)]; rfl
  | succ n ih =>
    unfold chunksOf
    split
    · next empty => rw [List.isEmpty_iff.mp empty]; rfl
    · have shorter : (b.drop size).length ≤ n := by
        rw [List.length_drop]
        omega
      rw [List.flatten_cons, ih shorter, List.take_append_drop]

/-- A content is cut into chunks that are the content again, or into none. -/
theorem PumpSettings.cut?_cases {settings : PumpSettings} {b : Bytes} {chunks : List Bytes}
    (cut : settings.cut? b = some chunks) :
    chunks.flatten = b ∨ chunks = [] ∧ ∃ n < 0, settings.chunkSize = some n := by
  simp only [cut?] at cut
  split at cut
  · cases cut
  · next size isSize =>
    split at cut
    · cases cut
    · next notZero =>
      split at cut
      · cases cut
        exact .inl (Pump.flatten_chunksOf (by omega) (Nat.le_refl _))
      · cases cut
        exact .inr ⟨rfl, size, by omega, isSize⟩

namespace Exchange.Call

/-- The chunks are all that a call is to feed, or there are none. -/
theorem chunks?_cases {chunks : List Bytes} (chunked : c.chunks? = some chunks) :
    c.encoded? = some chunks.flatten ∨ chunks = [] ∧ c.SkipsInput := by
  obtain ⟨input, settings, pids⟩ := c
  cases input with
  | none =>
    cases chunked
    exact .inl rfl
  | some input =>
    obtain ⟨b, encoded, cut⟩ := Option.bind_eq_some_iff.mp chunked
    refine (PumpSettings.cut?_cases cut).imp (fun same => ?_) fun ⟨nothing, negative⟩ =>
      ⟨nothing, rfl, negative⟩
    rw [same]
    exact encoded

/-- There are none if the call passes over its input. -/
theorem chunks?_of_skips (skips : c.SkipsInput) : c.chunks?.getD [] = [] := by
  obtain ⟨given, n, negative, isSize⟩ := skips
  obtain ⟨input, there⟩ := Option.isSome_iff_exists.mp given
  have cut (b : Bytes) : c.settings.cut? b = some [] := by
    simp only [PumpSettings.cut?, isSize]
    rw [if_neg (by omega), if_neg (by omega)]
  rw [chunks?, there]
  cases encoded : input.encoded? <;> simp [encoded, cut]

/-- In any case they are the beginning of it. -/
theorem flatten_prefix (c : Exchange.Call) : (c.chunks?.getD []).flatten <+: c.encoded?.getD [] := by
  cases chunked : c.chunks? with
  | none => exact List.nil_prefix
  | some chunks =>
    rcases chunks?_cases chunked with whole | ⟨rfl, -⟩
    · rw [whole]
      exact List.prefix_rfl
    · exact List.nil_prefix

end Exchange.Call

/-! ## One end of the caller -/

/-- What holds of the caller's end of an output: nobody else reads the pipe, and nothing of what has been
in it is lost. -/
structure Inflow.Sound (w₀ w : World) (entries : List (Nat × Bytes)) (i : Inflow) : Prop where
  known : i.pipe < w.pipes.length
  exclusive : w.Exclusive i.reader.descriptor (.readEnd i.pipe)
  conserved : w₀.content i.pipe ++ enteredInto i.pipe entries = i.early ++ i.taken ++ w.content i.pipe

/-- What holds of the caller's end of stdin: nobody else writes to the pipe, and what enters it is what is
to be written, from the beginning on and in order. -/
structure Outflow.Sound (w : World) (entries : List (Nat × Bytes)) (o : Outflow) : Prop where
  known : o.pipe < w.pipes.length
  exclusive : w.Exclusive o.writer.descriptor (.writeEnd o.pipe)
  ordered : ∃ lost, (o.broken = false → lost = []) ∧
    enteredInto o.pipe entries ++ o.writer.held ++ o.left.flatten ++ lost = o.written ++ o.fed
  closed : o.writer.closed → o.writer.held = [] ∧ o.left = [] ∧ w.hasWriter o.pipe = false

/-- Something happens that is nothing but more bytes to the pipe. -/
theorem Inflow.Sound.gains {i : Inflow} (sound : i.Sound w₀ w entries)
    (gains : Gains i.pipe (enteredInto i.pipe more) w w') : i.Sound w₀ w' (entries ++ more) where
  known := Nat.lt_of_lt_of_le sound.known gains.pipes
  exclusive := sound.exclusive.releases rfl gains.toReleases
  conserved := by
    rw [enteredInto_append, ← List.append_assoc, sound.conserved, gains.content sound.known,
      List.append_assoc _ _ (enteredInto _ _)]

/-- Some of what is there is taken. -/
theorem Inflow.Sound.take {i : Inflow} (sound : i.Sound w₀ w entries) (count : Nat) :
    (i.take ((w.content i.pipe).take count)).Sound w₀ (w.consume count (.readEnd i.pipe)) entries where
  known := by
    change i.pipe < (w.pipes.set _ _).length
    rw [List.length_set]
    exact sound.known
  exclusive := ⟨sound.exclusive.descriptors, sound.exclusive.processes⟩
  conserved := by
    change _ = i.early ++ (i.taken ++ _) ++ (w.setContent i.pipe _).content i.pipe
    rw [World.content_setContent w _ sound.known, if_pos rfl, ← List.append_assoc i.early,
      List.append_assoc _ (List.take ..), List.take_append_drop]
    exact sound.conserved

/-- The call begins. -/
theorem Inflow.Sound.begin {i : Inflow} (sound : i.Sound w₀ w entries) : i.begin.Sound w₀ w entries where
  known := sound.known
  exclusive := sound.exclusive
  conserved := by
    change _ = i.early ++ i.taken ++ [] ++ _
    rw [List.append_nil]
    exact sound.conserved

/-- Something happens that is nothing to the pipe. -/
theorem Outflow.Sound.releases {o : Outflow} (sound : o.Sound w entries)
    (silent : enteredInto o.pipe more = []) (releases : Releases o.pipe w w') :
    o.Sound w' (entries ++ more) where
  known := Nat.lt_of_lt_of_le sound.known releases.pipes
  exclusive := sound.exclusive.releases rfl releases
  ordered := by
    rw [enteredInto_append, silent, List.append_nil]
    exact sound.ordered
  closed isClosed := by
    obtain ⟨held, left, noWriter⟩ := sound.closed isClosed
    rw [World.hasWriter_eq_false_iff] at noWriter ⊢
    exact ⟨held, left, releases.holders rfl noWriter⟩

/-- Nothing of a call has come to the caller's end yet. -/
structure Outflow.Fresh (o : Outflow) : Prop where
  fed : o.fed = []
  left : o.left = []
  broken : o.broken = false
  isOpen : o.writer.closed = false

/-- The caller writes something before the call. -/
theorem Outflow.Sound.write {o : Outflow} (sound : o.Sound w entries) (fresh : o.Fresh) (data : Bytes) :
    (o.write data).Sound w entries where
  known := sound.known
  exclusive := sound.exclusive
  ordered := by
    obtain ⟨lost, kept, ordered⟩ := sound.ordered
    rw [kept fresh.broken, fresh.left, fresh.fed] at ordered
    refine ⟨[], fun _ => rfl, ?_⟩
    simp only [Outflow.write, fresh.left, fresh.fed, List.flatten_nil, List.append_nil] at ordered ⊢
    rw [← List.append_assoc, ordered]
  closed isClosed := nomatch fresh.isOpen.symm.trans isClosed

/-- The call begins. -/
theorem Outflow.Sound.begin {o : Outflow} (sound : o.Sound w entries) (fresh : o.Fresh)
    (chunks? : Option (List Bytes)) : (o.begin chunks?).Sound w entries where
  known := sound.known
  exclusive := sound.exclusive
  ordered := by
    obtain ⟨lost, kept, ordered⟩ := sound.ordered
    rw [kept fresh.broken, fresh.left, fresh.fed] at ordered
    refine ⟨[], fun _ => rfl, ?_⟩
    simp only [Outflow.begin, List.flatten_nil, List.append_nil] at ordered ⊢
    rw [ordered]
  closed isClosed := nomatch fresh.isOpen.symm.trans isClosed

/-- The next chunk goes to the writer. -/
theorem Outflow.Sound.move {o : Outflow} (sound : o.Sound w entries) {chunk : Bytes}
    {rest : List Bytes} (isOpen : o.writer.closed = false) (left : o.left = chunk :: rest) :
    (o.move chunk rest).Sound w entries where
  known := sound.known
  exclusive := sound.exclusive
  ordered := by
    obtain ⟨lost, kept, ordered⟩ := sound.ordered
    rw [left] at ordered
    exact ⟨lost, kept, by simpa [Outflow.move] using ordered⟩
  closed isClosed := nomatch isOpen.symm.trans isClosed

/-- The writer passes on some of what it holds. -/
theorem Outflow.Sound.pass {o : Outflow} (sound : o.Sound w entries) {data rest : Bytes}
    (isOpen : o.writer.closed = false) (held : o.writer.held = data ++ rest)
    (delivered : w.deliver? (.writeEnd o.pipe) data = some w') :
    (o.hold rest).Sound w' (entries ++ [(o.pipe, data)]) where
  known := by
    have gains : Gains o.pipe _ w w' := World.gains_deliver? delivered
    exact Nat.lt_of_lt_of_le sound.known gains.pipes
  exclusive := sound.exclusive.releases rfl (World.gains_deliver? delivered).toReleases
  ordered := by
    obtain ⟨lost, kept, ordered⟩ := sound.ordered
    refine ⟨lost, kept, ?_⟩
    rw [held] at ordered
    simpa [Outflow.hold] using ordered
  closed isClosed := nomatch isOpen.symm.trans isClosed

/-- The writer gives up its descriptor, with everything passed on or the rest lost. -/
theorem Outflow.Sound.shut {o : Outflow} (sound : o.Sound w entries)
    (held : o.writer.held = []) (left : o.left = []) :
    o.close.Sound (w.shut o.writer.descriptor) entries where
  known := sound.known
  exclusive := sound.exclusive.releases rfl World.gains_shut.toReleases
  ordered := by
    obtain ⟨lost, kept, ordered⟩ := sound.ordered
    rw [held, left] at ordered
    exact ⟨lost, kept, ordered⟩
  closed _ := ⟨rfl, rfl, World.hasWriter_eq_false_iff.mpr sound.exclusive.shut⟩

theorem Outflow.Sound.lose {o : Outflow} (sound : o.Sound w entries) :
    o.lose.Sound (w.shut o.writer.descriptor) entries where
  known := sound.known
  exclusive := sound.exclusive.releases rfl World.gains_shut.toReleases
  ordered := by
    obtain ⟨lost, -, ordered⟩ := sound.ordered
    refine ⟨o.writer.held ++ o.left.flatten ++ lost, nofun, ?_⟩
    simpa [Outflow.lose, Outflow.close] using ordered
  closed _ := ⟨rfl, rfl, World.hasWriter_eq_false_iff.mpr sound.exclusive.shut⟩

/-! ## Every step -/

namespace Exchange

/-- What holds all along a run: the caller's ends are on different pipes, and each is sound. -/
structure Sound (w₀ : World) (s : Exchange) : Prop where
  apart : ∀ o, s.outflow = some o → ∀ t i, s.inflow t = some i → o.pipe ≠ i.pipe
  distinct : ∀ t u i j, s.inflow t = some i → s.inflow u = some j → i.pipe = j.pipe → t = u
  outflow : ∀ o, s.outflow = some o → o.Sound s.world s.entries
  inflow : ∀ t i, s.inflow t = some i → i.Sound w₀ s.world s.entries
  fresh : s.stage = .before → ∀ o, s.outflow = some o → o.Fresh

/-- The end of one stream is replaced. -/
theorem inflow_update {t u : Stream} {i' j : Inflow}
    (member : Function.update s.inflow t (some i') u = some j) :
    u = t ∧ j = i' ∨ u ≠ t ∧ s.inflow u = some j := by
  by_cases here : u = t
  · subst here
    rw [Function.update_self] at member
    exact .inl ⟨rfl, (Option.some.inj member).symm⟩
  · rw [Function.update_of_ne here] at member
    exact .inr ⟨here, member⟩

/-- What one end has kept while it was read, all have. -/
theorem map_update {inn : Stream → Option Inflow} {α : Type} (f : Inflow → α) {t : Stream} {i i' : Inflow}
    (there : inn t = some i) (same : f i' = f i) (u : Stream) :
    (Function.update inn t (some i') u).map f = (inn u).map f := by
  by_cases here : u = t
  · subst here
    rw [Function.update_self, there, Option.map_some, Option.map_some, same]
  · rw [Function.update_of_ne here]

/-- The caller has the same ends, on the same pipes. -/
structure SameEnds (s s' : Exchange) : Prop where
  outflow : s'.outflow.map Outflow.pipe = s.outflow.map Outflow.pipe
  inflow : ∀ t, (s'.inflow t).map Inflow.pipe = (s.inflow t).map Inflow.pipe

/-- No step takes an end from the caller, or moves it to another pipe. -/
theorem Step.sameEnds (step : Step c s s') : s.SameEnds s' := by
  have replaced {o o' : Outflow} (stdin : s.outflow = some o) (pipe : o'.pipe = o.pipe) :
      (some o').map Outflow.pipe = s.outflow.map Outflow.pipe := by
    rw [stdin, Option.map_some, Option.map_some, pipe]
  cases step with
  | acts acts => exact ⟨rfl, fun _ => rfl⟩
  | elsewhere apart => exact ⟨rfl, fun _ => rfl⟩
  | write stage stdin data => exact ⟨replaced stdin rfl, fun _ => rfl⟩
  | pass stdin isOpen held delivered => exact ⟨replaced stdin rfl, fun _ => rfl⟩
  | call stage there =>
    exact ⟨by rw [Option.map_map]; rfl, fun _ => by rw [Option.map_map]; rfl⟩
  | move stdin isOpen left => exact ⟨replaced stdin rfl, fun _ => rfl⟩
  | close stage stdin isOpen left held => exact ⟨replaced stdin rfl, fun _ => rfl⟩
  | lose stage stdin isOpen refused => exact ⟨replaced stdin rfl, fun _ => rfl⟩
  | closed stage closed => exact ⟨rfl, fun _ => rfl⟩
  | read stage there isOpen count => exact ⟨rfl, map_update Inflow.pipe there rfl⟩
  | ended stage ended => exact ⟨rfl, fun _ => rfl⟩
  | drained stage there isOpen ended => exact ⟨rfl, map_update Inflow.pipe there rfl⟩
  | joined stage fed drained => exact ⟨rfl, fun _ => rfl⟩
  | reaped stage ended => exact ⟨rfl, fun _ => rfl⟩
  | returns stage => exact ⟨rfl, fun _ => rfl⟩

/-- Neither does any run. -/
theorem Run.sameEnds (run : Run c s s') : s.SameEnds s' := by
  induction run with
  | refl => exact ⟨rfl, fun _ => rfl⟩
  | tail _ step ih =>
    exact ⟨step.sameEnds.outflow.trans ih.outflow, fun t => (step.sameEnds.inflow t).trans (ih.inflow t)⟩

theorem SameEnds.outflow_cases (same : s.SameEnds s') {o' : Outflow} (stdin : s'.outflow = some o') :
    ∃ o, s.outflow = some o ∧ o.pipe = o'.pipe := by
  have there := same.outflow
  rw [stdin, Option.map_some, eq_comm, Option.map_eq_some_iff] at there
  exact there

theorem SameEnds.inflow_cases (same : s.SameEnds s') {t : Stream} {i' : Inflow}
    (there : s'.inflow t = some i') : ∃ i, s.inflow t = some i ∧ i.pipe = i'.pipe := by
  have before := same.inflow t
  rw [there, Option.map_some, eq_comm, Option.map_eq_some_iff] at before
  exact before

/-- The caller's end of stdin stays sound. -/
theorem Step.outflow (step : Step c s s') (sound : s.Sound w₀) :
    ∀ o, s'.outflow = some o → o.Sound s'.world s'.entries := by
  have quiet {w : World} (releases : ∀ o, s.outflow = some o → Releases o.pipe s.world w) :
      ∀ o, s.outflow = some o → o.Sound w s.entries := by
    intro o stdin
    have kept : o.Sound w (s.entries ++ []) := (sound.outflow o stdin).releases rfl (releases o stdin)
    rwa [List.append_nil] at kept
  have replaced {o : Outflow} {w : World} {entries : List (Nat × Bytes)} (kept : o.Sound w entries) :
      ∀ o', some o = some o' → o'.Sound w entries := fun _ same => Option.some.inj same ▸ kept
  cases step with
  | acts acts =>
    intro o stdin
    have mine := sound.outflow o stdin
    exact mine.releases (acts.silent mine.exclusive.processes) acts.releases
  | elsewhere apart => exact quiet fun o stdin => (apart.gains (.inl ⟨o, stdin, rfl⟩)).toReleases
  | write stage stdin data => exact replaced ((sound.outflow _ stdin).write (sound.fresh stage _ stdin) data)
  | pass stdin isOpen held delivered =>
    exact replaced ((sound.outflow _ stdin).pass isOpen held delivered)
  | call stage there =>
    intro o' begun
    obtain ⟨o, stdin, rfl⟩ := Option.map_eq_some_iff.mp begun
    exact (sound.outflow o stdin).begin (sound.fresh stage o stdin) _
  | move stdin isOpen left => exact replaced ((sound.outflow _ stdin).move isOpen left)
  | close stage stdin isOpen left held => exact replaced ((sound.outflow _ stdin).shut held left)
  | lose stage stdin isOpen refused => exact replaced (sound.outflow _ stdin).lose
  | closed stage closed => exact sound.outflow
  | @read _ i stage there isOpen count =>
    exact quiet (w := s.world.consume count (.readEnd i.pipe)) fun o stdin => World.releases_consume
  | ended stage ended => exact sound.outflow
  | drained stage there isOpen ended => exact quiet fun o stdin => World.gains_shut.toReleases
  | joined stage fed drained => exact sound.outflow
  | reaped stage ended => exact quiet fun o stdin => World.gains_notice.toReleases
  | returns stage => exact sound.outflow

/-- The caller's ends of the outputs stay sound. -/
theorem Step.inflow (step : Step c s s') (sound : s.Sound w₀) :
    ∀ t i, s'.inflow t = some i → i.Sound w₀ s'.world s'.entries := by
  have quiet {w : World} (gains : ∀ t i, s.inflow t = some i → Gains i.pipe [] s.world w) :
      ∀ t i, s.inflow t = some i → i.Sound w₀ w s.entries := by
    intro t i there
    have kept : i.Sound w₀ w (s.entries ++ []) := (sound.inflow t i there).gains (gains t i there)
    rwa [List.append_nil] at kept
  cases step with
  | acts acts =>
    intro t i there
    have mine := sound.inflow t i there
    exact mine.gains (acts.gains mine.exclusive.processes)
  | elsewhere apart => exact quiet fun t i there => apart.gains (.inr ⟨t, i, there, rfl⟩)
  | write stage stdin data => exact sound.inflow
  | pass stdin isOpen held delivered =>
    exact fun t i there => (sound.inflow t i there).gains (World.gains_deliver? delivered)
  | call stage there =>
    intro t i' begun
    obtain ⟨i, there, rfl⟩ := Option.map_eq_some_iff.mp begun
    exact (sound.inflow t i there).begin
  | move stdin isOpen left => exact sound.inflow
  | close stage stdin isOpen left held => exact quiet fun t i there => World.gains_shut
  | lose stage stdin isOpen refused => exact quiet fun t i there => World.gains_shut
  | closed stage closed => exact sound.inflow
  | @read t i stage there isOpen count =>
    intro u j member
    rcases inflow_update member with ⟨-, rfl⟩ | ⟨other, elsewhere⟩
    · exact (sound.inflow t i there).take count
    · have apart : i.pipe ≠ j.pipe := fun same => other (sound.distinct u t j i elsewhere there same.symm)
      have kept : j.Sound w₀ (s.world.consume count (.readEnd i.pipe)) (s.entries ++ []) :=
        (sound.inflow u j elsewhere).gains
          (World.gains_consume fun same => apart (Channel.readEnd.inj same))
      rwa [List.append_nil] at kept
  | ended stage ended => exact sound.inflow
  | @drained i stage there isOpen ended =>
    have kept := quiet (w := s.world.shut i.reader.descriptor) fun t i there => World.gains_shut
    intro u j member
    rcases inflow_update member with ⟨-, rfl⟩ | ⟨-, elsewhere⟩
    · exact ⟨(kept _ i there).known, (kept _ i there).exclusive, (kept _ i there).conserved⟩
    · exact kept u j elsewhere
  | joined stage fed drained => exact sound.inflow
  | reaped stage ended => exact quiet fun t i there => World.gains_notice
  | returns stage => exact sound.inflow

/-- Only before the call is there nothing of it. -/
theorem Step.fresh (step : Step c s s') (sound : s.Sound w₀) :
    s'.stage = .before → ∀ o, s'.outflow = some o → o.Fresh := by
  have written {o o' : Outflow} (fresh : o.Fresh) (fed : o'.fed = o.fed) (left : o'.left = o.left)
      (broken : o'.broken = o.broken) (closed : o'.writer.closed = o.writer.closed) :
      ∀ o'', some o' = some o'' → o''.Fresh := by
    rintro _ ⟨⟩
    exact ⟨fed.trans fresh.fed, left.trans fresh.left, broken.trans fresh.broken,
      closed.trans fresh.isOpen⟩
  cases step with
  | acts acts => exact sound.fresh
  | elsewhere apart => exact sound.fresh
  | write stage stdin data =>
    exact fun _ => written (sound.fresh stage _ stdin) rfl rfl rfl rfl
  | pass stdin isOpen held delivered =>
    exact fun stage => written (sound.fresh stage _ stdin) rfl rfl rfl rfl
  | call stage there =>
    intro begun
    dsimp only at begun
    split at begun <;> cases begun
  | move stdin isOpen left =>
    intro stage
    have none := (sound.fresh stage _ stdin).left
    rw [left] at none
    cases none
  | close stage stdin isOpen left held => exact fun early => absurd early stage
  | lose stage stdin isOpen refused => exact fun early => absurd early stage
  | read stage there isOpen count => exact sound.fresh
  | drained stage there isOpen ended => exact sound.fresh
  | closed stage closed => exact nofun
  | ended stage ended => exact nofun
  | joined stage fed drained => exact nofun
  | reaped stage ended => exact nofun
  | returns stage => exact nofun

/-- Every step keeps everything sound. -/
theorem Step.sound (step : Step c s s') (sound : s.Sound w₀) : s'.Sound w₀ where
  apart o' stdin t i' there := by
    obtain ⟨o, stdin, same⟩ := step.sameEnds.outflow_cases stdin
    obtain ⟨i, there, same'⟩ := step.sameEnds.inflow_cases there
    rw [← same, ← same']
    exact sound.apart o stdin t i there
  distinct t u i' j' first second samePipe := by
    obtain ⟨i, first, same⟩ := step.sameEnds.inflow_cases first
    obtain ⟨j, second, same'⟩ := step.sameEnds.inflow_cases second
    exact sound.distinct t u i j first second (same.trans (samePipe.trans same'.symm))
  outflow := step.outflow sound
  inflow := step.inflow sound
  fresh := step.fresh sound

end Exchange

end Pipework
