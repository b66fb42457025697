import Mathlib.Logic.Relation
import Pipework.Proofs.Exchange.Soundness

/-!
# A pump that feeds, amid everything else

While a pump feeds, processes act and everybody else goes on with what has nothing to do with its pipe.
`Supply.Step` lists what can happen to what is on its way: the next chunk goes to the pump's writer, the writer
passes on as much of what it holds as it likes and whenever it likes, and in the end it is closed, either when
everything has been passed on or when nobody can read what it holds.

What has entered the pipe is then at every moment the beginning of what is to be fed (`Sound`), and the pump
finishes with nothing to tell of only when all of it has entered (`Run.complete`).
-/

namespace Pipework

open World (Exclusive Gains Releases)

/-- Seen from a pipe, nothing happens but that some of its ends are let go. -/
structure World.Spares (pipe : Nat) (w w' : World) : Prop where
  pipes : w.pipes.length ≤ w'.pipes.length
  content : pipe < w.pipes.length → w'.content pipe = w.content pipe
  descriptors : ∀ x ∈ w'.descriptors, x.2.pipe? = some pipe → x ∈ w.descriptors
  processes : ∀ p' ∈ w'.processes, ∃ p ∈ w.processes, ∀ c, c.pipe? = some pipe → p'.holds c ≤ p.holds c

namespace World

variable {w w' : World} {pipe d : Nat} {c : Channel}

theorem Gains.spares (gains : Gains pipe [] w w') : Spares pipe w w' where
  pipes := gains.pipes
  content known := by rw [gains.content known, List.append_nil]
  descriptors := gains.descriptors
  processes p' member := by
    obtain ⟨p, known, fewer⟩ := gains.processes p' member
    exact ⟨p, known, fun c _ => fewer c⟩

theorem Spares.holders (spares : Spares pipe w w') (isEnd : c.pipe? = some pipe) (none : w.holders c = 0) :
    w'.holders c = 0 := by
  rw [holders_eq_zero_iff] at none ⊢
  refine ⟨fun x member same => ?_, fun p member => ?_⟩
  · exact none.1 x (spares.descriptors x member (same ▸ isEnd)) same
  · obtain ⟨q, known, fewer⟩ := spares.processes p member
    exact Nat.eq_zero_of_le_zero (none.2 q known ▸ fewer c isEnd)

theorem Spares.exclusive (spares : Spares pipe w w') (isEnd : c.pipe? = some pipe)
    (exclusive : w.Exclusive d c) : w'.Exclusive d c where
  descriptors x member same :=
    exclusive.descriptors x (spares.descriptors x member (same ▸ isEnd)) same
  processes p member := by
    obtain ⟨q, known, fewer⟩ := spares.processes p member
    exact Nat.eq_zero_of_le_zero (exclusive.processes q known ▸ fewer c isEnd)

theorem hasReader_eq_false_iff : w.hasReader pipe = false ↔ w.holders (.readEnd pipe) = 0 := by
  simp [hasReader]

/-- Only where nobody can read is a write refused. -/
theorem noReader_of_refused {data : Bytes} (refused : w.deliver? (.writeEnd pipe) data = none) :
    w.hasReader pipe = false := by
  unfold deliver? at refused
  split at refused
  · cases refused
  · dsimp only at refused
    split at refused
    · cases refused
    · next none => simpa using none

/-- What is delivered where nobody can read is nothing. -/
theorem nothing_of_noReader {data : Bytes} (gone : w.hasReader pipe = false)
    (delivered : w.deliver? (.writeEnd pipe) data = some w') : data = [] := by
  unfold deliver? at delivered
  split at delivered
  · next empty => exact List.isEmpty_iff.mp empty
  · simp [gone] at delivered

end World

/-- A pump that feeds in the middle of its work, and what has become of its pipe since it was started. -/
structure Supply where
  world : World
  outflow : Outflow
  /-- How many bytes the pump has counted. -/
  moved : Nat := 0
  /-- What has entered pipes. -/
  entries : List (Nat × Bytes) := []
  /-- What has been read from the pipe. -/
  taken : Bytes := []

namespace Supply

/-- A pump is started that is to feed some chunks, if it can have them. -/
def start (w : World) (writer : Writer) (pipe : Nat) (chunks? : Option (List Bytes)) : Supply where
  world := w
  outflow := ({ writer, pipe, written := [] } : Outflow).begin chunks?

/-- The pipe that is fed. -/
def pipe (s : Supply) : Nat := s.outflow.pipe

/-- The bytes that have entered the pipe. -/
def entered (s : Supply) : Bytes := enteredInto s.pipe s.entries

/-- What can happen next. -/
inductive Step (s : Supply) : Supply → Prop where
  /-- A process does something, and has read what is gone from the pipe after that. -/
  | acts {w : World} {entries : List (Nat × Bytes)} {gone : Bytes} (acts : s.world.Acts w entries)
    (took : s.world.content s.pipe ++ enteredInto s.pipe entries = gone ++ w.content s.pipe) :
    Step s { s with world := w, entries := s.entries ++ entries, taken := s.taken ++ gone }
  /-- Something happens that has nothing to do with the pipe. -/
  | elsewhere {w : World} (spares : World.Spares s.pipe s.world w) : Step s { s with world := w }
  /-- The next chunk goes to the writer. -/
  | move {chunk : Bytes} {rest : List Bytes} (isOpen : s.outflow.writer.closed = false)
    (left : s.outflow.left = chunk :: rest) :
    Step s { s with outflow := s.outflow.move chunk rest, moved := s.moved + chunk.length }
  /-- The writer passes on some of what it holds. -/
  | pass {w : World} {data rest : Bytes} (isOpen : s.outflow.writer.closed = false)
    (held : s.outflow.writer.held = data ++ rest)
    (delivered : s.world.deliver? (.writeEnd s.pipe) data = some w) :
    Step s { s with
      world := w, entries := s.entries ++ [(s.pipe, data)], outflow := s.outflow.hold rest }
  /-- The writer is closed when everything has been passed on. -/
  | close (isOpen : s.outflow.writer.closed = false) (left : s.outflow.left = [])
    (held : s.outflow.writer.held = []) :
    Step s { s with world := s.world.shut s.outflow.writer.descriptor, outflow := s.outflow.close }
  /-- The writer is closed when nobody can read what it holds. -/
  | lose (isOpen : s.outflow.writer.closed = false)
    (refused : s.world.deliver? (.writeEnd s.pipe) s.outflow.writer.held = none) :
    Step s { s with world := s.world.shut s.outflow.writer.descriptor, outflow := s.outflow.lose }

/-- Any interleaving. -/
abbrev Run : Supply → Supply → Prop := Relation.ReflTransGen Step

variable {s₀ s s' : Supply} {w₀ w w' : World} {settings : PumpSettings} {chunks? : Option (List Bytes)}

/-! ## Every step -/

/-- What holds at every moment since the start. -/
structure Sound (s₀ s : Supply) : Prop where
  outflow : s.outflow.Sound s.world s.entries
  pipe : s.pipe = s₀.pipe
  written : s.outflow.written = []
  fed : s.outflow.fed = s₀.outflow.fed
  failed : s.outflow.failed = s₀.outflow.failed
  /-- What was there at the start and what has entered is what has been read, and then what is still there. -/
  conserved : s₀.world.content s.pipe ++ s.entered = s.taken ++ s.world.content s.pipe
  /-- The pump counts what it has handed to its writer. -/
  counted : s.outflow.broken = false → s.moved + s.outflow.left.flatten.length = s.outflow.fed.length
  /-- Nobody can read any more when something has been lost. -/
  lost : s.outflow.broken → s.world.hasReader s.pipe = false

/-- Where nobody can read, nobody ever can again. -/
theorem Step.noReader (step : Step s s') (gone : s.world.hasReader s.pipe = false) :
    s'.world.hasReader s.pipe = false := by
  have releases {w : World} (releases : Releases s.pipe s.world w) : w.hasReader s.pipe = false :=
    World.hasReader_eq_false_iff.mpr (releases.holders rfl (World.hasReader_eq_false_iff.mp gone))
  cases step with
  | acts acts took => exact releases acts.releases
  | elsewhere spares =>
    exact World.hasReader_eq_false_iff.mpr (spares.holders rfl (World.hasReader_eq_false_iff.mp gone))
  | move isOpen left => exact gone
  | pass isOpen held delivered => exact releases (World.gains_deliver? delivered).toReleases
  | close isOpen left held => exact releases World.gains_shut.toReleases
  | lose isOpen refused => exact releases World.gains_shut.toReleases

/-- Every step keeps the end of the pump sound. -/
theorem Step.outflow (step : Step s s') (sound : s.outflow.Sound s.world s.entries) :
    s'.outflow.Sound s'.world s'.entries := by
  cases step with
  | acts acts took => exact sound.releases (acts.silent sound.exclusive.processes) acts.releases
  | elsewhere spares =>
    exact
      { known := Nat.lt_of_lt_of_le sound.known spares.pipes
        exclusive := spares.exclusive rfl sound.exclusive
        ordered := sound.ordered
        closed := fun isClosed => by
          obtain ⟨held, left, noWriter⟩ := sound.closed isClosed
          rw [World.hasWriter_eq_false_iff] at noWriter ⊢
          exact ⟨held, left, spares.holders rfl noWriter⟩ }
  | move isOpen left => exact sound.move isOpen left
  | pass isOpen held delivered => exact sound.pass isOpen held delivered
  | close isOpen left held => exact sound.shut held left
  | lose isOpen refused => exact sound.lose

/-- What is in the pipe is what has entered it and has not been read. -/
theorem Step.conserved (step : Step s s') (sound : Sound s₀ s) :
    s₀.world.content s'.pipe ++ s'.entered = s'.taken ++ s'.world.content s'.pipe := by
  have before := sound.conserved
  have known := sound.outflow.known
  cases step with
  | @acts w entries gone acts took =>
    change s₀.world.content s.pipe ++ enteredInto s.pipe (s.entries ++ entries)
      = s.taken ++ gone ++ w.content s.pipe
    rw [enteredInto_append, ← List.append_assoc]
    change s₀.world.content s.pipe ++ s.entered ++ _ = _
    rw [before, List.append_assoc, List.append_assoc, took]
  | @elsewhere w spares =>
    change s₀.world.content s.pipe ++ s.entered = s.taken ++ w.content s.pipe
    rw [before, spares.content known]
  | move isOpen left => exact before
  | @pass w data rest isOpen held delivered =>
    have gains : Gains s.pipe _ s.world w := World.gains_deliver? delivered
    change s₀.world.content s.pipe ++ enteredInto s.pipe (s.entries ++ [(s.pipe, data)])
      = s.taken ++ w.content s.pipe
    rw [enteredInto_append, ← List.append_assoc, gains.content known, Channel.entries, enteredInto_self]
    change s₀.world.content s.pipe ++ s.entered ++ data = _
    rw [before, List.append_assoc]
  | close isOpen left held => exact before
  | lose isOpen refused => exact before

/-- Every step keeps everything sound. -/
theorem Step.sound (step : Step s s') (sound : Sound s₀ s) : Sound s₀ s' := by
  have outflow := step.outflow sound.outflow
  have conserved := step.conserved sound
  have noReader := step.noReader
  cases step with
  | acts acts took =>
    exact { sound with outflow, conserved, lost := fun broken => noReader (sound.lost broken) }
  | elsewhere spares =>
    exact { sound with outflow, conserved, lost := fun broken => noReader (sound.lost broken) }
  | @move chunk rest isOpen left =>
    refine { sound with outflow, conserved, counted := fun whole => ?_ }
    have before := sound.counted whole
    rw [left, List.flatten_cons, List.length_append] at before
    change s.moved + chunk.length + rest.flatten.length = s.outflow.fed.length
    omega
  | pass isOpen held delivered =>
    exact { sound with outflow, conserved, lost := fun broken => noReader (sound.lost broken) }
  | close isOpen left held =>
    refine { sound with
      outflow, conserved
      counted := fun whole => ?_
      lost := fun broken => noReader (sound.lost broken) }
    have before := sound.counted whole
    rwa [left] at before
  | lose isOpen refused =>
    exact { sound with
      outflow, conserved
      counted := nofun
      lost := fun _ => noReader (World.noReader_of_refused refused) }

/-- So at every moment of a run everything is sound. -/
theorem Run.sound (run : Run s₀ s) (sound : Sound s₀ s₀) : Sound s₀ s := by
  induction run with
  | refl => exact sound
  | tail _ step ih => exact step.sound ih

/-! ## Starting -/

/-- A pump can be started whose end is its own. -/
theorem sound_start {writer : Writer} {pipe : Nat} (known : pipe < w.pipes.length)
    (exclusive : w.Exclusive writer.descriptor (.writeEnd pipe)) (isOpen : writer.closed = false)
    (fresh : writer.held = []) :
    Sound (start w writer pipe chunks?) (start w writer pipe chunks?) where
  outflow :=
    { known, exclusive
      ordered := ⟨[], fun _ => rfl, by simp [start, Outflow.begin, fresh]⟩
      closed := fun closed => nomatch isOpen.symm.trans closed }
  pipe := rfl
  written := rfl
  fed := rfl
  failed := rfl
  conserved := List.append_nil _
  counted _ := Nat.zero_add _
  lost := nofun

/-! ## What a run comes to -/

/-- What has entered the pipe is the beginning of what is to be fed. -/
theorem Sound.prefix_fed (sound : Sound s₀ s) : s.entered <+: s₀.outflow.fed := by
  obtain ⟨lost, -, ordered⟩ := sound.outflow.ordered
  rw [sound.written, sound.fed, List.nil_append, List.append_assoc, List.append_assoc] at ordered
  exact ⟨_, ordered⟩

/-- When the pump has closed its end and nothing was lost, everything has entered the pipe, and after that
nothing can. -/
theorem Sound.complete (sound : Sound s₀ s) (closed : s.outflow.writer.closed)
    (whole : s.outflow.broken = false) :
    s.entered = s₀.outflow.fed ∧ s.moved = s₀.outflow.fed.length ∧ s.world.hasWriter s.pipe = false := by
  obtain ⟨held, left, noWriter⟩ := sound.outflow.closed closed
  obtain ⟨lost, kept, ordered⟩ := sound.outflow.ordered
  have counted := sound.counted whole
  rw [held, left, kept whole, sound.written, sound.fed] at ordered
  rw [left, sound.fed] at counted
  have entered : s.entered = s₀.outflow.fed := by
    change enteredInto s.outflow.pipe s.entries = _
    simpa using ordered
  exact ⟨entered, by simpa using counted, noWriter⟩

/-- Nothing is lost while somebody can read. -/
theorem Sound.unbroken (sound : Sound s₀ s) (stays : s.world.hasReader s.pipe) : s.outflow.broken = false := by
  cases broken : s.outflow.broken with
  | false => rfl
  | true => exact nomatch (sound.lost broken).symm.trans stays

/-- Nothing more enters the pipe when nobody can read it. -/
theorem Step.stalls (step : Step s s') (sound : Sound s₀ s) (gone : s.world.hasReader s.pipe = false) :
    s'.entered = s.entered := by
  cases step with
  | @acts w entries _ acts took =>
    have silent : enteredInto s.pipe entries = [] := acts.silent sound.outflow.exclusive.processes
    change enteredInto s.pipe (s.entries ++ entries) = s.entered
    rw [enteredInto_append, silent, List.append_nil, entered]
  | pass isOpen held delivered =>
    change enteredInto s.pipe (s.entries ++ [(s.pipe, _)]) = s.entered
    rw [World.nothing_of_noReader gone delivered, enteredInto_append, enteredInto_self, List.append_nil, entered]
  | elsewhere | move | close | lose => rfl

theorem Run.stalls (run : Run s s') (sound : Sound s₀ s) (gone : s.world.hasReader s.pipe = false) :
    Sound s₀ s' ∧ s'.world.hasReader s'.pipe = false ∧ s'.entered = s.entered := by
  induction run with
  | refl => exact ⟨sound, gone, rfl⟩
  | tail _ step ih =>
    obtain ⟨sound, gone, same⟩ := ih
    have later := step.sound sound
    refine ⟨later, ?_, (step.stalls sound gone).trans same⟩
    rw [later.pipe, ← sound.pipe]
    exact step.noReader gone

/-- A pump that does not ignore broken pipes finishes with nothing to tell of only when everything has entered
the pipe. -/
theorem Sound.of_done (sound : Sound s₀ s) (done : s.outflow.Done settings)
    (strict : settings.ignoresBrokenPipe = false) :
    s₀.outflow.failed = false ∧ s.entered = s₀.outflow.fed ∧ s.moved = s₀.outflow.fed.length ∧
      s.world.hasWriter s.pipe = false := by
  have whole : s.outflow.broken = false := by
    cases broken : s.outflow.broken with
    | false => rfl
    | true => exact nomatch strict.symm.trans (done.broken broken)
  refine ⟨?_, sound.complete done.closed whole⟩
  rw [← sound.failed]
  cases failed : s.outflow.failed with
  | false => rfl
  | true => exact nomatch whole.symm.trans (done.failed failed)

end Supply

end Pipework
