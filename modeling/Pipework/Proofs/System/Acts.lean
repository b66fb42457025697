import Pipework.Proofs.System.Passing

/-!
# What processes do by themselves

`World.Acts` lists what a living process can do at any moment: read any number of bytes from its stdin,
write any bytes to its stdout or stderr, and end with any code. It holds nothing but the streams that it
was started with. `World.Plays` is any sequence of such acts, of any processes in any order.

* `runUntilWithin_plays`: the system's own schedule is one such sequence.
* `Acts.gains`: seen from a pipe that no process reads, an act adds the bytes that it enters into the
  pipe, and at most lets go of an end.
-/

namespace Pipework

/-! ## What enters a pipe -/

/-- The bytes that entered a pipe, of all that entered pipes one after another. -/
def enteredInto (pipe : Nat) (entries : List (Nat × Bytes)) : Bytes :=
  (entries.filter (·.1 == pipe)).flatMap (·.2)

@[simp] theorem enteredInto_nil (pipe : Nat) : enteredInto pipe [] = [] := rfl

@[simp] theorem enteredInto_append (pipe : Nat) (a b : List (Nat × Bytes)) :
    enteredInto pipe (a ++ b) = enteredInto pipe a ++ enteredInto pipe b := by
  simp [enteredInto]

@[simp] theorem enteredInto_self (pipe : Nat) (data : Bytes) : enteredInto pipe [(pipe, data)] = data := by
  simp [enteredInto]

theorem enteredInto_other {pipe other : Nat} (apart : other ≠ pipe) (data : Bytes) :
    enteredInto pipe [(other, data)] = [] := by
  simp [enteredInto, apart]

/-- What a write to a channel enters into pipes. -/
def Channel.entries (c : Channel) (data : Bytes) : List (Nat × Bytes) :=
  match c with
  | .writeEnd pipe => [(pipe, data)]
  | _ => []

/-- A write to anything but the write end of a pipe enters nothing into it. -/
theorem Channel.enteredInto_entries {c : Channel} {pipe : Nat} (other : c ≠ .writeEnd pipe)
    (data : Bytes) : enteredInto pipe (c.entries data) = [] := by
  cases c with
  | writeEnd q => exact enteredInto_other (fun same => other (by rw [same])) data
  | _ => rfl

namespace World

/-! ## Acts -/

/-- What a process may do, and what thereby enters pipes. That it begins to run, and that time passes,
count as acts too. -/
inductive Acts (w : World) : World → List (Nat × Bytes) → Prop where
  | begins (pid : Nat) : w.Acts (w.changeProcess pid fun p => { p with hasRun := true }) []
  | reads {pid : Nat} {p : Process} (found : w.process? pid = some p) (alive : p.alive) (count : Nat) :
    w.Acts (w.consume count p.stdin) []
  | writes {pid : Nat} {p : Process} {c : Channel} {data : Bytes} {w' : World}
    (found : w.process? pid = some p) (alive : p.alive) (own : c = p.stdout ∨ c = p.stderr)
    (delivered : w.deliver? c data = some w') : w.Acts w' (c.entries data)
  | ends {pid : Nat} {p : Process} (found : w.process? pid = some p) (alive : p.alive) (code : Int) :
    w.Acts (w.endProcess pid code) []
  | rests (t : Time) : w.Acts { w with clock := t } []

/-- Any number of acts, one after another. -/
inductive Plays (w : World) : World → List (Nat × Bytes) → Prop where
  | refl : w.Plays w []
  | tail {w₁ w₂ : World} {a b : List (Nat × Bytes)} (played : w.Plays w₁ a) (acts : w₁.Acts w₂ b) :
    w.Plays w₂ (a ++ b)

variable {w w' w₁ w₂ : World} {pid pipe : Nat} {p : Process} {a b entries : List (Nat × Bytes)}

theorem same_of_consume (w : World) (count : Nat) (c : Channel) :
    (w.consume count c).processes = w.processes ∧ (w.consume count c).memory = w.memory := by
  cases c <;> exact ⟨rfl, rfl⟩

theorem same_of_putFile (w : World) (name : Text) (b : Bytes) :
    (w.putFile name b).processes = w.processes ∧ (w.putFile name b).memory = w.memory := by
  unfold putFile
  split <;> exact ⟨rfl, rfl⟩

theorem same_of_deliver? {c : Channel} {data : Bytes} (delivered : w.deliver? c data = some w') :
    w'.processes = w.processes ∧ w'.memory = w.memory := by
  unfold deliver? at delivered
  split at delivered
  · cases delivered
    exact ⟨rfl, rfl⟩
  · cases c with
    | writeEnd q =>
      dsimp only at delivered
      split at delivered <;> cases delivered
      exact ⟨rfl, rfl⟩
    | file k =>
      cases delivered
      unfold writeFile
      split
      · exact ⟨rfl, rfl⟩
      · dsimp only
        split
        · exact ⟨rfl, rfl⟩
        · exact same_of_putFile w _ _
        · exact same_of_putFile w _ _
    | _ =>
      cases delivered
      exact ⟨rfl, rfl⟩

theorem exit?_of_alive (found : w.process? pid = some p) (alive : p.alive) :
    w.exit? pid = some none := by
  rw [exit?, found, Option.map_some, Option.isNone_iff_eq_none.mp alive]

/-- An act is among all that can happen while nobody calls. -/
theorem Acts.runs (acts : w.Acts w' entries) : w.Runs w' := by
  cases acts with
  | begins pid =>
    exact Passes.runs (passes_changeProcess w pid _ (fun _ => rfl) (fun _ => rfl) fun _ => .inl rfl)
  | reads found alive count => exact (passes_consume w count _).runs
  | writes found alive own delivered => exact (passes_deliver? delivered).runs
  | ends found alive code =>
    exact ⟨_, passes_endProcess w _ code (exit?_of_alive found alive), by simp [Event.isExit]⟩
  | rests t => exact Passes.runs (passes_of_same rfl rfl rfl rfl rfl rfl rfl)

/-- Processes do not reach into the memory of the host. -/
theorem Acts.memory (acts : w.Acts w' entries) : w'.memory = w.memory := by
  cases acts with
  | begins pid => rfl
  | reads found alive count => exact (same_of_consume w count _).2
  | writes found alive own delivered => exact (same_of_deliver? delivered).2
  | ends found alive code => rfl
  | rests t => rfl

theorem Plays.one (acts : w.Acts w' entries) : w.Plays w' entries := .tail .refl acts

theorem Plays.trans (first : w.Plays w₁ a) (second : w₁.Plays w₂ b) : w.Plays w₂ (a ++ b) := by
  induction second with
  | refl => simpa using first
  | tail played acts ih =>
    rw [← List.append_assoc]
    exact ih.tail acts

theorem Plays.runs (plays : w.Plays w' entries) : w.Runs w' := by
  induction plays with
  | refl => exact .refl w
  | tail played acts ih => exact ih.trans acts.runs

theorem Plays.memory (plays : w.Plays w' entries) : w'.memory = w.memory := by
  induction plays with
  | refl => rfl
  | tail played acts ih => exact acts.memory.trans ih

/-! ## The system's own schedule -/

/-- A process that runs in one go reads, writes and ends. -/
theorem runProcess_plays (found : w.process? pid = some p) (alive : p.alive) :
    ∃ entries, w.Plays (w.runProcess p) entries := by
  have number := pid_of_process? found
  have begun : ∃ w₁, w.Plays w₁ [] ∧ w₁.process? pid = some { p with hasRun := true } ∧
      w₁ = (w.consume (intake p (w.available p.stdin)) p.stdin).changeProcess p.pid
        fun q => { q with hasRun := true } := by
    refine ⟨_, (Plays.one (.reads found alive _)).tail (.begins p.pid), ?_, rfl⟩
    have change := process?_changeProcess (w.consume (intake p (w.available p.stdin)) p.stdin) p.pid pid
      (fun q => { q with hasRun := true }) fun _ => rfl
    have same : (w.consume (intake p (w.available p.stdin)) p.stdin).process? pid = some p := by
      rw [process?, (same_of_consume w _ _).1]
      exact found
    rw [change, same, Option.map_some, if_pos rfl]
  obtain ⟨w₁, plays, known, begun⟩ := begun
  have ending {w₂ : World} {e : List (Nat × Bytes)} (code : Int) (plays : w.Plays w₂ e)
      (known : w₂.process? pid = some { p with hasRun := true }) :
      ∃ entries, w.Plays (w₂.endProcess p.pid code) entries := by
    rw [number]
    exact ⟨_, plays.tail (.ends known alive code)⟩
  have writing {w₂ w₃ : World} {c : Channel} {data : Bytes} (delivered : w₂.deliver? c data = some w₃)
      (known : w₂.process? pid = some { p with hasRun := true }) :
      w₃.process? pid = some { p with hasRun := true } := by
    rw [process?, (same_of_deliver? delivered).1]
    exact known
  unfold runProcess
  dsimp only
  rw [← begun]
  split
  · exact ending _ plays known
  · next w₂ delivered =>
    have plays := plays.tail (.writes known alive (.inl rfl) delivered)
    have known := writing delivered known
    split
    · exact ending _ plays known
    · next w₃ delivered =>
      have plays := plays.tail (.writes known alive (.inr rfl) delivered)
      have known := writing delivered known
      split
      · exact ⟨_, plays⟩
      · exact ending _ plays known

theorem walk_plays (w : World) (pids : List Nat) : ∃ entries, w.Plays (w.walk pids).1 entries := by
  induction pids generalizing w with
  | nil => exact ⟨_, .refl⟩
  | cons pid rest ih =>
    unfold walk
    split
    · exact ih w
    · next p found =>
      split
      · next ready =>
        simp only [runnable, Process.waiting, Bool.and_eq_true] at ready
        obtain ⟨_, first⟩ := runProcess_plays found ready.1.1.1
        obtain ⟨_, later⟩ := ih (w.runProcess p)
        exact ⟨_, first.trans later⟩
      · exact ih w

theorem settleWithin_plays (walks : Nat) (w : World) :
    ∃ entries, w.Plays (settleWithin walks w) entries := by
  induction walks generalizing w with
  | zero => exact ⟨_, .refl⟩
  | succ walks ih =>
    obtain ⟨_, went⟩ := walk_plays w (w.processes.map (·.pid))
    unfold settleWithin
    dsimp only
    split
    · obtain ⟨_, later⟩ := ih (w.walk (w.processes.map (·.pid))).1
      exact ⟨_, went.trans later⟩
    · exact ⟨_, went⟩

theorem settle_plays (w : World) : ∃ entries, w.Plays w.settle entries := settleWithin_plays _ w

theorem settle_runs (w : World) : w.Runs w.settle := by
  obtain ⟨_, plays⟩ := settle_plays w
  exact plays.runs

/-- Letting time pass until a condition holds is a sequence of acts, and the condition holds in the end
if the answer is that it does. -/
theorem runUntilWithin_plays (condition : World → Bool) (deadline : Option Time) (moves : Nat)
    (w : World) :
    (∃ entries, w.Plays (runUntilWithin condition deadline moves w).2 entries) ∧
      ((runUntilWithin condition deadline moves w).1 = .ok true →
        condition (runUntilWithin condition deadline moves w).2 = true) := by
  induction moves generalizing w with
  | zero => exact ⟨⟨_, .refl⟩, nofun⟩
  | succ moves ih =>
    obtain ⟨_, settled⟩ := settle_plays w
    have moved (t : Time) := settled.tail (.rests t)
    have later (t : Time) (n : Nat) (plays : ∃ entries, Plays { w.settle with clock := t }
        (runUntilWithin condition deadline n { w.settle with clock := t }).2 entries) :
        ∃ entries, w.Plays (runUntilWithin condition deadline n { w.settle with clock := t }).2
          entries := by
      obtain ⟨_, plays⟩ := plays
      exact ⟨_, (moved t).trans plays⟩
    unfold runUntilWithin
    dsimp only
    split
    · next holds => exact ⟨⟨_, settled⟩, fun _ => holds⟩
    · split
      · exact ⟨⟨_, settled⟩, nofun⟩
      · exact ⟨⟨_, moved _⟩, nofun⟩
      · split
        · exact ⟨⟨_, moved _⟩, nofun⟩
        · exact ⟨later _ _ (ih _).1, (ih _).2⟩
      · exact ⟨later _ _ (ih _).1, (ih _).2⟩

end World

/-- Letting time pass only lets processes act, and if it ends with the condition, the condition holds. -/
theorem Sim.exec_runUntil (condition : World → Bool) (limit : Option Time) (w : World) :
    ∃ outcome w' entries, (runUntil condition limit).exec w = (outcome, w') ∧ w.Plays w' entries ∧
      (outcome = .ok true → condition w' = true) := by
  obtain ⟨⟨entries, plays⟩, holds⟩ := World.runUntilWithin_plays condition (limit.map (w.clock + ·))
    (w.processes.countP Process.waiting + 1) w
  refine ⟨_, _, entries, ?_, plays, holds⟩
  simp only [runUntil, exec_bind, exec_world, exec_setWorld, exec_ofExcept]

end Pipework
