import Pipework.Proofs.System.Acts
import Pipework.Proofs.System.Descriptors
import Pipework.Proofs.System.Processes
import Pipework.System.Ends

/-!
# Seen from a pipe

What a step of the system does is mostly of no concern to a given pipe. No step gives anybody an end that
nobody had (`World.Releases`), and where the step takes nothing out of the pipe, some bytes enter and that
is all (`World.Gains`). What matters about a pipe then lasts: that nobody but its owner has an end of it
(`Exclusive`), and that nothing is in it and nothing can come (`Ended`). So does where a descriptor leads, also when
it is given up (`Keeps`).
-/

namespace Pipework

/-- A living process holds the channels of its streams. -/
theorem Process.holds_ne_zero {p : Process} {c : Channel} (alive : p.alive)
    (stream : c ∈ [p.stdin, p.stdout, p.stderr]) : p.holds c ≠ 0 := by
  rw [holds, if_pos alive]
  exact Nat.ne_of_gt (List.count_pos_iff.mpr stream)

namespace World

/-- At most some ends of a pipe are let go, and nobody gets one. -/
structure Releases (pipe : Nat) (w w' : World) : Prop where
  pipes : w.pipes.length ≤ w'.pipes.length
  descriptors : ∀ x ∈ w'.descriptors, x.2.pipe? = some pipe → x ∈ w.descriptors
  processes : ∀ p' ∈ w'.processes, ∃ p ∈ w.processes, ∀ c, p'.holds c ≤ p.holds c

/-- Seen from a pipe, some bytes enter it, and at most some of its ends are let go. -/
structure Gains (pipe : Nat) (bytes : Bytes) (w w' : World) : Prop extends Releases pipe w w' where
  content : pipe < w.pipes.length → w'.content pipe = w.content pipe ++ bytes

/-- If anybody has a channel, it is the owner of a descriptor, under that descriptor. -/
structure Exclusive (w : World) (d : Nat) (c : Channel) : Prop where
  descriptors : ∀ x ∈ w.descriptors, x.2 = c → x.1 = d
  processes : ∀ p ∈ w.processes, p.holds c = 0

/-- A pipe is empty, and nobody can write to it any more. -/
structure Ended (w : World) (pipe : Nat) : Prop where
  content : w.content pipe = []
  noWriter : w.hasWriter pipe = false

/-- A change that has nothing to do with some pipes, as far as these can tell. -/
structure Elsewhere (pipes : Nat → Prop) (w w' : World) : Prop where
  processes : w'.processes = w.processes
  content : ∀ pipe, pipes pipe → w'.content pipe = w.content pipe
  length : w.pipes.length ≤ w'.pipes.length
  descriptors : ∀ pipe, pipes pipe → ∀ x ∈ w'.descriptors, x.2.pipe? = some pipe → x ∈ w.descriptors

variable {w w' w₁ w₂ : World} {pipe other d : Nat} {c : Channel} {bytes more : Bytes}
  {entries : List (Nat × Bytes)}

/-! ## Holders -/

theorem holders_eq_zero_iff :
    w.holders c = 0 ↔ (∀ x ∈ w.descriptors, x.2 ≠ c) ∧ ∀ p ∈ w.processes, p.holds c = 0 := by
  rw [holders, ← List.sum_eq_foldr, Nat.add_eq_zero_iff, List.countP_eq_zero,
    List.sum_eq_zero_iff_forall_eq_nat]
  simp

theorem hasWriter_eq_false_iff : w.hasWriter pipe = false ↔ w.holders (.writeEnd pipe) = 0 := by
  simp [hasWriter]

/-- When the owner of an end gives up its descriptor, nobody has the end. -/
theorem Exclusive.shut (exclusive : w.Exclusive d c) : (w.shut d).holders c = 0 := by
  refine holders_eq_zero_iff.mpr ⟨fun x member same => ?_, exclusive.processes⟩
  obtain ⟨isOpen, other⟩ := List.mem_filter.mp member
  simp [exclusive.descriptors x isOpen same] at other

/-! ## What lasts -/

theorem Releases.holders (releases : Releases pipe w w') (isEnd : c.pipe? = some pipe)
    (none : w.holders c = 0) : w'.holders c = 0 := by
  rw [holders_eq_zero_iff] at none ⊢
  refine ⟨fun x member same => ?_, fun p member => ?_⟩
  · exact none.1 x (releases.descriptors x member (same ▸ isEnd)) same
  · obtain ⟨q, known, fewer⟩ := releases.processes p member
    exact Nat.eq_zero_of_le_zero (none.2 q known ▸ fewer c)

theorem Exclusive.releases (exclusive : w.Exclusive d c) (isEnd : c.pipe? = some pipe)
    (releases : Releases pipe w w') : w'.Exclusive d c where
  descriptors x member same :=
    exclusive.descriptors x (releases.descriptors x member (same ▸ isEnd)) same
  processes p member := by
    obtain ⟨q, known, fewer⟩ := releases.processes p member
    exact Nat.eq_zero_of_le_zero (exclusive.processes q known ▸ fewer c)

theorem Ended.gains (ended : w.Ended pipe) (gains : Gains pipe [] w w')
    (known : pipe < w.pipes.length) : w'.Ended pipe where
  content := by rw [gains.content known, ended.content, List.append_nil]
  noWriter := hasWriter_eq_false_iff.mpr
    (gains.holders rfl (hasWriter_eq_false_iff.mp ended.noWriter))

/-! ## What steps are to a pipe -/

theorem content_setContent_other (w : World) (b : Bytes) (apart : pipe ≠ other) :
    (w.setContent other b).content pipe = w.content pipe := by
  simp [content, setContent, List.getElem?_set_ne (Ne.symm apart)]

theorem content_setContent (w : World) (b : Bytes) (known : pipe < w.pipes.length) :
    (w.setContent other b).content pipe = if pipe = other then b else w.content pipe := by
  by_cases same : pipe = other
  · subst same
    simp [content, setContent, known]
  · rw [if_neg same, content_setContent_other w b same]

theorem gains_of_same (pipes : w'.pipes = w.pipes) (descriptors : w'.descriptors = w.descriptors)
    (processes : w'.processes = w.processes) : Gains pipe [] w w' where
  pipes := Nat.le_of_eq (by rw [pipes])
  descriptors _ member _ := descriptors ▸ member
  processes p member := ⟨p, processes ▸ member, fun _ => Nat.le_refl _⟩
  content _ := by simp [content, pipes]

theorem Gains.refl : Gains pipe [] w w := gains_of_same rfl rfl rfl

theorem Releases.trans (first : Releases pipe w w₁) (second : Releases pipe w₁ w₂) : Releases pipe w w₂ where
  pipes := Nat.le_trans first.pipes second.pipes
  descriptors x member isEnd := first.descriptors x (second.descriptors x member isEnd) isEnd
  processes p member := by
    obtain ⟨q, known, fewer⟩ := second.processes p member
    obtain ⟨r, before, more⟩ := first.processes q known
    exact ⟨r, before, fun c => Nat.le_trans (fewer c) (more c)⟩

theorem Gains.trans (first : Gains pipe bytes w w₁) (second : Gains pipe more w₁ w₂) :
    Gains pipe (bytes ++ more) w w₂ where
  toReleases := first.toReleases.trans second.toReleases
  content known := by
    rw [second.content (Nat.lt_of_lt_of_le known first.pipes), first.content known, List.append_assoc]

theorem gains_shut : Gains pipe [] w (w.shut d) where
  pipes := Nat.le_refl _
  descriptors _ member _ := (List.mem_filter.mp member).1
  processes p member := ⟨p, member, fun _ => Nat.le_refl _⟩
  content _ := (List.append_nil _).symm

/-- A change of one process after which it holds no more than before. -/
theorem gains_changeProcess {pid : Nat} {f : Process → Process}
    (fewer : ∀ p c, (f p).holds c ≤ p.holds c) : Gains pipe [] w (w.changeProcess pid f) where
  pipes := Nat.le_refl _
  descriptors _ member _ := member
  processes p' member := by
    obtain ⟨p, known, rfl⟩ := List.mem_map.mp member
    refine ⟨p, known, fun c => ?_⟩
    split
    · exact fewer p c
    · exact Nat.le_refl _
  content _ := (List.append_nil _).symm

theorem gains_notice {pid : Nat} : Gains pipe [] w (w.notice pid) :=
  gains_changeProcess fun _ _ => Nat.le_refl _

theorem gains_endProcess {pid : Nat} {code : Int} : Gains pipe [] w (w.endProcess pid code) := by
  have changed : Gains pipe [] w (w.changeProcess pid fun p => { p with exit := some code }) :=
    gains_changeProcess fun p c => by simp [Process.holds, Process.alive]
  exact ⟨⟨changed.pipes, changed.descriptors, changed.processes⟩, changed.content⟩

theorem releases_setContent {b : Bytes} : Releases pipe w (w.setContent other b) where
  pipes := Nat.le_of_eq (List.length_set ..).symm
  descriptors _ member _ := member
  processes p member := ⟨p, member, fun _ => Nat.le_refl _⟩

theorem gains_consume {count : Nat} (other : c ≠ .readEnd pipe) :
    Gains pipe [] w (w.consume count c) := by
  cases c with
  | readEnd q =>
    have apart : pipe ≠ q := fun same => other (by rw [same])
    refine ⟨releases_setContent, fun known => ?_⟩
    rw [consume, content_setContent w _ known, if_neg apart, List.append_nil]
  | file k => exact gains_of_same rfl rfl rfl
  | _ => exact .refl

theorem releases_consume {count : Nat} : Releases pipe w (w.consume count c) := by
  cases c with
  | readEnd q => exact releases_setContent
  | _ => exact Gains.toReleases (gains_consume nofun)

theorem gains_deliver? {data : Bytes} (delivered : w.deliver? c data = some w') :
    Gains pipe (enteredInto pipe (c.entries data)) w w' := by
  have put (w : World) (name : Text) (b : Bytes) : Gains pipe [] w (w.putFile name b) := by
    unfold putFile
    split <;> exact gains_of_same rfl rfl rfl
  unfold deliver? at delivered
  split at delivered
  · next empty =>
    cases delivered
    rw [List.isEmpty_iff] at empty
    cases c with
    | writeEnd q =>
      have nothing : enteredInto pipe (Channel.entries (.writeEnd q) data) = [] := by
        simp [Channel.entries, enteredInto, empty]
      rw [nothing]
      exact .refl
    | _ => exact .refl
  · cases c with
    | writeEnd q =>
      dsimp only at delivered
      split at delivered <;> cases delivered
      refine ⟨releases_setContent, fun known => ?_⟩
      rw [content_setContent w _ known]
      split
      · next same => rw [same, Channel.entries, enteredInto_self]
      · next apart => rw [Channel.entries, enteredInto_other (Ne.symm apart), List.append_nil]
    | file k =>
      cases delivered
      unfold writeFile
      split
      · exact .refl
      · next o _ =>
        dsimp only
        split
        · exact .refl
        · exact put _ _ _
        · have written := put w o.name (Memory.splice ((w.file? o.name).getD []) o.position data)
          exact ⟨⟨written.pipes, written.descriptors, written.processes⟩, written.content⟩
    | hostOutput | hostError =>
      cases delivered
      exact gains_of_same rfl rfl rfl
    | _ =>
      cases delivered
      exact .refl

/-- An act of a process enters bytes into a pipe that no process can read. -/
theorem Acts.gains (acts : w.Acts w' entries)
    (noReader : ∀ p ∈ w.processes, p.holds (.readEnd pipe) = 0) :
    Gains pipe (enteredInto pipe entries) w w' := by
  cases acts with
  | begins pid => exact gains_changeProcess fun _ _ => Nat.le_refl _
  | reads found alive count =>
    refine gains_consume fun same => ?_
    exact Process.holds_ne_zero alive (by simp [same]) (noReader _ (List.mem_of_find?_eq_some found))
  | writes found alive own delivered => exact gains_deliver? delivered
  | ends found alive code => exact gains_endProcess
  | rests t => exact gains_of_same rfl rfl rfl

theorem Acts.releases (acts : w.Acts w' entries) : Releases pipe w w' := by
  cases acts with
  | begins pid => exact Gains.toReleases (gains_changeProcess fun _ _ => Nat.le_refl _)
  | reads found alive count => exact releases_consume
  | writes found alive own delivered => exact (gains_deliver? delivered).toReleases
  | ends found alive code => exact gains_endProcess.toReleases
  | rests t => exact Gains.toReleases (gains_of_same rfl rfl rfl)

theorem Plays.releases (plays : w.Plays w' entries) : Releases pipe w w' := by
  induction plays with
  | refl => exact Gains.toReleases .refl
  | tail _ acts ih => exact ih.trans acts.releases

/-- Where no process has the write end of a pipe, acts enter nothing into it. -/
theorem Acts.silent (acts : w.Acts w' entries)
    (noWriter : ∀ p ∈ w.processes, p.holds (.writeEnd pipe) = 0) : enteredInto pipe entries = [] := by
  cases acts with
  | @writes _ p c data _ found alive own delivered =>
    refine Channel.enteredInto_entries (fun same => ?_) data
    have stream : c ∈ [p.stdin, p.stdout, p.stderr] := by
      rcases own with rfl | rfl <;> simp
    exact Process.holds_ne_zero alive (same ▸ stream) (noWriter p (List.mem_of_find?_eq_some found))
  | _ => rfl

/-- What enters a pipe while processes act that do not read it. -/
theorem Plays.gains_entries (plays : w.Plays w' entries)
    (noReader : ∀ p ∈ w.processes, p.holds (.readEnd pipe) = 0) :
    Gains pipe (enteredInto pipe entries) w w' := by
  induction plays with
  | refl => exact .refl
  | tail played acts ih =>
    rw [enteredInto_append]
    refine ih.trans (acts.gains fun p member => ?_)
    obtain ⟨q, known, fewer⟩ := ih.processes p member
    exact Nat.eq_zero_of_le_zero (noReader q known ▸ fewer _)

/-- Where no process has an end of a pipe, acts do nothing to it. -/
theorem Plays.gains (plays : w.Plays w' entries)
    (noReader : ∀ p ∈ w.processes, p.holds (.readEnd pipe) = 0)
    (noWriter : ∀ p ∈ w.processes, p.holds (.writeEnd pipe) = 0) : Gains pipe [] w w' := by
  induction plays with
  | refl => exact .refl
  | tail played acts ih =>
    have still {c : Channel} (none : ∀ p ∈ w.processes, p.holds c = 0) :=
      fun p member => let ⟨q, known, fewer⟩ := ih.processes p member
        Nat.eq_zero_of_le_zero (none q known ▸ fewer c)
    have last := acts.gains (still noReader)
    rw [acts.silent (still noWriter)] at last
    exact ih.trans last

theorem Elsewhere.gains {pipes : Nat → Prop} (apart : Elsewhere pipes w w') (own : pipes pipe) :
    Gains pipe [] w w' where
  pipes := apart.length
  descriptors := apart.descriptors pipe own
  processes p member := ⟨p, apart.processes ▸ member, fun _ => Nat.le_refl _⟩
  content _ := by rw [apart.content pipe own, List.append_nil]

/-! ## Where descriptors lead -/

/-- What a descriptor leads to, it has led to before it was given up. -/
theorem pipeOf?_of_channel? {c : Channel} (leads : w.channel? d = some c) : w.pipeOf? d = c.pipe? := by
  obtain ⟨x, found, rfl⟩ := Option.map_eq_some_iff.mp leads
  have same : (fun x : Nat × Channel => (x.1 : Int) == (d : Int)) = fun x => x.1 == d := by
    funext x
    exact Bool.eq_iff_iff.mpr (by rw [beq_iff_eq, beq_iff_eq]; exact Int.ofNat_inj)
  rw [same] at found
  rw [pipeOf?, List.find?_append, found, Option.some_or]
  obtain ⟨_, c⟩ := x
  cases c <;> rfl

theorem pipeOf?_of_same (descriptors : w'.descriptors = w.descriptors)
    (retired : w'.retired = w.retired) : w'.pipeOf? d = w.pipeOf? d := by
  rw [pipeOf?, pipeOf?, descriptors, retired]

theorem Plays.pipeOf? (plays : w.Plays w' entries) : w'.pipeOf? d = w.pipeOf? d := by
  obtain ⟨_, passes, -⟩ := plays.runs
  exact pipeOf?_of_same passes.descriptors passes.retired

/-- Also a descriptor that is given up is still known for what it led to. -/
theorem pipeOf?_shut (other : Nat) : (w.shut other).pipeOf? d = w.pipeOf? d := by
  have found : ((w.shut other).descriptors ++ (w.shut other).retired).find? (·.1 == d)
      = (w.descriptors ++ w.retired).find? (·.1 == d) := by
    change (w.descriptors.filter (·.1 != other)
      ++ (w.descriptors.filter (·.1 == other) ++ w.retired)).find? (·.1 == d) = _
    rw [List.find?_append, List.find?_append, List.find?_append, List.find?_filter, List.find?_filter,
      ← Option.or_assoc]
    congr 1
    have empty : w.descriptors.find? (fun _ => false) = none := List.find?_eq_none.mpr (by simp)
    by_cases same : d = other
    · subst same
      have none : (fun x : Nat × Channel => decide (x.1 != d ∧ x.1 == d)) = fun _ => false := by
        funext x
        simp
      have all : (fun x : Nat × Channel => decide (x.1 == d ∧ x.1 == d)) = fun x => x.1 == d := by
        funext x
        by_cases here : x.1 = d <;> simp [here]
      rw [none, all, empty, Option.none_or]
    · have all : (fun x : Nat × Channel => decide (x.1 != other ∧ x.1 == d)) = fun x => x.1 == d := by
        funext x
        by_cases here : x.1 = d <;> simp [here, same]
      have none : (fun x : Nat × Channel => decide (x.1 == other ∧ x.1 == d)) = fun _ => false := by
        funext x
        by_cases here : x.1 = d <;> simp [here, same]
      rw [none, all, empty, Option.or_none]
  rw [pipeOf?, pipeOf?, found]

/-- What the caller relies on: its descriptors and those of its pumps lead where they did, also after they
were given up, and its processes are there. -/
structure Keeps (w w' : World) : Prop where
  pipeOf? : ∀ d, w'.pipeOf? d = w.pipeOf? d
  known : ∀ pid, (w.exit? pid).isSome → (w'.exit? pid).isSome

theorem Keeps.refl (w : World) : w.Keeps w := ⟨fun _ => rfl, fun _ => id⟩

theorem Keeps.trans {w₁ w₂ : World} (first : w.Keeps w₁) (second : w₁.Keeps w₂) : w.Keeps w₂ :=
  ⟨fun d => (second.pipeOf? d).trans (first.pipeOf? d), fun pid => second.known pid ∘ first.known pid⟩

theorem keeps_of_same (descriptors : w'.descriptors = w.descriptors) (retired : w'.retired = w.retired)
    (processes : w'.processes = w.processes) : w.Keeps w' :=
  ⟨fun _ => pipeOf?_of_same descriptors retired, fun pid known => by
    rwa [exit?, process?, processes]⟩

theorem Passes.keeps {events : List Event} (passes : w.Passes w' events) : w.Keeps w' where
  pipeOf? _ := pipeOf?_of_same passes.descriptors passes.retired
  known pid known := by
    rcases passes.exits pid with ⟨same, -⟩ | ⟨-, _, ended, -⟩
    · rwa [same]
    · rw [ended]
      rfl

theorem keeps_shut (d : Nat) : w.Keeps (w.shut d) := ⟨fun _ => pipeOf?_shut d, fun _ => id⟩

end World

end Pipework
