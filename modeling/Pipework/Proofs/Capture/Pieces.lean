import Mathlib.Data.List.Infix
import Pipework.Proofs.Exchange.Draining
import Pipework.Proofs.System.Ahead

/-!
# Reading in pieces

Reading to the end waits for the end of the pipe and takes everything. Reading piece by piece takes what is
there, again and again. If no process reads the pipe, then at every moment the rest of the way is the way that
reading to the end would go (`Reader.Underway`), so that piece by piece the same bytes come, and after the last
of them the system is where reading to the end leaves it.
-/

namespace Pipework

open World

namespace World.Ahead

variable {w w' : World} {pipe n d : Nat}

theorem pipeOf? (ahead : w.Ahead pipe n w') (d : Nat) : w'.pipeOf? d = w.pipeOf? d := by
  have descriptors : w'.descriptors = w.descriptors := by rw [ahead.same]; rfl
  rw [World.pipeOf?, World.pipeOf?, List.find?_append, List.find?_append, descriptors, ahead.retired]

theorem refl (w : World) (pipe : Nat) : w.Ahead pipe 0 w where
  same := (ahead_zero w pipe _ _).symm
  there := Nat.zero_le _
  alone := .inl rfl
  retired _ := rfl

theorem content (ahead : w.Ahead pipe n w') (q : Nat) :
    w'.content q = if q = pipe then (w.content q).drop n else w.content q := by
  rw [ahead.same, content_ahead]

theorem hasWriter (ahead : w.Ahead pipe n w') (q : Nat) : w'.hasWriter q = w.hasWriter q := by
  rw [ahead.same]
  rfl

theorem atEnd (ahead : w.Ahead pipe n w') (r : Reader) : r.atEnd w' = r.atEnd w := by
  unfold Reader.atEnd
  rw [ahead.pipeOf?]
  cases w.pipeOf? r.descriptor with
  | none => rfl
  | some q => exact congrArg (!·) (ahead.hasWriter q)

/-- What a reader finds there, in terms of the system behind. -/
private theorem reader_content (ahead : w.Ahead pipe n w') (r : Reader) :
    r.content w' = r.content (w.ahead pipe n w.trace w.retired) := by
  unfold Reader.content
  rw [ahead.pipeOf?]
  change _ = ((w.pipeOf? r.descriptor).map (w.ahead pipe n w.trace w.retired).content).getD []
  cases w.pipeOf? r.descriptor with
  | none => rfl
  | some q => simp only [Option.map_some, ahead.content, content_ahead]

/-- Some more bytes are taken out of the pipe. -/
theorem consume (ahead : w.Ahead pipe n w') (noReader : ∀ p ∈ w.processes, p.holds (.readEnd pipe) = 0)
    (count : Nat) : w.Ahead pipe (n + min count ((w.content pipe).length - n))
      (w'.consume count (.readEnd pipe)) where
  same := by
    have there := ahead.there
    have content := ahead.content pipe
    rw [if_pos rfl] at content
    have pipes : (w.pipes.modify pipe (·.drop n)).set pipe (((w.content pipe).drop n).drop count)
        = w.pipes.modify pipe (·.drop (n + min count ((w.content pipe).length - n))) := by
      refine List.ext_getElem? fun i => ?_
      simp only [List.getElem?_set, List.getElem?_modify, List.length_modify]
      by_cases mine : pipe = i
      · subst mine
        by_cases known : pipe < w.pipes.length
        · have there : w.content pipe = w.pipes[pipe] := by simp [World.content, known]
          simp only [if_true, known, List.getElem?_eq_getElem, Option.map_eq_map, Option.map_some, there,
            List.drop_drop, Option.some.injEq]
          rcases Nat.le_total count (w.pipes[pipe].length - n) with short | long
          · rw [Nat.min_eq_left short]
          · rw [Nat.min_eq_right long, List.drop_eq_nil_of_le (by omega), List.drop_eq_nil_of_le (by omega)]
        · simp [known]
      · simp [mine]
    change w'.setContent pipe ((w'.content pipe).drop count) = _
    rw [content]
    change { w' with pipes := w'.pipes.set pipe _ } = w.ahead pipe _ w'.trace w'.retired
    have same := ahead.same
    generalize w'.trace = trace at same
    generalize w'.retired = retired at same
    subst same
    unfold World.ahead
    dsimp only
    rw [pipes]
  there := by
    have := ahead.there
    omega
  alone := .inr noReader
  retired := ahead.retired

/-- When the bytes are taken out here too, there is no distance left. -/
theorem caughtUp (ahead : w.Ahead pipe n w') : (w.consume n (.readEnd pipe)).Ahead pipe 0 w' where
  same := by
    have pipes : w.pipes.modify pipe (·.drop n) = w.pipes.set pipe ((w.content pipe).drop n) := by
      refine List.ext_getElem? fun i => ?_
      rw [List.getElem?_set, List.getElem?_modify]
      by_cases mine : pipe = i
      · subst mine
        by_cases known : pipe < w.pipes.length <;> simp [World.content, known]
      · simp [mine]
    have same := ahead.same
    rw [World.ahead, pipes] at same
    rw [ahead_zero]
    exact same
  there := Nat.zero_le _
  alone := .inl rfl
  retired := ahead.retired

end World.Ahead

/-- Reading to the end takes what is there when the end has come. -/
theorem Reader.exec_readAll_eq {r : Reader} {w : World} {pipe : Nat} (isOpen : r.closed = false)
    (leads : w.pipeOf? r.descriptor = some pipe) : r.readAll.exec w =
      match (runUntil r.atEnd none).exec w with
      | (.ok _, v) => (.ok (v.content pipe), v.consume (v.content pipe).length (.readEnd pipe))
      | (.error e, v) => (.error e, v) := by
  obtain ⟨outcome, v, _, waited, plays, -⟩ := Sim.exec_runUntil r.atEnd none w
  have leads : v.pipeOf? r.descriptor = some pipe := plays.pipeOf?.trans leads
  simp only [readAll, checkOpen, isOpen, Bool.false_eq_true, if_false, Sim.exec_bind, Sim.exec_pure, waited]
  cases outcome with
  | error e => rfl
  | ok _ => simp only [Sim.exec_get, exec_take leads, content_of leads, List.take_length]

/-- Reading a handle is reading its stdout. -/
theorem Handle.exec_read_of_output {h : Handle} {r : Reader} (output : h.stdout = some r) (w : World) :
    Handle.read.exec h w = ((r.readAll.exec w).1, h, (r.readAll.exec w).2) := by
  simp only [Handle.read, Owning.exec_bind, Owning.exec_own, output, Owning.exec_lift]

/-- A reader is on its way: it has taken some bytes out of its pipe. Had it not, the system would be in `u`, and
from there to wait for the end of the pipe comes to `ending`. -/
structure Reader.Underway (r : Reader) (pipe : Nat) (ending : Except Failure Bool × World) (u : World) (n : Nat)
    (w : World) : Prop where
  ahead : u.Ahead pipe n w
  route : (runUntil r.atEnd none).exec u = ending
  leads : u.pipeOf? r.descriptor = some pipe
  known : pipe < u.pipes.length
  noReader : ∀ p ∈ u.processes, p.holds (.readEnd pipe) = 0

namespace Reader.Underway

variable {r : Reader} {pipe n : Nat} {ending : Except Failure Bool × World} {u v w : World}

/-- What is in the pipe is the start of what there will be. -/
theorem content_prefix (underway : r.Underway pipe ending u n w) : u.content pipe <+: ending.2.content pipe := by
  obtain ⟨_, _, _, ran, plays, -⟩ := Sim.exec_runUntil r.atEnd none u
  rw [← underway.route, ran, (plays.gains_entries underway.noReader).content underway.known]
  exact List.prefix_append _ _

theorem length_le (underway : r.Underway pipe ending u n w) : n ≤ (ending.2.content pipe).length :=
  Nat.le_trans underway.ahead.there underway.content_prefix.length_le

/-- At first it has taken nothing. -/
theorem start (leads : w.pipeOf? r.descriptor = some pipe) (known : pipe < w.pipes.length)
    (noReader : ∀ p ∈ w.processes, p.holds (.readEnd pipe) = 0) :
    r.Underway pipe ((runUntil r.atEnd none).exec w) w 0 w :=
  ⟨.refl w pipe, rfl, leads, known, noReader⟩

/-- What reading a piece waits for: something to read, or the end. -/
private def wanted (r : Reader) (w : World) : Bool := !(r.content w).isEmpty || r.atEnd w

/-- The same, where the reader has not taken anything yet. -/
private def wantedBehind (r : Reader) (pipe n : Nat) (v : World) : Bool :=
  wanted r (v.ahead pipe n v.trace v.retired)

private theorem wanted_ahead (ahead : v.Ahead pipe n w) : wanted r w = wantedBehind r pipe n v := by
  unfold wantedBehind wanted
  rw [ahead.reader_content r, ahead.atEnd r]
  rfl

private theorem exec_readSome_of_waited {outcome : Except Failure Bool} (isOpen : r.closed = false)
    (waited : (runUntil (wanted r) none).exec w = (outcome, v)) (most : Nat) :
    (r.readSome most).exec w = ((do let _ ← Sim.ofExcept outcome; r.take most) : Sim Bytes).exec v := by
  have waited : (runUntil (fun w => !(r.content w).isEmpty || r.atEnd w) none).exec w = (outcome, v) := waited
  simp only [Reader.readSome, checkOpen, isOpen, Bool.false_eq_true, if_false, Sim.exec_bind, Sim.exec_pure,
    waited, Sim.exec_ofExcept]

/-- When the system has come to `v` on its way, the reader takes a part of what is there, and is underway from `v`. -/
private theorem takes (underway : r.Underway pipe ending u n w) {entries : List (Nat × Bytes)}
    (plays : u.Plays v entries) (rest : (runUntil r.atEnd none).exec v = (runUntil r.atEnd none).exec u)
    {w₁ : World} (ahead : v.Ahead pipe n w₁) (most : Nat) :
    (r.take most).exec w₁ = (.ok (((v.content pipe).drop n).take most), w₁.consume most (.readEnd pipe)) ∧
      r.Underway pipe ending v (n + (((v.content pipe).drop n).take most).length)
        (w₁.consume most (.readEnd pipe)) := by
  have leads : v.pipeOf? r.descriptor = some pipe := plays.pipeOf?.trans underway.leads
  have gains := plays.gains_entries underway.noReader
  have noReader : ∀ p ∈ v.processes, p.holds (.readEnd pipe) = 0 := by
    intro p member
    obtain ⟨q, known, fewer⟩ := gains.processes p member
    exact Nat.eq_zero_of_le_zero (underway.noReader q known ▸ fewer _)
  have content := ahead.content pipe
  rw [if_pos rfl] at content
  constructor
  · rw [exec_take ((ahead.pipeOf? _).trans leads), content]
  · rw [List.length_take, List.length_drop]
    exact ⟨ahead.consume noReader most, rest.trans underway.route, leads,
      Nat.lt_of_lt_of_le underway.known gains.pipes, noReader⟩

/-- The next piece is the next part of what there will be. It is empty only at the end. Where no piece comes,
the end never comes. -/
theorem readSome (underway : r.Underway pipe ending u n w) (isOpen : r.closed = false) {most : Nat}
    (positive : 0 < most) :
    (∃ piece v w', (r.readSome most).exec w = (.ok piece, w') ∧ piece <+: (ending.2.content pipe).drop n ∧
      r.Underway pipe ending v (n + piece.length) w' ∧
      (piece = [] → ending = (.ok true, v) ∧ n = (ending.2.content pipe).length)) ∨
    ∃ w', (r.readSome most).exec w = (.error .deadlock, w') ∧ ending.1 = .error .deadlock := by
  have weaker (v : World) (atEnd : r.atEnd v = true) : wantedBehind r pipe n v = true :=
    Bool.or_eq_true_iff.mpr (.inr atEnd)
  have same (v v' : World) (ahead : v.Ahead pipe n v') : wanted r v' = wantedBehind r pipe n v :=
    wanted_ahead ahead
  have both := Sim.exec_runUntil_ahead underway.ahead same none
  generalize waited : (runUntil (wanted r) none).exec w = result at both
  obtain ⟨outcome, w₁⟩ := result
  have read := exec_readSome_of_waited isOpen waited most
  obtain ⟨v, ⟨stops, holds, settled, rest⟩ | ⟨stuck, end_stuck⟩⟩ := Sim.exec_runUntil_resume weaker u
  · rw [stops] at both
    obtain ⟨rfl, ahead⟩ := both
    dsimp only at ahead read
    rw [Sim.exec_bind, Sim.exec_ofExcept] at read
    dsimp only at read
    obtain ⟨_, _, _, ran, plays, -⟩ := Sim.exec_runUntil (wantedBehind r pipe n) none u
    rw [stops] at ran
    cases ran
    obtain ⟨taken, next⟩ := underway.takes plays rest ahead most
    have leads := next.leads
    have content := ahead.content pipe
    rw [if_pos rfl] at content
    rw [taken] at read
    have part := (List.take_prefix most _).trans (List.IsPrefix.drop next.content_prefix n)
    refine .inl ⟨_, v, _, read, part, next, fun empty => ?_⟩
    have none : (v.content pipe).drop n = [] := by simpa [Nat.ne_of_gt positive] using empty
    have atEnd : r.atEnd v = true := by
      rcases Bool.or_eq_true_iff.mp holds with full | atEnd
      · rw [← ahead.reader_content r, content_of ((ahead.pipeOf? _).trans leads), content, none] at full
        cases full
      · exact atEnd
    have ends : ending = (.ok true, v) := by
      rw [← underway.route, ← rest, Sim.exec_runUntil_of_settled (by rwa [settled]), settled]
    refine ⟨ends, Nat.le_antisymm underway.length_le ?_⟩
    rw [ends]
    exact List.drop_eq_nil_iff.mp none
  · rw [stuck] at both
    obtain ⟨rfl, -⟩ := both
    exact .inr ⟨w₁, read, by rw [← underway.route, end_stuck]⟩

end Reader.Underway

end Pipework
