import Pipework.Capture
import Pipework.Proofs.Capture.Pieces
import Pipework.Proofs.Text.Lines

/-!
# Taking lines

Lines are taken from a reader whose pipe no process reads. If none is left in the end, they are the lines of
everything that has come, with its line ends folded, and the system is where reading to the end would have
left it. What can come in between is that the caller stops, that the bytes are no text in the coding, or that
the end never comes (`Engine.Takes`). The number of steps that taking lines is given is always enough.
-/

namespace Pipework

namespace Engine

open World

/-- A line as it is handed out. -/
def asTaken (keepsEnds : Bool) (line : Text) : Text := if keepsEnds then line else line.chomp

/-- What taking lines comes to, when waiting for the end of the pipe comes to `ending`. -/
inductive Takes (coding : Coding) (keepsEnds : Bool) (limit : Option Nat) (pipe : Nat)
    (ending : Except Failure Bool × World) : Except Failure Bool → LineState → World → Prop
  /-- No line is left. All bytes have been read, and every line of them has been handed out. -/
  | all {s : LineState} {v w : World} {t : Text} (reached : ending = (.ok true, v))
    (decoded : coding.decode? (v.content pipe) = some t)
    (taken : s.taken = t.foldLineEnds.lines.map (asTaken keepsEnds))
    (ahead : v.Ahead pipe (v.content pipe).length w) : Takes coding keepsEnds limit pipe ending (.ok true) s w
  /-- As many lines are out as the caller wants. -/
  | enough {s : LineState} {w : World} (limited : limit ≠ none) :
    Takes coding keepsEnds limit pipe ending (.ok false) s w
  /-- The bytes are no text in the coding. -/
  | malformed {s : LineState} {w : World} (undecodable : coding.decode? (ending.2.content pipe) = none) :
    Takes coding keepsEnds limit pipe ending (.error .decoding) s w
  /-- The end never comes. -/
  | stuck {s : LineState} {w : World} (deadlock : ending.1 = .error .deadlock) :
    Takes coding keepsEnds limit pipe ending (.error .deadlock) s w

variable {coding : Coding} {keepsEnds : Bool} {limit : Option Nat} {pipe n : Nat} {r : Reader}
variable {ending : Except Failure Bool × World} {u w : World} {s : LineState} {out : List Text}

/-- What taking fewer lines comes to, after some of them are out. -/
theorem Takes.ofFewer {fewer : Option Nat} {outcome : Except Failure Bool}
    (takes : Takes coding keepsEnds fewer pipe ending outcome s w) (limited : fewer ≠ none → limit ≠ none) :
    Takes coding keepsEnds limit pipe ending outcome s w := by
  cases takes with
  | all reached decoded taken ahead => exact .all reached decoded taken ahead
  | enough some => exact .enough (limited some)
  | malformed undecodable => exact .malformed undecodable
  | stuck deadlock => exact .stuck deadlock

/-- Where taking lines stands: the reader has taken some bytes, the line reader has read them, and some lines
have been cut off and handed out. -/
structure Taking (coding : Coding) (keepsEnds : Bool) (pipe : Nat) (r : Reader)
    (ending : Except Failure Bool × World) (u : World) (n : Nat) (w : World) (out : List Text) (s : LineState) :
    Prop where
  underway : r.Underway pipe ending u n w
  follows : s.lines.Follows coding ((ending.2.content pipe).take n) out.flatten
  taken : s.taken = out.map (asTaken keepsEnds)
  /-- Whatever comes, the lines that are out are the first ones. -/
  first : ∀ t, (s.lines.ended = true → t = []) →
    Text.lines (out.flatten ++ (s.lines.ready ++ t)) = out ++ Text.lines (s.lines.ready ++ t)
  /-- The end is known to be there only when it is. -/
  last : s.lines.ended = true → ending = (.ok true, u) ∧ n = (ending.2.content pipe).length

namespace Taking

/-- How many steps are left at most: a step cuts off a line, or reads a piece, or finds the end. -/
def left (ending : Except Failure Bool × World) (pipe n : Nat) (out : List Text) (s : LineState) : Nat :=
  ((ending.2.content pipe).length - n) + ((ending.2.content pipe).length - out.flatten.length) +
    if s.lines.ended then 0 else 1

variable (taking : Taking coding keepsEnds pipe r ending u n w out s)
include taking

/-- There is no more text than bytes. -/
theorem length_le : out.flatten.length + s.lines.ready.length ≤ (ending.2.content pipe).length := by
  have bound := taking.follows.length_le
  rw [List.length_take] at bound
  omega

/-- A line is handed out. -/
theorem pop {line : Text} {rest : Text} (split : s.lines.ready = line ++ rest) (some : line ≠ [])
    (isLine : (∃ start, .char '\n' ∉ start ∧ line = start ++ [.char '\n']) ∨
      s.lines.ended = true ∧ .char '\n' ∉ line ∧ rest = []) :
    let s' : LineState := ⟨{ s.lines with ready := rest }, asTaken keepsEnds line :: s.newestFirst⟩
    Taking coding keepsEnds pipe r ending u n w (out ++ [line]) s' ∧
      left ending pipe n (out ++ [line]) s' < left ending pipe n out s := by
  have flat : (out ++ [line]).flatten = out.flatten ++ line := by simp
  refine ⟨⟨taking.underway, ?_, ?_, fun t ends => ?_, taking.last⟩, ?_⟩
  · rw [flat]
    exact taking.follows.pop split
  · have taken := taking.taken
    simp only [LineState.taken, List.reverse_cons, List.map_append, List.map_cons, List.map_nil] at taken ⊢
    rw [taken]
  · have first := taking.first t ends
    rw [split, List.append_assoc] at first
    rw [flat, List.append_assoc, first, List.append_assoc]
    rcases isLine with ⟨start, noFeed, rfl⟩ | ⟨ended, noFeed, rfl⟩
    · rw [List.append_assoc, List.singleton_append, Text.lines_line noFeed, List.singleton_append]
    · obtain rfl := ends ended
      simp only [List.append_nil, Text.lines_last noFeed some]
      rfl
  · have bound := taking.length_le
    have longer : 0 < line.length := List.length_pos_iff.mpr some
    rw [split, List.length_append] at bound
    simp only [left, flat, List.length_append]
    omega

/-- When nothing is ready and nothing comes any more, all lines are out. -/
theorem all (ended : s.lines.ended = true) (empty : s.lines.ready = []) (limit : Option Nat) :
    Takes coding keepsEnds limit pipe ending (.ok true) s w := by
  obtain ⟨reached, whole⟩ := taking.last ended
  have first := taking.first [] fun _ => rfl
  have ahead := taking.underway.ahead
  rw [empty, List.append_nil, List.append_nil] at first
  cases follows : taking.follows with
  | reading still => exact nomatch still.symm.trans ended
  | @done t _ decoded folded =>
    rw [empty, List.append_nil] at folded
    rw [whole, List.take_length, reached] at decoded
    rw [whole, reached] at ahead
    refine .all reached decoded ?_ ahead
    rw [taking.taken, ← folded, first]
    simp [Text.lines, splitAfter]

/-- A piece is read and taken in, or the bytes are no text, or the end never comes. -/
theorem read (isOpen : r.closed = false) (still : s.lines.ended = false) :
    (∃ piece v w' lines, (r.readSome linePiece).exec w = (.ok piece, w') ∧ s.lines.push? piece = some lines ∧
      Taking coding keepsEnds pipe r ending v (n + piece.length) w' out { s with lines } ∧
      left ending pipe (n + piece.length) out { s with lines } < left ending pipe n out s) ∨
    (∃ piece w', (r.readSome linePiece).exec w = (.ok piece, w') ∧ s.lines.push? piece = none ∧
      coding.decode? (ending.2.content pipe) = none) ∨
    ∃ w', (r.readSome linePiece).exec w = (.error .deadlock, w') ∧ ending.1 = .error .deadlock := by
  rcases taking.underway.readSome isOpen (by decide : 0 < linePiece) with
    ⟨piece, v, w', read, part, underway, atEnd⟩ | stuck
  · obtain ⟨rest, whole⟩ := part
    have taken : (ending.2.content pipe).take (n + piece.length) = (ending.2.content pipe).take n ++ piece := by
      rw [List.take_add, ← whole, List.take_left']
      rfl
    rcases taking.follows.push still piece with
      ⟨lines, pushed, follows, ended, more, ready⟩ | ⟨refused, malformed⟩
    · refine .inl ⟨piece, v, w', lines, read, pushed, ⟨underway, taken ▸ follows, taking.taken, fun t ends => ?_,
        fun isEnd => ?_⟩, ?_⟩
      · have first := taking.first (more ++ t) (fun ended => nomatch still.symm.trans ended)
        rwa [← List.append_assoc s.lines.ready, ← ready] at first
      · obtain rfl : piece = [] := List.isEmpty_iff.mp (ended.symm.trans isEnd)
        exact atEnd rfl
      · have bound := underway.length_le
        simp only [left, ended, still, Bool.false_eq_true, if_false]
        cases piece with
        | nil => simp
        | cons b others =>
          simp only [List.isEmpty_cons, Bool.false_eq_true, if_false, List.length_cons] at bound ⊢
          omega
    · refine .inr (.inl ⟨piece, w', read, refused, ?_⟩)
      have all : (ending.2.content pipe).take n ++ piece ++ rest = ending.2.content pipe := by
        rw [List.append_assoc, whole, List.take_append_drop]
      rw [← all]
      refine malformed rest fun empty => ?_
      subst empty
      rw [List.nil_append] at whole
      rw [whole, (atEnd rfl).2, List.drop_length]
  · exact .inr (.inr stuck)

end Taking

private theorem takeLines_left {steps : Nat} (taking : Taking coding keepsEnds pipe r ending u n w out s)
    (isOpen : r.closed = false) (enough : Taking.left ending pipe n out s < steps) :
    let result := (takeLines r keepsEnds limit steps).exec s w
    Takes coding keepsEnds limit pipe ending result.1 result.2.1 result.2.2 := by
  induction steps generalizing limit u n w out s with
  | zero => cases enough
  | succ steps ih =>
    dsimp only
    unfold takeLines
    by_cases full : limit = some 0
    · rw [if_pos full]
      exact .enough (by simp [full])
    rw [if_neg full, Owning.exec_bind, Owning.exec_own]
    dsimp only
    rcases s.lines.pop?_cases with ⟨none, empty⟩ | ⟨line, rest, popped, split, some, isLine⟩
    · rw [none]
      dsimp only
      cases still : s.lines.ended with
      | true =>
        rw [if_pos rfl]
        exact taking.all still (empty still) limit
      | false =>
        rw [if_neg (by simp), Owning.exec_bind, Owning.exec_lift]
        rcases taking.read isOpen still with ⟨piece, v, w', lines, read, pushed, taking', fewer⟩ |
          ⟨piece, w', read, refused, malformed⟩ | ⟨w', read, stuck⟩
        · rw [read]
          dsimp only
          rw [pushed, Owning.exec_bind, Owning.exec_change]
          exact ih taking' (by omega)
        · rw [read]
          dsimp only
          rw [refused]
          exact .malformed malformed
        · rw [read]
          exact .stuck stuck
    · rw [popped]
      dsimp only
      obtain ⟨taking', fewer⟩ := taking.pop split some isLine
      rw [Owning.exec_bind, Owning.exec_change]
      refine Takes.ofFewer (ih taking' (Nat.lt_of_lt_of_le fewer (Nat.le_of_lt_succ enough))) fun limited none =>
        limited ?_
      rw [none, Option.map_none]

/-- From the start on, taking lines comes to one of these ends. -/
theorem takeLines_takes (isOpen : r.closed = false) (leads : w.pipeOf? r.descriptor = some pipe)
    (known : pipe < w.pipes.length) (noReader : ∀ p ∈ w.processes, p.holds (.readEnd pipe) = 0)
    (coding : Coding) (keepsEnds : Bool) (limit : Option Nat) :
    let result := (takeLines r keepsEnds limit (2 * everything r w + 4)).exec
      { lines := { decoder := ⟨coding, .none⟩ } } w
    Takes coding keepsEnds limit pipe ((runUntil r.atEnd none).exec w) result.1 result.2.1 result.2.2 := by
  have taking : Taking coding keepsEnds pipe r ((runUntil r.atEnd none).exec w) w 0 w []
      { lines := { decoder := ⟨coding, .none⟩ } } :=
    { underway := .start leads known noReader, follows := .start coding, taken := rfl
      first := fun _ _ => rfl, last := nofun }
  refine takeLines_left taking isOpen ?_
  obtain ⟨outcome, v, _, ran, plays, -⟩ := Sim.exec_runUntil r.atEnd none w
  have all : everything r w = (v.content pipe).length := by
    rw [← Reader.content_of (plays.pipeOf?.trans leads)]
    change (r.content ((runUntil r.atEnd none).exec w).2).length = _
    rw [ran]
  rw [all, ran]
  simp only [Taking.left, Nat.sub_zero, List.flatten_nil, List.length_nil, Bool.false_eq_true, if_false]
  omega

end Engine

end Pipework
