import Pipework.Proofs.Capture.Finishing
import Pipework.Proofs.Capture.Lines
import Pipework.Proofs.Capture.Streaming

/-!
# Lines and text

Two helpers hand out what a graph writes to stdout: one as a whole text, one line by line. They read the same
bytes, in one go or in pieces, and then finish the same handle; so when the one succeeds, the other does too.
But while the text is what the bytes decode to, the lines are cut from that text with its line ends folded: a
carriage return, alone or before a line feed, has become a line feed (`Engine.lines_agree_with_text`).
-/

namespace Pipework

open World Handle

namespace Engine

/-- To carry a handle to its end succeeds only when its use did, and when finishing it does. -/
theorem settleHandle_ok {σ α : Type} {result : Except Failure α} {handle : Handle} {a : α} {s s' : σ}
    {w w' : World} (settled : (settleHandle result handle : Owning σ α).exec s w = (.ok a, s', w')) :
    result = .ok a ∧ (finish.exec handle w).1 = .ok () := by
  cases result with
  | error failure =>
    simp only [settleHandle, Owning.exec_bind, Owning.exec_liftRunOn, Owning.exec_lift, Sim.exec_ofExcept,
      Owning.exec_throw] at settled
    split at settled <;> cases settled
  | ok b =>
    generalize finished : finish.exec handle w = result at *
    obtain ⟨ending, handle', w₁⟩ := result
    rw [exec_settleHandle_ok b finished] at settled
    cases ending with
    | error failure => cases settled
    | ok _ =>
      cases settled
      exact ⟨rfl, rfl⟩

theorem decoded_of_named {name : Text} {coding : Coding} {output : Bytes} {t : Text}
    (named : Coding.named name = .ok coding) (text : decoded (some name) output = .ok t) :
    coding.decode? output = some t := by
  unfold decoded at text
  simp only [named, pure_bind] at text
  cases result : coding.decode? output with
  | none =>
    rw [result] at text
    cases text
  | some t' =>
    rw [result] at text
    cases text
    rfl

section Started

variable {graph : Item} {name : Text} {coding : Coding} {e e' : Engine} {w w₁ : World} {handle : Handle}
variable {r : Reader} {pipe : Nat} {t : Text} {bytes : Bytes}

/-- A content is read when a graph is started, its stdout is read to the end, and the handle can be finished. -/
theorem read_ok {w' : World} (taken : (read graph none).exec e w = (.ok bytes, e', w')) : ∃ handle e₁ w₁,
    (spawn graph { stdout := endpoint }).exec e w = (.ok handle, e₁, w₁) ∧
      (Handle.read.exec handle w₁).1 = .ok bytes ∧
      (finish.exec (Handle.read.exec handle w₁).2.1 (Handle.read.exec handle w₁).2.2).1 = .ok () := by
  have spawns : (readWith graph { stdout := endpoint }).exec e w = (.ok bytes, e', w') := taken
  obtain ⟨handle, e₁, w₁, spawned, uses⟩ := Owning.bind_ok spawns
  rw [Owning.exec_bind, Owning.exec_liftRunOn] at uses
  obtain ⟨read, finished⟩ := settleHandle_ok uses
  exact ⟨handle, e₁, w₁, spawned, read, finished⟩

/-- A text is read when a content is, which decodes to it. -/
theorem readText_ok {codingName : Option Text}
    (text : ((readText graph codingName false none).exec e w).1 = .ok t) : ∃ bytes e' w',
    (read graph none).exec e w = (.ok bytes, e', w') ∧ decoded codingName bytes = .ok t := by
  generalize ran : (readText graph codingName false none).exec e w = result at text
  obtain ⟨_, e₂, w₂⟩ := result
  cases text
  obtain ⟨bytes, e₃, w₃, taken, ending⟩ := Owning.bind_ok ran
  obtain ⟨t', _, _, decodes, same⟩ := Owning.bind_ok ending
  rw [Owning.exec_lift, Sim.exec_ofExcept] at decodes
  rw [if_neg Bool.false_ne_true, Owning.exec_pure] at same
  cases same
  exact ⟨bytes, e₃, w₃, taken, congrArg (·.1) decodes⟩

/-- From a graph of which a text can be read, all lines can be taken, to the same end. -/
private theorem takes_all {v : World} {ended : Bool} (isOpen : r.closed = false)
    (owned : w₁.Owned r.descriptor (.readEnd pipe) pipe)
    (waited : (runUntil r.atEnd none).exec w₁ = (.ok ended, v))
    (decodes : coding.decode? (v.content pipe) = some t) (keepsEnds : Bool) : ∃ s w₂,
    (takeLines r keepsEnds none (2 * everything r w₁ + 4)).exec { lines := { decoder := ⟨coding, .none⟩ } } w₁
      = (.ok true, s, w₂) ∧ s.taken = t.foldLineEnds.lines.map (asTaken keepsEnds) ∧
      (v.consume (v.content pipe).length (.readEnd pipe)).Alike w₂ := by
  have takes := takeLines_takes isOpen owned.pipeOf? owned.known owned.exclusive.processes coding keepsEnds none
  generalize (takeLines r keepsEnds none (2 * everything r w₁ + 4)).exec
    { lines := { decoder := ⟨coding, .none⟩ } } w₁ = result at takes
  obtain ⟨outcome, s, w₂⟩ := result
  rw [waited] at takes
  cases takes with
  | all reached decoded taken ahead =>
    cases reached
    cases decoded.symm.trans decodes
    exact ⟨s, w₂, rfl, taken, ahead.caughtUp.alike⟩
  | enough limited => exact absurd rfl limited
  | malformed undecodable => cases undecodable.symm.trans decodes
  | stuck deadlock => cases deadlock

/-- When a text is read from a handle, the end of stdout comes, what has come decodes to the text, and the handle
can be finished. -/
private theorem whole_of_text (ready : handle.Ready w₁) (output : handle.stdout = some r)
    (isOpen : r.closed = false) (leads : w₁.pipeOf? r.descriptor = some pipe) (named : Coding.named name = .ok coding)
    (spawned : (spawn graph { stdout := endpoint }).exec e w = (.ok handle, e', w₁))
    (text : ((readText graph (some name) false none).exec e w).1 = .ok t) : ∃ ended v,
    (runUntil r.atEnd none).exec w₁ = (.ok ended, v) ∧ coding.decode? (v.content pipe) = some t ∧
      handle.Along w₁ handle (v.consume (v.content pipe).length (.readEnd pipe)) ∧
      (finish.exec handle (v.consume (v.content pipe).length (.readEnd pipe))).1 = .ok () := by
  obtain ⟨bytes, _, _, taken, decodes⟩ := readText_ok text
  obtain ⟨_, _, _, spawned', read, finished⟩ := read_ok taken
  cases spawned.symm.trans spawned'
  have along := Tended.read ready.sound handle w₁ ready.along
  rw [Handle.exec_read_of_output output, Reader.exec_readAll_eq isOpen leads] at read finished along
  generalize (runUntil r.atEnd none).exec w₁ = ending at read finished along
  obtain ⟨outcome, v⟩ := ending
  cases outcome with
  | error failure => cases read
  | ok ended =>
    cases read
    exact ⟨ended, v, rfl, decoded_of_named named decodes, along, finished⟩

/-- When a text can be read, so can all its lines, with their ends folded. -/
theorem exec_readLines_of_text (sound : w.Sound) (named : Coding.named name = .ok coding)
    (spawned : (spawn graph { stdout := endpoint }).exec e w = (.ok handle, e', w₁))
    (hosted : handle.graph.Hosted w) (text : ((readText graph (some name) false none).exec e w).1 = .ok t)
    (keepsEnds : Bool) : ∃ w', (readLines graph (some name) keepsEnds none).exec e w
      = (.ok (t.foldLineEnds.lines.map (asTaken keepsEnds), none), e', w') := by
  obtain ⟨_, _, _, _, _, _, succeeds⟩ := spawn_ok sound spawned
  have ready := succeeds.ready sound spawned
  obtain ⟨r, output, isOpen⟩ := exists_output sound spawned
  obtain ⟨-, pipe, owned⟩ := (succeeds.handle_owned sound hosted).reader .stdout r output
  obtain ⟨ended, v, waited, decodes, along, finished⟩ :=
    whole_of_text ready output isOpen owned.pipeOf? named spawned text
  obtain ⟨s, w₂, took, lines, alike⟩ := takes_all isOpen owned waited decodes keepsEnds
  have fresh (q : Writer) (stdin : handle.stdin = some q) : q.held = [] ∧ q.closed = false := by
    obtain ⟨_, -, rfl⟩ := succeeds.stdin_cases stdin
    exact ⟨rfl, rfl⟩
  have finishes : (finish.exec { handle with stdout := none } (w₂.shut r.descriptor)).1 = .ok () :=
    ((ready.stays along).finish_without_stdout output isOpen fresh alike).trans finished
  have closed := (exec_takeLines_close keepsEnds none ready output isOpen (2 * everything r w₁ + 4)
    { lines := { decoder := ⟨coding, .none⟩ } }).1
  rw [took] at closed
  generalize finishing : finish.exec { handle with stdout := none } (w₂.shut r.descriptor) = result at finishes
  obtain ⟨_, h', w'⟩ := result
  cases finishes
  refine ⟨w', ?_⟩
  rw [readLines, if_neg (by simp), Owning.exec_bind, Owning.exec_attempt, spawned]
  simp only [detachOutput, output, Option.getD_some, named, Owning.exec_bind, Owning.exec_lift, Sim.exec_world,
    Owning.exec_liftRunOn, took, closed, finishing, lines, Owning.exec_pure]

/-- **Lines and text agree** but for the line ends: where a graph can be started and a text can be read from it,
its lines can be read as well, and they are the lines of that text with its line ends folded. Put together they
are the text only if there is no carriage return in it, and without their ends they are the text's only if each
carriage return stands before a line feed. -/
theorem lines_agree_with_text (sound : w.Sound) (named : Coding.named name = .ok coding)
    (spawned : (spawn graph { stdout := endpoint }).exec e w = (.ok handle, e', w₁))
    (hosted : handle.graph.Hosted w) (text : ((readText graph (some name) false none).exec e w).1 = .ok t) :
    (∀ keepsEnds, ((readLines graph (some name) keepsEnds none).exec e w).1
        = .ok (t.foldLineEnds.lines.map (asTaken keepsEnds), none)) ∧
      (t.foldLineEnds.lines.map (asTaken true)).flatten = t.foldLineEnds ∧
      (t.foldLineEnds = t ↔ .char '\r' ∉ t) ∧
      (t.foldLineEnds.lines.map (asTaken false) = t.lines.map Text.chomp ↔ t.Paired) := by
  refine ⟨fun keepsEnds => ?_, ?_, Text.foldLineEnds_eq_self_iff, ?_⟩
  · obtain ⟨_, read⟩ := exec_readLines_of_text sound named spawned hosted text keepsEnds
    rw [read]
  · have kept : asTaken true = id := rfl
    rw [kept, List.map_id, Text.flatten_lines]
  · have cut : asTaken false = Text.chomp := rfl
    rw [cut]
    exact Text.map_chomp_lines_foldLineEnds_iff

end Started

/-! ## A carriage return -/

/-- The program `a` writes some bytes, is given no descriptor by its caller, and a text is read from it. -/
private def prints (output : Bytes) (t : Text) : Bool :=
  (((spawn (letterItem 'a') { stdout := endpoint }).exec {} (sayingWorld output)).1.toOption.any fun h =>
    (Chore.makings (h.graph.chores [])).all fun
      | .given .. => false
      | _ => true) &&
  ((readText (letterItem 'a') (some hostCoding) false none).exec {} (sayingWorld output)).1.toOption == some t

private theorem exists_handle {output : Bytes} {t : Text} (tested : prints output t) : ∃ handle e' w₁,
    (spawn (letterItem 'a') { stdout := endpoint }).exec {} (sayingWorld output) = (.ok handle, e', w₁) ∧
      handle.graph.Hosted (sayingWorld output) ∧
      ((readText (letterItem 'a') (some hostCoding) false none).exec {} (sayingWorld output)).1 = .ok t := by
  obtain ⟨started, read⟩ := (Bool.and_eq_true ..).mp tested
  generalize (spawn (letterItem 'a') { stdout := endpoint }).exec {} (sayingWorld output) = result at started
  obtain ⟨outcome, e', w₁⟩ := result
  generalize ((readText (letterItem 'a') (some hostCoding) false none).exec {} (sayingWorld output)).1 = text
    at read
  cases outcome with
  | error failure => cases started
  | ok handle =>
    cases text with
    | error failure => cases read
    | ok t' =>
      obtain rfl : t' = t := by simpa [Except.toOption] using read
      refine ⟨handle, e', w₁, rfl, fun d c made => ?_, rfl⟩
      cases List.all_eq_true.mp started _ made

/-- Before a line feed a carriage return is lost from a line that keeps its end. -/
theorem paired_return_agrees :
    ((readText (letterItem 'a') (some hostCoding) false none).exec {} (sayingWorld [120, 13, 10, 121])).1
      = .ok [.char 'x', .char '\r', .char '\n', .char 'y'] ∧
    ((readLines (letterItem 'a') (some hostCoding) true none).exec {} (sayingWorld [120, 13, 10, 121])).1
      = .ok ([[.char 'x', .char '\n'], [.char 'y']], none) ∧
    ((readLines (letterItem 'a') (some hostCoding) false none).exec {} (sayingWorld [120, 13, 10, 121])).1
      = .ok ([[.char 'x'], [.char 'y']], none) := by
  have tested : prints [120, 13, 10, 121] [.char 'x', .char '\r', .char '\n', .char 'y'] := by
    decide +kernel
  obtain ⟨handle, e', w₁, spawned, hosted, text⟩ := exists_handle tested
  have named : Coding.named hostCoding = .ok .utf8 := rfl
  have agrees := lines_agree_with_text (sayingWorld_sound _) named spawned hosted text
  exact ⟨text, agrees.1 true, agrees.1 false⟩

/-- A carriage return that stands alone is lost from the lines, and ends one that it should not. -/
theorem lone_return_ends_line : ∃ t kept cut,
    ((readText (letterItem 'a') (some hostCoding) false none).exec {} (sayingWorld [120, 13, 121])).1 = .ok t ∧
    ((readLines (letterItem 'a') (some hostCoding) true none).exec {} (sayingWorld [120, 13, 121])).1
      = .ok (kept, none) ∧
    ((readLines (letterItem 'a') (some hostCoding) false none).exec {} (sayingWorld [120, 13, 121])).1
      = .ok (cut, none) ∧
    kept.flatten ≠ t ∧ cut ≠ t.lines.map Text.chomp := by
  have tested : prints [120, 13, 121] [.char 'x', .char '\r', .char 'y'] := by
    decide +kernel
  obtain ⟨handle, e', w₁, spawned, hosted, text⟩ := exists_handle tested
  have named : Coding.named hostCoding = .ok .utf8 := rfl
  have reads := exec_readLines_of_text (sayingWorld_sound _) named spawned hosted text
  obtain ⟨_, kept⟩ := reads true
  obtain ⟨_, cut⟩ := reads false
  exact ⟨_, _, _, text, by rw [kept], by rw [cut], by decide, by decide⟩

end Engine

end Pipework
