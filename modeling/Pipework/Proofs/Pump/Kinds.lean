import Pipework.Proofs.Handle.Verdicts
import Pipework.Proofs.Pump.Ignoring

/-!
# Failures that tell the kind of a buffer

A pump that drains into something that cannot be written to, or feeds from something that cannot be read, fails in
its thread, with an error that tells what the buffer lacks. A pump whose buffer suits its direction does not
(`Pump.unkind_of_run`): the kind of an object stays what it is while the pump works on it, and each operation that
the pump asks for is one that objects of this kind have. Two exceptions are no matter of the direction: what a source
of the caller's hands out may be no content, and a text stream that is only written to cannot be read.
-/

namespace Pipework

/-- Whether a failure tells that a value is not of the kind that it is used as. -/
def Failure.tellsKind : Failure → Bool
  | lacking .. | unsupported _ | wrongType => true
  | _ => false

namespace Owning

variable {σ α β : Type} {Allowed : Failure → Prop} {P : σ → World → Prop} {m : Owning σ α}

/-- Where something holds, a step keeps it and fails with nothing else. -/
def FailsUnder (P : σ → World → Prop) (Allowed : Failure → Prop) (m : Owning σ α) : Prop :=
  ∀ s w, P s w → P (m.exec s w).2.1 (m.exec s w).2.2 ∧ ∀ e, (m.exec s w).1 = .error e → Allowed e

namespace FailsUnder

theorem pure (a : α) : FailsUnder P Allowed (pure a : Owning σ α) := fun _ _ holds => ⟨holds, nofun⟩

theorem throw {e : Failure} (allowed : Allowed e) : FailsUnder P Allowed (throw e : Owning σ α) :=
  fun _ _ holds => ⟨holds, fun _ same => Except.error.inj same ▸ allowed⟩

theorem change {f : σ → σ} (keeps : ∀ s w, P s w → P (f s) w) : FailsUnder P Allowed (Owning.change f) :=
  fun s w holds => ⟨keeps s w holds, nofun⟩

theorem lift {m : Sim α} (keeps : ∀ s, m.Preserves (P s))
    (fails : ∀ s w e, P s w → (m.exec w).1 = .error e → Allowed e) :
    FailsUnder P Allowed (liftM m : Owning σ α) :=
  fun s w holds => ⟨keeps s w holds, fun e failed => fails s w e holds failed⟩

theorem ofExcept {outcome : Except Failure α} (allowed : ∀ e, outcome = .error e → Allowed e) :
    FailsUnder P Allowed (liftM (Sim.ofExcept outcome) : Owning σ α) :=
  .lift (fun _ => .ofExcept _) fun _ _ e _ failed => allowed e (by rwa [Sim.exec_ofExcept] at failed)

theorem bind {f : α → Owning σ β} (first : FailsUnder P Allowed m) (second : ∀ a, FailsUnder P Allowed (f a)) :
    FailsUnder P Allowed (m >>= f) := by
  intro s w holds
  have after := first s w holds
  rw [exec_bind]
  generalize m.exec s w = result at after
  obtain ⟨outcome, s', w'⟩ := result
  cases outcome with
  | error e =>
    refine ⟨after.1, fun e' same => after.2 e' ?_⟩
    cases same
    rfl
  | ok a => exact second a s' w' after.1

/-- A step after which something is done whatever came of it, and then what came of it counts. -/
theorem afterwards {last : Owning σ Unit} {rest : Owning σ β} {m : Owning σ Unit} (first : FailsUnder P Allowed m)
    (always : FailsUnder P Allowed last) (next : FailsUnder P Allowed rest) :
    FailsUnder P Allowed (do
      let outcome ← m.attempt
      last
      Sim.ofExcept outcome
      rest) := by
  intro s w holds
  obtain ⟨kept, allowed⟩ := first s w holds
  rw [exec_bind, exec_attempt]
  exact (always.bind fun _ => (ofExcept allowed).bind fun _ => next) _ _ kept

/-- What a step sees of its own state is a state of which something holds. -/
theorem own_bind {f : σ → Owning σ β} (next : ∀ s w, P s w → FailsUnder P Allowed (f s)) :
    FailsUnder P Allowed (Owning.own >>= f) := by
  intro s w holds
  rw [exec_bind, exec_own]
  exact next s w holds s w holds

end FailsUnder

end Owning

/-! ## Objects -/

/-- The kinds of objects that have a way to be read. -/
def ObjectKind.IsReadable (kind : ObjectKind) : Prop :=
  kind = .byteStream ∨ kind = .textStream ∨ kind = .textSink ∨ kind = .source

/-- An object of the memory is of the kind that it is referred to by. -/
def Memory.Knows (m : Memory) (ref : ObjectRef) : Prop := ∃ cell, m.get? ref = some cell ∧ cell.kind = ref.kind

namespace Memory

variable {m : Memory} {ref : ObjectRef}

theorem Knows.put (knows : m.Knows ref) {cell : Cell} (kind : cell.kind = ref.kind) : (m.put ref cell).Knows ref := by
  obtain ⟨old, found, -⟩ := knows
  exact ⟨cell, get?_put (by rw [found]; rfl), kind⟩

/-- An object stays of its kind whatever is written to it. -/
theorem Knows.writeBytes (knows : m.Knows ref) (b : Bytes) : (m.writeBytes ref b).2.Knows ref := by
  obtain ⟨cell, found, kind⟩ := id knows
  unfold Memory.writeBytes
  rw [found]
  cases cell with
  | byteArray | byteStream => exact knows.put kind
  | sink written refusal =>
    dsimp only
    split
    · exact knows
    · exact knows.put kind
  | textStream | textSink | source | iterator => exact knows

theorem Knows.writeText (knows : m.Knows ref) (t : Text) : (m.writeText ref t).2.Knows ref := by
  obtain ⟨cell, found, kind⟩ := id knows
  unfold Memory.writeText
  rw [found]
  cases cell with
  | textStream | textSink => exact knows.put kind
  | byteArray | byteStream | sink | source | iterator => exact knows

/-- An object stays of its kind whatever is read from it. -/
theorem Knows.readChunk (knows : m.Knows ref) (size : Int) : (m.readChunk ref size).2.Knows ref := by
  obtain ⟨cell, found, kind⟩ := id knows
  unfold Memory.readChunk
  rw [found]
  cases cell with
  | byteStream | textStream => exact knows.put kind
  | source chunks failure =>
    cases chunks with
    | nil => exact knows
    | cons v rest => exact knows.put kind
  | byteArray | textSink | sink | iterator => exact knows

theorem Knows.unkindly_of_writeBytes (knows : m.Knows ref) (takes : ref.kind.TakesBytes) {b : Bytes} {e : Failure}
    (failed : (m.writeBytes ref b).1 = .error e) : ¬ e.tellsKind := by
  obtain ⟨cell, found, kind⟩ := knows
  rw [← kind] at takes
  unfold Memory.writeBytes at failed
  rw [found] at failed
  cases cell with
  | byteArray | byteStream => cases failed
  | sink written refusal =>
    dsimp only at failed
    split at failed
    · cases failed
      exact Bool.false_ne_true
    · cases failed
  | textStream | textSink | source | iterator => rcases takes with takes | takes | takes <;> cases takes

theorem Knows.ok_of_writeText (knows : m.Knows ref) (takes : ref.kind.TakesText) (t : Text) :
    (m.writeText ref t).1 = .ok () := by
  obtain ⟨cell, found, kind⟩ := knows
  rw [← kind] at takes
  unfold Memory.writeText
  rw [found]
  cases cell with
  | textStream | textSink => rfl
  | byteArray | byteStream | sink | source | iterator => rcases takes with takes | takes <;> cases takes

/-- What one may find out about an object's kind by reading from it: that a source hands out what is no content, and
that a text stream which is only written to cannot be read. -/
inductive Mismatch (kind : ObjectKind) : Failure → Prop where
  | content (isSource : kind = .source) : Mismatch kind .wrongType
  | writeOnly (isTextSink : kind = .textSink) : Mismatch kind (.unsupported "read")

theorem Knows.mismatch_of_readChunk (knows : m.Knows ref) (readable : ref.kind.IsReadable) {size : Int} {e : Failure}
    (failed : (m.readChunk ref size).1 = .error e) (tells : e.tellsKind) : Mismatch ref.kind e := by
  obtain ⟨cell, found, kind⟩ := knows
  rw [← kind] at readable ⊢
  unfold Memory.readChunk at failed
  rw [found] at failed
  cases cell with
  | byteStream | textStream => cases failed
  | textSink written =>
    cases failed
    exact .writeOnly rfl
  | source chunks failure =>
    cases chunks with
    | nil => cases failed
    | cons v rest =>
      dsimp only at failed
      unfold Chunk.ofValue at failed
      split at failed
      · cases failed
        cases tells
      · cases failed
      · cases failed
      · split at failed
        · cases failed
        · cases failed
          exact .content rfl
  | byteArray | sink | iterator => rcases readable with kind | kind | kind | kind <;> cases kind

end Memory

/-- What a buffer has to be for a pump: to drain into, an object that takes bytes or text; to feed from, a content or
an object with a way to read it. -/
def Buffer.Suits (buffer : Buffer) : Direction → Prop
  | .drain => ∃ ref, buffer = .object ref ∧ (ref.kind.TakesBytes ∨ ref.kind.TakesText)
  | .feed =>
    match buffer with
    | .text _ | .bytes _ | .view _ => True
    | .object ref => ref.kind = .byteArray ∨ ref.kind.IsReadable
    | .unusable _ => False

namespace Pump

variable {p p' : Pump} {w w' : World} {buffer : Buffer} {e : Failure}

/-- A pump works on a buffer, and the memory knows the object if it is one. -/
def Works (buffer : Buffer) (p : Pump) (w : World) : Prop :=
  p.buffer = buffer ∧ ∀ ref, buffer = .object ref → w.memory.Knows ref

theorem Works.same (works : Works buffer p w) (sameBuffer : p'.buffer = p.buffer) (memory : w'.memory = w.memory) :
    Works buffer p' w' :=
  ⟨sameBuffer.trans works.1, fun ref same => memory ▸ works.2 ref same⟩

/-- The failures that do not tell the kind of a buffer. -/
def Unkind (e : Failure) : Prop := ¬ e.tellsKind

theorem unkind_of_codingFor {operation : Text} (failed : p.codingFor operation = .error e) : Unkind e := by
  unfold codingFor at failed
  split at failed
  · unfold Coding.named at failed
    split at failed
    · cases failed
      exact Bool.false_ne_true
    · split at failed
      · cases failed
        exact Bool.false_ne_true
      · split at failed <;> cases failed
        exact Bool.false_ne_true
  · cases failed
    exact Bool.false_ne_true

/-! ## Draining -/

/-- A pump drains into an object, and decodes only for one that takes text. -/
private structure Fills (ref : ObjectRef) (p : Pump) (w : World) : Prop where
  works : Works (.object ref) p w
  decodes : p.decoder.isSome → ref.kind.TakesText

private theorem Fills.same {ref : ObjectRef} (fills : Fills ref p w) (buffer : p'.buffer = p.buffer)
    (decoder : p'.decoder = p.decoder) (memory : w'.memory = w.memory) : Fills ref p' w' :=
  ⟨fills.works.same buffer memory, decoder ▸ fills.decodes⟩

/-- Text goes to an object that takes it. -/
private theorem fails_writeText {ref : ObjectRef} (isText : ref.kind.TakesText) (t : Text) :
    (liftM (onMemory (·.writeText ref t)) : Owning Pump Unit).FailsUnder (Fills ref) Unkind := by
  refine .lift (fun p w fills => ?_) fun p w e fills failed => ?_
  · rw [exec_onMemory]
    exact ⟨⟨fills.works.1, fun _ same => by cases same; exact (fills.works.2 ref rfl).writeText t⟩, fills.decodes⟩
  · rw [exec_onMemory] at failed
    exact nomatch ((fills.works.2 ref rfl).ok_of_writeText isText t).symm.trans failed

/-- What is written to a buffer that takes it can fail by its coding, and by what a writer of the caller's raises. -/
private theorem fails_writeBuffer {ref : ObjectRef} (takes : ref.kind.TakesBytes ∨ ref.kind.TakesText) (chunk : Bytes) :
    (writeBuffer chunk).FailsUnder (Fills ref) Unkind := by
  have decoder : theDecoder.FailsUnder (Fills ref) Unkind := by
    refine .own_bind fun p w fills => ?_
    split
    · exact .pure _
    · exact .bind (.ofExcept fun e failed => unkind_of_codingFor failed) fun _ => .pure _
  have decoded (isText : ref.kind.TakesText) : (do
      let fed := (← theDecoder).feed chunk
      Owning.change fun p => { p with decoder := some fed.1 }
      onMemory (·.writeText ref (fed.2.map Piece.replaced)) : Owning Pump Unit).FailsUnder (Fills ref) Unkind :=
    .bind decoder fun _ => .bind (.change fun p w fills => ⟨fills.works.same rfl rfl, fun _ => isText⟩)
      fun _ => fails_writeText isText _
  have bytes (isBytes : ref.kind.TakesBytes) :
      (liftM (onMemory (·.writeBytes ref chunk)) : Owning Pump Unit).FailsUnder (Fills ref) Unkind := by
    refine .lift (fun p w fills => ?_) fun p w e fills failed => ?_
    · rw [exec_onMemory]
      exact ⟨⟨fills.works.1, fun _ same => by cases same; exact (fills.works.2 ref rfl).writeBytes chunk⟩,
        fills.decodes⟩
    · rw [exec_onMemory] at failed
      exact (fills.works.2 ref rfl).unkindly_of_writeBytes isBytes failed
  refine .own_bind fun p w fills => ?_
  rw [fills.works.1]
  dsimp only
  split
  · next kind => exact decoded (.inl kind)
  · next kind => exact decoded (.inr kind)
  · next noStream noSink => exact bytes (takes.resolve_right (not_or.mpr ⟨noStream, noSink⟩))

private theorem fails_drainLoop {ref : ObjectRef} (takes : ref.kind.TakesBytes ∨ ref.kind.TakesText) (r : Reader)
    (chunks : Nat) : (drainLoop r chunks).FailsUnder (Fills ref) Unkind := by
  induction chunks with
  | zero => exact .pure ()
  | succ chunks ih =>
    refine .own_bind fun p w _ => .bind (.lift (fun q w fills => ?_) fun q w e fills failed => ?_) fun chunk => ?_
    · exact fills.same rfl rfl (memory_of_readUpTo (rfl : (r.readUpTo p.readLimit).exec w = _))
    · rcases Reader.error_of_readUpTo failed with rfl | rfl <;> exact Bool.false_ne_true
    · split
      · exact .pure ()
      · exact .bind (fails_writeBuffer takes chunk) fun _ =>
          .bind (.change fun p w fills => fills.same rfl rfl rfl) fun _ => ih

private theorem fails_writeTail {ref : ObjectRef} : writeTail.FailsUnder (Fills ref) Unkind := by
  refine .own_bind fun p w fills => ?_
  dsimp only
  split
  · next d ref' decoder buffer =>
    cases fills.works.1.symm.trans buffer
    split
    · exact .pure ()
    · exact fails_writeText (fills.decodes (by rw [decoder]; rfl)) _
  · exact .pure ()

private theorem fails_closeReader {ref : ObjectRef} (r : Reader) :
    (liftM (closeReader r) : Owning Pump Unit).FailsUnder (Fills ref) Unkind := by
  refine .lift (fun p w fills => ?_) fun p w e _ failed => ?_
  · exact fills.same rfl rfl (memory_of_closeReader (r := r) (w := w) rfl)
  · rcases closeReader_cases r w with ⟨-, closed⟩ | closed | closed
    all_goals
      rw [closed] at failed
      cases failed
    exact Bool.false_ne_true

private theorem fails_drain {ref : ObjectRef} (takes : ref.kind.TakesBytes ∨ ref.kind.TakesText) (r : Reader) :
    (drain r).FailsUnder (Fills ref) Unkind :=
  .bind (.lift (fun _ _ => id) fun _ _ _ _ => nofun) fun _ =>
    .afterwards (fails_drainLoop takes r _) (fails_closeReader r) fails_writeTail

/-! ## Feeding -/

/-- Where a failure of feeding tells the kind of the buffer, the buffer is an object that does not hand out what it
could be read for. -/
def Reveals (buffer : Buffer) (e : Failure) : Prop :=
  e.tellsKind → ∃ ref, buffer = .object ref ∧ Memory.Mismatch ref.kind e

private theorem reveals_of_unkind (unkind : Unkind e) : Reveals buffer e := fun tells => absurd tells unkind

/-- A pump feeds from a buffer, beside the writer of its pipe. -/
private def Empties (buffer : Buffer) (s : Pump × Writer) (w : World) : Prop := Works buffer s.1 w

private theorem fails_writeChunk (chunk : Bytes) : (writeChunk chunk).FailsUnder (Empties buffer) (Reveals buffer) := by
  intro (p, r) w works
  cases closed : r.closed with
  | true =>
    have refused : (writeChunk chunk).exec (p, r) w = (.error (.misuse .writeToClosed), (p, r), w) := by
      simp [writeChunk, Writer.write, Writer.checkOpen, Owning.exec_bind, closed]
    rw [refused]
    exact ⟨works, fun e same => by cases same; exact reveals_of_unkind Bool.false_ne_true⟩
  | false =>
    rw [exec_writeChunk closed]
    exact ⟨works.same rfl rfl, fun e failed => by cases failed⟩

private theorem fails_forM (chunks : List Bytes) :
    (chunks.forM writeChunk).FailsUnder (Empties buffer) (Reveals buffer) := by
  induction chunks with
  | nil => exact .pure ()
  | cons chunk rest ih => exact .bind (fails_writeChunk chunk) fun _ => ih

private theorem fails_feedBytes (b : Bytes) : (feedBytes b).FailsUnder (Empties buffer) (Reveals buffer) := by
  refine .own_bind fun s w _ => ?_
  split
  · exact .throw (reveals_of_unkind Bool.false_ne_true)
  · next size _ =>
    have rest : (if 0 < size then (chunksOf size.toNat b.length b).forM writeChunk else pure () :
        Feeding Unit).FailsUnder (Empties buffer) (Reveals buffer) := by
      split
      · exact fails_forM _
      · exact .pure ()
    dsimp only
    split
    · exact .bind (.throw (reveals_of_unkind Bool.false_ne_true)) fun _ => rest
    · exact rest

private theorem fails_encoded (t : Text) :
    (liftM (Sim.ofExcept (p.encoded t)) : Feeding Bytes).FailsUnder (Empties buffer) (Reveals buffer) := by
  refine .ofExcept fun e failed => reveals_of_unkind ?_
  unfold encoded at failed
  cases named : p.codingFor "encode() argument 'encoding'" with
  | error e' =>
    rw [named] at failed
    cases failed
    exact unkind_of_codingFor named
  | ok coding =>
    simp only [named, bind, Except.bind] at failed
    split at failed <;> cases failed
    exact Bool.false_ne_true

private theorem fails_feedObject {ref : ObjectRef} (readable : ref.kind.IsReadable) (reads : Nat) :
    (feedObject ref reads).FailsUnder (Empties (.object ref)) (Reveals (.object ref)) := by
  induction reads with
  | zero => exact .pure ()
  | succ reads ih =>
    refine .own_bind fun s w _ => .bind (.lift (fun s w works => ?_) fun s w e works failed tells => ?_) fun chunk => ?_
    · rw [exec_onMemory]
      exact ⟨works.1, fun _ same => by cases same; exact (works.2 ref rfl).readChunk _⟩
    · rw [exec_onMemory] at failed
      exact ⟨ref, rfl, (works.2 ref rfl).mismatch_of_readChunk readable failed tells⟩
    · split
      · exact .pure ()
      · exact .pure ()
      · exact .bind (fails_writeChunk _) fun _ => ih
      · exact .bind (fails_encoded _) fun _ => .bind (fails_writeChunk _) fun _ => ih

private theorem fails_feedAll (suits : buffer.Suits .feed) : feedAll.FailsUnder (Empties buffer) (Reveals buffer) := by
  refine .own_bind fun s w works => ?_
  have same : s.1.buffer = buffer := works.1
  dsimp only
  rw [same]
  cases buffer with
  | text t => exact .bind (fails_encoded t) fun b => fails_feedBytes b
  | bytes b | view b => exact fails_feedBytes b
  | object ref =>
    refine .bind (.lift (fun _ _ => id) fun _ _ _ _ => nofun) fun w => ?_
    split
    · exact fails_feedBytes _
    · next other => exact fails_feedObject (suits.resolve_left other) _
  | unusable label => exact suits.elim

/-! ## Whole pumps -/

private theorem unkind_of_drains {ref : ObjectRef} (drains : p.direction = .drain) (fills : Fills ref p w)
    (takes : ref.kind.TakesBytes ∨ ref.kind.TakesText) (failed : (move.exec p w).1 = .error e) : Unkind e := by
  cases ends : readerOf p.pipeEnd with
  | none =>
    simp only [move, Owning.exec_bind, Owning.exec_own, Owning.exec_change, drains, ends] at failed
    cases failed
    exact Bool.false_ne_true
  | some r =>
    rw [exec_move_of_drain drains ends] at failed
    exact (fails_drain takes r { p with pipeEnd := .gone } w (fills.same rfl rfl rfl)).2 e failed

private theorem reveals_of_feeds (feeds : p.direction = .feed) (suits : buffer.Suits .feed)
    (works : Works buffer p w) (failed : (move.exec p w).1 = .error e) : Reveals buffer e := by
  cases ends : writerOf p.pipeEnd with
  | none =>
    simp only [move, Owning.exec_bind, Owning.exec_own, Owning.exec_change, feeds, ends] at failed
    cases failed
    exact reveals_of_unkind Bool.false_ne_true
  | some r =>
    have fed := (fails_feedAll suits ({ p with pipeEnd := .gone }, r) w (works.same rfl rfl)).2
    generalize given : feedAll.exec ({ p with pipeEnd := .gone }, r) w = result at fed
    obtain ⟨outcome, ⟨p₁, r₁⟩, w₁⟩ := result
    have closes := Writer.close_failsBy r₁ w₁
    generalize closed : Writer.close.exec r₁ w₁ = result at closes
    obtain ⟨closing, r₂, w₂⟩ := result
    rw [exec_move_of_feed feeds ends, exec_feed given closed] at failed
    -- what closing the writer has failed with comes first
    cases closing with
    | error x =>
      cases failed
      refine reveals_of_unkind ?_
      rcases closes e rfl with broken | rfl | rfl
      · cases e <;> first | cases broken | exact Bool.false_ne_true
      · exact Bool.false_ne_true
      · exact Bool.false_ne_true
    | ok _ => exact fed e failed

/-- What a pump keeps as its failure tells nothing of the kind of a buffer that suits its direction, except where the
buffer is read and does not hand out what it could be read for. -/
theorem unkind_of_run (suits : p.buffer.Suits p.direction) (fresh : p.decoder = none) (clean : p.error = none)
    (knows : ∀ ref, p.buffer = .object ref → w.memory.Knows ref) (failed : (run.exec p w).2.1.error = some e)
    (tells : e.tellsKind) :
    p.direction = .feed ∧ ∃ ref, p.buffer = .object ref ∧ Memory.Mismatch ref.kind e := by
  obtain ⟨line, ran⟩ := exec_run p w
  have kept := (move_keeps p w).2
  have moves : ∀ x, (move.exec p w).1 = .error x → x.tellsKind →
      p.direction = .feed ∧ ∃ ref, p.buffer = .object ref ∧ Memory.Mismatch ref.kind x := by
    intro x failed tells
    cases direction : p.direction with
    | drain =>
      rw [direction] at suits
      obtain ⟨ref, buffer, takes⟩ := suits
      exact absurd tells (unkind_of_drains direction ⟨⟨buffer, fun ref' same => knows ref' (buffer.trans same)⟩,
        by simp [fresh]⟩ takes failed)
    | feed =>
      rw [direction] at suits
      exact ⟨rfl, reveals_of_feeds direction suits ⟨rfl, knows⟩ failed tells⟩
  generalize move.exec p w = result at ran kept moves
  obtain ⟨outcome, p₁, w₁⟩ := result
  rw [ran] at failed
  have judged : p₁.verdict outcome = some e := failed
  cases outcome with
  | ok _ => cases (kept.trans clean).symm.trans judged
  | error x =>
    simp only [verdict] at judged
    split at judged
    · cases (kept.trans clean).symm.trans judged
    · cases judged
      exact moves e rfl tells

end Pump

end Pipework
