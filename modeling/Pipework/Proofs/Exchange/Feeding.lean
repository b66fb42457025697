import Pipework.Proofs.Exchange.Lossless
import Pipework.Proofs.Exchange.Reaching

/-!
# The pump that feeds, in an exchange

A call with an input starts a pump that feeds stdin, and that pump is done as soon as it is started: the
chunks go to the writer, and the writer is closed. As runs of an exchange these are the steps `call`, `move`
for each chunk, and `close` or `lose`.
-/

namespace Pipework

variable {c : Exchange.Call} {s : Exchange} {w : World} {stage : Stage} {inn : Stream → Option Inflow}

/-- The bytes of an input, where a text is encoded in a coding, if it can be. -/
def Input.encodedIn? (coding : Coding) : Input → Option Bytes
  | bytes b => some b
  | text t => coding.encode t

namespace Pump

variable {p : Pump} {r : Writer}

/-- All chunks go to the writer, one after another. -/
theorem exec_writeChunks (isOpen : r.closed = false) (chunks : List Bytes) (p : Pump) (w : World) :
    (chunks.forM writeChunk).exec (p, r) w = (.ok (),
      ({ p with moved := p.moved + chunks.flatten.length },
        { r with held := r.held ++ chunks.flatten }), w) := by
  induction chunks generalizing p r with
  | nil => simp
  | cons chunk rest ih =>
    change (writeChunk chunk >>= fun _ => rest.forM writeChunk).exec (p, r) w = _
    rw [Owning.exec_bind, exec_writeChunk isOpen]
    dsimp only
    rw [ih (r := { r with held := r.held ++ chunk }) isOpen]
    simp [Nat.add_assoc]

/-- What feeding comes to: the chunks are with the writer, or there is a failure that is no broken pipe. -/
structure Fed (p : Pump) (chunks? : Option (List Bytes)) (outcome : Except Failure Unit) (p' : Pump) :
    Prop where
  settings : p'.settings = p.settings
  error : p'.error = p.error
  /-- What went to the writer is counted. -/
  moved : p'.moved = p.moved + (chunks?.getD []).flatten.length
  success : chunks?.isSome → outcome = .ok ()
  failure : chunks? = none → ∃ e, outcome = .error e ∧ e.isBrokenPipe = false

/-- The chunks go to a writer, if there are any. -/
def feedInto (r : Writer) (chunks? : Option (List Bytes)) : Writer :=
  { r with held := r.held ++ (chunks?.getD []).flatten }

/-- A fixed content is cut and written, unless it cannot be cut. -/
theorem exec_feedBytes (isOpen : r.closed = false) (b : Bytes) (p : Pump) (w : World) :
    ∃ outcome p', (feedBytes b).exec (p, r) w
        = (outcome, (p', feedInto r (p.settings.cut? b)), w) ∧
      Fed p (p.settings.cut? b) outcome p' := by
  have same : feedInto r none = r := by simp [feedInto]
  unfold PumpSettings.cut? feedBytes
  rw [Owning.exec_bind, Owning.exec_own]
  dsimp only
  cases p.settings.chunkSize with
  | none =>
    dsimp only
    rw [same]
    exact ⟨_, p, rfl, rfl, rfl, rfl, nofun, fun _ => ⟨_, rfl, rfl⟩⟩
  | some size =>
    dsimp only
    by_cases zero : size = 0
    · rw [if_pos zero, if_pos zero, same]
      exact ⟨_, p, rfl, rfl, rfl, rfl, nofun, fun _ => ⟨_, rfl, rfl⟩⟩
    · rw [if_neg zero, if_neg zero]
      by_cases positive : 0 < size
      · rw [if_pos positive, if_pos positive]
        exact ⟨_, _, exec_writeChunks isOpen _ p w, rfl, rfl, rfl, fun _ => rfl, nofun⟩
      · rw [if_neg positive, if_neg positive]
        exact ⟨_, p, by simp [feedInto], rfl, rfl, rfl, fun _ => rfl, nofun⟩

/-- An input is encoded, cut and written, unless one of that cannot be done. -/
theorem exec_feedAll {input : Input} {coding : Coding} (isOpen : r.closed = false)
    (given : p.buffer = input.toBuffer)
    (named : ∀ t, input = .text t → p.codingFor "encode() argument 'encoding'" = .ok coding) (w : World) :
    ∃ outcome p', feedAll.exec (p, r) w
        = (outcome, (p', feedInto r ((input.encodedIn? coding).bind p.settings.cut?)), w) ∧
      Fed p ((input.encodedIn? coding).bind p.settings.cut?) outcome p' := by
  have encoding (t : Text) (isText : input = .text t) :
      p.encoded t = (coding.encode t).elim (.error .encoding) .ok := by
    cases spelled : coding.encode t <;> simp [encoded, named t isText, bind, Except.bind, spelled] <;> rfl
  have feeding : feedAll.exec (p, r) w =
      (input.encodedIn? coding).elim (.error .encoding, (p, r), w) fun b => (feedBytes b).exec (p, r) w := by
    unfold feedAll
    rw [Owning.exec_bind, Owning.exec_own]
    dsimp only
    rw [given]
    cases input with
    | bytes b => rfl
    | text t =>
      simp only [Input.toBuffer, Input.encodedIn?, encoding t rfl]
      cases coding.encode t <;> rfl
  rw [feeding]
  cases input.encodedIn? coding with
  | none =>
    exact ⟨.error .encoding, p, by simp [feedInto], rfl, rfl, rfl, by rintro ⟨⟩, fun _ => ⟨_, rfl, rfl⟩⟩
  | some b => exact exec_feedBytes isOpen b p w

/-- A pump that feeds is started, and is done. -/
theorem exec_start_feed {p₁ : Pump} {r₁ r₂ : Writer} {w₁ w₂ : World} {outcome closing : Except Failure Unit}
    (feeds : p.direction = .feed) (ends : writerOf p.pipeEnd = some r)
    (fed : feedAll.exec ({ p with thread := .running, pipeEnd := .gone }, r)
      (w.emit (.threadStarted p.threadName)) = (outcome, (p₁, r₁), w₁))
    (closed : Writer.close.exec r₁ w₁ = (closing, r₂, w₂)) :
    ∃ line, start.exec p w = (.ok (),
      { p₁ with error := p₁.verdict (do closing; outcome), thread := .finished },
      { w₂ with log := line :: w₂.log }) := by
  obtain ⟨line, started⟩ := exec_run { p with thread := .running } (w.emit (.threadStarted p.threadName))
  rw [← exec_start_of_feed feeds] at started
  rw [exec_move_of_feed (p := { p with thread := .running }) feeds ends,
    exec_feed fed closed] at started
  exact ⟨line, started⟩

end Pump

/-- All chunks that are left go to the writer. -/
def Outflow.moveAll (o : Outflow) : Outflow :=
  { o with writer := { o.writer with held := o.writer.held ++ o.left.flatten }, left := [] }

namespace Exchange.Reaches

theorem moveAll {o : Outflow} (reaches : Reaches c s w stage (some o) inn)
    (isOpen : o.writer.closed = false) : Reaches c s w stage (some o.moveAll) inn := by
  obtain ⟨chunks, left⟩ : ∃ chunks, o.left = chunks := ⟨_, rfl⟩
  induction chunks generalizing o with
  | nil =>
    have same : o.moveAll = o := by
      rw [Outflow.moveAll, left, List.flatten_nil, List.append_nil, ← left]
    rwa [same]
  | cons chunk rest ih =>
    have moved : Reaches c s w stage (some (o.move chunk rest)) inn :=
      reaches.tail (.refl w) fun entries => ⟨entries, .move rfl isOpen left⟩
    have same : (o.move chunk rest).moveAll = o.moveAll := by simp [Outflow.moveAll, Outflow.move, left]
    exact same ▸ ih moved isOpen rfl

/-- The call begins with an input: its pump is started, feeds stdin and is done. -/
theorem feeds {o : Outflow} {input : Input} {p : Pump} (reaches : Reaches c s w .before (some o) inn)
    (fresh : o.Fresh) (leads : w.channel? o.writer.descriptor = some (.writeEnd o.pipe))
    (given : c.input = some input) (name logger : Text)
    (isPump : p = Pump.make .feed (.writer o.writer) input.toBuffer name logger
      { chunkSize := c.settings.chunkSize, ignoresBrokenPipe := c.settings.ignoresBrokenPipe }) :
    ∃ p' w' o', Pump.start.exec p w = (.ok (), p', w') ∧ p'.thread = .finished ∧
      o'.written = o.written ∧ (p'.error = none → o'.Done c.settings) ∧ w'.memory = w.memory ∧
      Reaches c s w' .reading (some o') fun t => (inn t).map Inflow.begin := by
  have begun : Reaches c s (w.emit (.threadStarted p.threadName)) .reading (some (o.begin c.chunks?))
      fun t => (inn t).map Inflow.begin := by
    refine (reaches.emit (.threadStarted p.threadName)).tail (.refl _)
      fun entries => ⟨entries, ?_⟩
    have step := Step.call (c := c) (s := { world := w.emit (.threadStarted p.threadName)
                                            outflow := some o, inflow := inn, entries }) rfl fun _ => rfl
    rwa [given, Option.isSome_some, if_pos rfl] at step
  have moved := begun.moveAll fresh.isOpen
  have cut : (input.encodedIn? .utf8).bind p.settings.cut? = c.chunks? := by
    rw [Exchange.Call.chunks?, given, isPump]
    cases input <;> rfl
  have source : p.buffer = input.toBuffer := by rw [isPump]; rfl
  have named : p.codingFor "encode() argument 'encoding'" = .ok .utf8 := by rw [isPump]; rfl
  obtain ⟨outcome, p₁, fed, how⟩ := Pump.exec_feedAll (p := { p with thread := .running, pipeEnd := .gone })
    fresh.isOpen source (fun _ _ => named) (w.emit (.threadStarted p.threadName))
  rw [cut] at fed how
  have ignores : p₁.settings.ignoresBrokenPipe = c.settings.ignoresBrokenPipe := by
    rw [how.settings, isPump]
    rfl
  have clean : p₁.error = none := by
    rw [how.error, isPump]
    rfl
  obtain ⟨r, w', memory, ⟨closed, shut⟩ | ⟨closed, lost⟩⟩ :=
    moved.close (by rintro ⟨⟩) fresh.isOpen rfl leads
  · obtain ⟨line, started⟩ := Pump.exec_start_feed (isPump ▸ rfl) (isPump ▸ rfl) fed closed
    refine ⟨_, _, (o.begin c.chunks?).moveAll.close, started, rfl, rfl, fun quiet => ?_, memory,
      shut.aside rfl rfl rfl rfl⟩
    change p₁.verdict outcome = none at quiet
    refine ⟨rfl, fun broken => absurd (fresh.broken.symm.trans broken) Bool.false_ne_true, fun failed => ?_⟩
    obtain ⟨e, rfl, unbroken⟩ := how.failure (Option.isNone_iff_eq_none.mp failed)
    simp [Pump.verdict, unbroken] at quiet
  · obtain ⟨line, started⟩ := Pump.exec_start_feed (isPump ▸ rfl) (isPump ▸ rfl) fed closed
    refine ⟨_, _, (o.begin c.chunks?).moveAll.lose, started, rfl, rfl, fun quiet => ?_, memory,
      lost.aside rfl rfl rfl rfl⟩
    refine ⟨rfl, fun _ => ?_, fun _ => rfl⟩
    cases ignored : c.settings.ignoresBrokenPipe with
    | true => rfl
    | false =>
      change p₁.verdict (.error (.system .brokenPipe)) = none at quiet
      simp [Pump.verdict, ignores, ignored] at quiet

end Exchange.Reaches

end Pipework
