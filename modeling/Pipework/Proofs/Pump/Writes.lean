import Pipework.Proofs.Pump.Collecting

/-!
# Write by write

What a drain writes into an object depends on nothing but the chunks that it reads (`Pump.Writes`): it has a decoder
of its own, so that the text it has written at any time is what its own chunks come to so far, whatever others have
written into the same object between two of them (`Strand.Step.writes`).
-/

namespace Pipework

namespace Pump

/-- The writes by which a drain puts some chunks into an object of a kind: the chunks as they are, or what they come
to as text in the coding of the pump, which matters as soon as there are any. -/
inductive Writes (p : Pump) (kind : ObjectKind) (chunks : List Bytes) : List Chunk → Prop where
  | bytes (takes : kind.TakesBytes) : p.Writes kind chunks (chunks.map .bytes)
  | text {coding : Coding} (takes : kind.TakesText)
    (coded : chunks ≠ [] → p.codingFor "lookup() argument" = .ok coding) :
    p.Writes kind chunks ((coding.transcript chunks).map .text)

/-- Only the settings of the pump matter. -/
theorem Writes.of_settings {p p' : Pump} {kind : ObjectKind} {chunks : List Bytes} {writes : List Chunk}
    (all : p.Writes kind chunks writes) (same : p'.settings = p.settings) : p'.Writes kind chunks writes := by
  cases all with
  | bytes takes => exact .bytes takes
  | text takes coded =>
    refine .text takes fun any => ?_
    rw [codingFor, same]
    exact coded any

end Pump

/-- Text is only taken by an object that takes text. -/
theorem Cell.TookEach.takesText {x y : Cell} {t : Text} (one : x.TookEach [.text t] y) : x.kind.TakesText := by
  cases one.tookText with
  | textStream => exact .inl rfl
  | textSink => exact .inr rfl

namespace Strand

/-- What a drain has written into an object of a kind, for the chunks that it has put there. While it is at work, its
decoder stands where its own chunks have brought it. -/
inductive Told (t : Strand) (kind : ObjectKind) (chunks : List Bytes) : List Chunk → Prop where
  | bytes (busy : ∀ outcome, t.task ≠ .done outcome) (takes : kind.TakesBytes) :
    t.Told kind chunks (chunks.map .bytes)
  | text {coding : Coding} (busy : ∀ outcome, t.task ≠ .done outcome) (takes : kind.TakesText)
    (stands : t.pump.decoder = none ∧ chunks = [] ∨ t.pump.codingFor "lookup() argument" = .ok coding ∧
      t.pump.decoder = some ((Decoder.mk coding .none).feed chunks.flatten).1) :
    t.Told kind chunks (((Decoder.mk coding .none).told chunks).map .text)
  | whole {writes : List Chunk} {outcome : Except Failure Unit} (finished : t.task = .done outcome)
    (all : t.pump.Writes kind chunks writes) : t.Told kind chunks writes

/-- The thread has not failed so far. -/
def Unfailed (t : Strand) : Prop := ∀ e, t.task.outcome? ≠ some (.error e)

/-- As long as a thread does not fail, it has written for some more chunks what its chunks come to next. -/
def Adds (t t' : Strand) (kind : ObjectKind) (new : List Bytes) (more : List Chunk) : Prop :=
  t'.Unfailed → t.Unfailed ∧
    ∀ chunks written, t.Told kind chunks written → t'.Told kind (chunks ++ new) (written ++ more)

variable {t t' : Strand} {kind : ObjectKind} {chunks new : List Bytes} {chunk : Bytes} {written more : List Chunk}
  {w w' : World} {ref : ObjectRef} {x y : Cell} {puts : List Put} {p : Pump} {outcome : Except Failure Unit}

/-- A drain that has not put anything has not written anything. -/
theorem Told.nothing (takes : kind.TakesBytes ∨ kind.TakesText) (busy : ∀ outcome, t.task ≠ .done outcome)
    (fresh : t.pump.decoder = none) : t.Told kind [] [] := by
  rcases takes with takes | takes
  · have nothing : t.Told kind [] ([].map .bytes) := .bytes busy takes
    exact nothing
  · have nothing : t.Told kind [] (((Decoder.mk .utf8 .none).told []).map .text) :=
      .text busy takes (.inl ⟨fresh, rfl⟩)
    exact nothing

/-- When it has finished, it has written everything. -/
theorem Told.complete (told : t.Told kind chunks written) (finished : t.task = .done outcome) :
    t.pump.Writes kind chunks written := by
  cases told with
  | bytes busy => exact absurd finished (busy outcome)
  | text busy => exact absurd finished (busy outcome)
  | whole _ all => exact all

/-- Only the task of the thread is another. -/
private theorem Adds.same (busy : ∀ outcome, t.task ≠ .done outcome) (busy' : ∀ outcome, t'.task ≠ .done outcome)
    (pump : t'.pump = t.pump) (earlier : t'.Unfailed → t.Unfailed) : t.Adds t' kind [] [] := by
  refine fun fine => ⟨earlier fine, fun chunks written told => ?_⟩
  rw [List.append_nil, List.append_nil]
  cases told with
  | bytes _ takes => exact .bytes busy' takes
  | text _ takes stands => exact .text busy' takes (pump ▸ stands)
  | whole finished => exact absurd finished (busy _)

/-- A thread that fails adds nothing. -/
private theorem Adds.failed {e : Failure} (failed : t'.task.outcome? = some (.error e)) : t.Adds t' kind new more :=
  fun fine => absurd failed (fine e)

/-- The decoder goes on from where the chunks of its own pump have brought it. -/
private theorem Told.theDecoder {coding : Coding} {d : Decoder}
    (stands : t.pump.decoder = none ∧ chunks = [] ∨ t.pump.codingFor "lookup() argument" = .ok coding ∧
      t.pump.decoder = some ((Decoder.mk coding .none).feed chunks.flatten).1)
    (found : Pump.theDecoder.exec t.pump w = (.ok d, t.pump, w)) :
    ∃ coding', t.pump.codingFor "lookup() argument" = .ok coding' ∧
      d = ((Decoder.mk coding' .none).feed chunks.flatten).1 ∧
      (Decoder.mk coding .none).told chunks = (Decoder.mk coding' .none).told chunks := by
  obtain ⟨-, -, known⟩ := Pump.theDecoder_ok found
  rcases known with found | ⟨unknown, coding', coded, rfl⟩ <;> rcases stands with ⟨none, rfl⟩ | ⟨coded', stands⟩
  · exact nomatch none.symm.trans found
  · exact ⟨coding, coded', Option.some.inj (found.symm.trans stands), rfl⟩
  · exact ⟨coding', coded, rfl, rfl⟩
  · exact nomatch unknown.symm.trans stands

/-- A chunk for an object that takes bytes is written as it is. -/
private theorem puts_bytes (task : t.task = .putting chunk) (buffer : t.pump.buffer = .object ref)
    (takes : ref.kind.TakesBytes) (here : w.memory.get? ref = some y)
    (taken : (Pump.writeBuffer chunk).exec t.pump w = (.ok (), p, w')) (moved : Nat) :
    ∃ more z, w'.memory.get? ref = some z ∧ y.TookEach more z ∧
      t.Adds { t with pump := { p with moved }, task := .reading } ref.kind [chunk] more := by
  obtain ⟨rfl, wrote⟩ := Pump.writeBuffer_bytes_ok buffer takes taken
  obtain ⟨z, after, one⟩ := Memory.tookEach_of_writeBytes here wrote
  refine ⟨_, z, after, one, fun _ => ⟨by simp [Unfailed, task, Task.outcome?], fun chunks written told => ?_⟩⟩
  cases told with
  | bytes =>
    have both : chunks.map Chunk.bytes ++ [.bytes chunk] = (chunks ++ [chunk]).map .bytes := by simp
    rw [both]
    exact .bytes (by simp) takes
  | text _ text => exact absurd text takes.noText
  | whole finished => cases task.symm.trans finished

/-- A chunk for an object that takes text is written as the text that it completes. -/
private theorem puts_text (task : t.task = .putting chunk) (buffer : t.pump.buffer = .object ref)
    (takes : ref.kind.TakesText) (here : w.memory.get? ref = some y)
    (taken : (Pump.writeBuffer chunk).exec t.pump w = (.ok (), p, w')) (moved : Nat) :
    ∃ more z, w'.memory.get? ref = some z ∧ y.TookEach more z ∧
      t.Adds { t with pump := { p with moved }, task := .reading } ref.kind [chunk] more := by
  obtain ⟨d, found, rfl, wrote⟩ := Pump.writeBuffer_text_ok buffer takes taken
  obtain ⟨z, after, one⟩ := Memory.tookEach_of_writeText here wrote
  refine ⟨_, z, after, one, fun _ => ⟨by simp [Unfailed, task, Task.outcome?], fun chunks written told => ?_⟩⟩
  cases told with
  | bytes _ bytes => exact absurd takes bytes.noText
  | whole finished => cases task.symm.trans finished
  | text _ _ stands =>
    obtain ⟨coding, coded, rfl, same⟩ := Told.theDecoder stands found
    have fed : (chunks ++ [chunk]).flatten = chunks.flatten ++ chunk := by simp
    have further := congrArg (List.map Chunk.text) ((Decoder.mk coding .none).told_concat chunks chunk)
    rw [List.map_append] at further
    rw [same, ← List.map_singleton, ← further]
    exact .text (by simp) takes (.inr ⟨coded, by rw [fed, Decoder.feed_append]⟩)

/-- When there is no rest to write, all has been written. -/
private theorem Told.ends (told : t.Told kind chunks written)
    (nothing : ∀ d, t.pump.decoder = some d → d.finish = []) : t.pump.Writes kind chunks written := by
  cases told with
  | bytes _ takes => exact .bytes takes
  | whole _ all => exact all
  | @text coding _ takes stands =>
    rcases stands with ⟨-, rfl⟩ | ⟨coded, stands⟩
    · have nothing : t.pump.Writes kind [] ((coding.transcript []).map .text) := .text takes (absurd rfl)
      exact nothing
    · rw [← Coding.transcript_of_none (nothing _ stands)]
      exact .text takes fun _ => coded

/-- The rest is one more write. -/
private theorem Told.rests {d : Decoder} (told : t.Told kind chunks written) (task : t.task = .ending outcome)
    (takes : kind.TakesText) (stands : t.pump.decoder = some d) (any : d.finish ≠ []) :
    t.pump.Writes kind chunks (written ++ [.text (d.finish.map Piece.replaced)]) := by
  cases told with
  | bytes _ bytes => exact absurd takes bytes.noText
  | whole finished => cases task.symm.trans finished
  | @text coding _ _ stands' =>
    rcases stands' with ⟨none, -⟩ | ⟨coded, stands'⟩
    · exact nomatch none.symm.trans stands
    · cases stands.symm.trans stands'
      have whole : t.pump.Writes kind chunks ((coding.transcript chunks).map .text) := .text takes fun _ => coded
      rwa [Coding.transcript_of_some any, List.map_append] at whole

/-- At the end of a text what is left of a character is written. -/
private theorem finishes_adds {last : Except Failure Unit} (task : t.task = .ending outcome)
    (buffer : t.pump.buffer = .object ref) (takes : ref.kind.TakesBytes ∨ ref.kind.TakesText)
    (here : w.memory.get? ref = some y) (same : y.kind = ref.kind)
    (ended : (do Sim.ofExcept outcome; Pump.writeTail : Owning Pump Unit).exec t.pump w = (last, p, w'))
    (error : Option Failure) : ∃ more z, w'.memory.get? ref = some z ∧ y.TookEach more z ∧
      t.Adds { t with pump := { p with error, thread := .finished }, task := .done last } ref.kind [] more := by
  have nothing : y.TookEach [] y := .nothing (same ▸ takes)
  rw [Owning.exec_bind, Owning.exec_lift, Sim.exec_ofExcept] at ended
  cases outcome with
  | error e =>
    cases ended
    exact ⟨[], y, here, nothing, .failed rfl⟩
  | ok _ =>
    have unfailed : t.Unfailed := by simp [Unfailed, task, Task.outcome?]
    rcases Pump.exec_writeTail_cases t.pump w with ⟨ran, none⟩ | ⟨d, ref', stands, buffer', any, ran⟩
    · cases ended.symm.trans ran
      refine ⟨[], y, here, nothing, fun _ => ⟨unfailed, fun chunks written told => ?_⟩⟩
      rw [List.append_nil, List.append_nil]
      have all := told.ends fun d stands => none d ref stands buffer
      exact .whole rfl (all.of_settings rfl)
    · cases buffer.symm.trans buffer'
      generalize wrote : w.memory.writeText ref (d.finish.map Piece.replaced) = result at ran
      obtain ⟨tried, memory⟩ := result
      cases ended.symm.trans ran
      cases tried with
      | error e =>
        have refused : (w.memory.writeText ref (d.finish.map Piece.replaced)).1 ≠ .ok () := by
          simp [wrote]
        have kept := Memory.writeText_refused refused
        rw [wrote] at kept
        exact ⟨[], y, by rwa [kept], nothing, .failed rfl⟩
      | ok _ =>
        obtain ⟨z, after, one⟩ := Memory.tookEach_of_writeText here wrote
        refine ⟨_, z, after, one, fun _ => ⟨unfailed, fun chunks written told => ?_⟩⟩
        rw [List.append_nil]
        exact .whole rfl ((told.rests task (same ▸ one.takesText) stands any).of_settings rfl)

/-- What a step of a drain writes into its object, the object has taken; unless the thread fails, it is what its own
chunks come to next. -/
theorem Step.writes (step : t.Step w w' t' puts) (drains : t.task ≠ .feeding) (buffer : t.pump.buffer = .object ref)
    (takes : ref.kind.TakesBytes ∨ ref.kind.TakesText) (here : w.memory.get? ref = some y) (same : y.kind = ref.kind) :
    ∃ more z, w'.memory.get? ref = some z ∧ y.TookEach more z ∧
      t.Adds t' ref.kind (puts.map Put.chunk) more := by
  have nothing : y.TookEach [] y := .nothing (same ▸ takes)
  cases step with
  | feeds task => exact absurd task drains
  | reads task there isOpen count any =>
    rw [(World.same_of_consume w count _).2]
    exact ⟨[], y, here, nothing, .same (by simp [task]) (by simp) rfl fun _ => by simp [Unfailed, task, Task.outcome?]⟩
  | fails task e => exact ⟨[], y, here, nothing, .failed rfl⟩
  | ends task there ended =>
    exact ⟨[], y, here, nothing, .same (by simp [task]) (by simp) rfl fun _ => by simp [Unfailed, task, Task.outcome?]⟩
  | puts task there taken =>
    rcases takes with takes | takes
    · exact puts_bytes task buffer takes here taken _
    · exact puts_text task buffer takes here taken _
  | @refused chunk e p _ task refused =>
    obtain ⟨_, _, memory, ran, wrote⟩ := Pump.exec_writeBuffer_wrote chunk t.pump w
    cases refused.symm.trans ran
    rw [wrote.refused (by simp)]
    exact ⟨[], y, here, nothing, .failed rfl⟩
  | @closes i outcome closing _ task there closed =>
    have memory := Pump.memory_of_closeReader closed
    rw [memory]
    refine ⟨[], y, here, nothing, .same (by simp [task]) (by simp) rfl fun fine e failed => ?_⟩
    rw [task] at failed
    cases failed
    cases closing <;> exact fine _ rfl
  | finishes task ended => exact finishes_adds task buffer takes here same ended _

end Strand

end Pipework
