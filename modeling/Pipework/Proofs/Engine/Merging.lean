import Pipework.Proofs.Engine.Watching
import Pipework.Proofs.Vigil.Sharing

/-!
# Two streams into one object

A caller may send two streams into the same object. However the threads of the two pumps go on, nothing is lost, and a
text has whole characters, wherever the chunks were cut (`Handle.shared_object_gets_everything`). Where the object is
a stream in memory, what it held is written over from the position at which it stands
(`shared_stream_is_written_over`).
-/

namespace Pipework

open Vigil Engine

/-- **Two captures into one object lose nothing.** Of the pumps of a handle, two drain into one object that takes bytes
or text. In every interleaving in which nobody but the pumps writes there, and whatever parts of what is there are read
at a time: when both have come to their ends without a failure, the object has taken the writes of both in some order,
and those of each are its chunks, or the texts that its chunks come to. If nobody ignores a broken pipe, a wait without
a limit that returns has come to such an end. -/
theorem Handle.shared_object_gets_everything {h : Handle} {w : World} {ref : ObjectRef} {x : Cell} {pipe pipe' : Nat}
    (attends : h.Attends w) (two : (h.vigil w).SharedBy ref pipe pipe') (fresh : ∀ p ∈ h.pumps, p.decoder = none)
    (here : w.memory.get? ref = some x) (same : x.kind = ref.kind)
    (takes : ref.kind.TakesBytes ∨ ref.kind.TakesText) :
    (∀ v, GuardedRun (h.vigil w) v →
      (∀ t ∈ v.strands, t.ends = (some pipe, .object ref) ∨ t.ends = (some pipe', .object ref) →
        t.task = .done (.ok ())) →
      v.Merged w ref x pipe pipe') ∧
    ∀ statuses h' w', (wait endless).exec h w = (.ok statuses, h', w') →
      (∀ p ∈ h.pumps, p.settings.ignoresBrokenPipe = false) →
      ∃ v, GuardedRun (h.vigil w) v ∧ v.world = w' ∧ v.Merged w ref x pipe pipe' := by
  have merged (v : Vigil) (run : GuardedRun (h.vigil w) v)
      (finished : ∀ t ∈ v.strands, t.ends = (some pipe, .object ref) ∨ t.ends = (some pipe', .object ref) →
        t.task = .done (.ok ())) : v.Merged w ref x pipe pipe' := by
    obtain ⟨log, shared⟩ :=
      run.shared (h.vigil_shared fresh here same takes) attends.sound two.knows two.fills takes same
    exact shared.merged (run.run.sound attends.sound (h.vigil_advanced w)).1 (two.sameEnds run.run.sameEnds) finished
  refine ⟨merged, fun statuses h' w' waited strict => ?_⟩
  obtain ⟨v, run, returns⟩ := attends.waits_guarded waited
  have concluded := run.run.concluded attends.sound (h.vigil_advanced w) returns.stage
  have none : v.late = [] := concluded.unlimited returns.limited
  refine ⟨v, run, returns.world, merged v run fun t member ends => ?_⟩
  obtain ⟨number, there⟩ := List.getElem?_of_mem member
  have complete := concluded.pumps number t there (by simp [none])
  obtain ⟨p, isPump, settings⟩ := Handle.settings_of_run run.run member
  have sound := (run.run.sound attends.sound (h.vigil_advanced w)).1
  have strict : t.pump.settings.ignoresBrokenPipe = false := settings ▸ strict p isPump
  rcases ends with ends | ends
  all_goals exact sound.fine member (congrArg Prod.fst ends) complete.finished complete.quiet strict

/-! ## Two streams of a command -/

/-- A command whose stdout and stderr go into the same object. -/
private def outpouring (ref : ObjectRef) : Item :=
  let target := some ⟨.constant "target", .buffer ⟨.constant "buffer", .object ref⟩⟩
  commanded { stdout := target, stderr := target }

/-- A system with an empty text, in which `a` writes to its stdout a character of two bytes, a byte that begins none,
and the start of a character, and to its stderr another character. -/
private def textWorld : World :=
  { programs := [([.char 'a'],
      { reads := .nothing, out := [.bytes [0xC3, 0xA9, 0xFF, 0xE2]], err := [.bytes [0xC3, 0xB1]] })]
    memory := { cells := [.textStream [] 0] } }

/-- Whether an object is a stream with a content and a position. -/
private def isStream (m : Memory) (ref : ObjectRef) (x : Cell) : Bool :=
  match m.get? ref, x with
  | some (.textStream content position), .textStream content' position' => content == content' && position == position'
  | some (.byteStream content position), .byteStream content' position' => content == content' && position == position'
  | _, _ => false

private theorem get?_of_isStream {m : Memory} {ref : ObjectRef} {x : Cell} (tested : isStream m ref x) :
    m.get? ref = some x := by
  unfold isStream at tested
  split at tested
  iterate 2
    · next found =>
      rw [Bool.and_eq_true, beq_iff_eq, beq_iff_eq] at tested
      rw [found, tested.1, tested.2]
  · cases tested

/-- Read byte by byte, the text has the characters of both. -/
theorem Handle.shared_text_gets_everything :
    ∃ handle e' w' statuses h₁ w₁ v,
      (spawn (outpouring ⟨0, .textStream⟩) {}).exec (sized 1) textWorld = (.ok handle, e', w') ∧
      (Handle.wait Handle.endless).exec handle w' = (.ok statuses, h₁, w₁) ∧
      GuardedRun (handle.vigil w') v ∧ v.world = w₁ ∧
      v.Merged w' ⟨0, .textStream⟩ (.textStream [] 0) 0 1 ∧ w₁.memory.get? ⟨0, .textStream⟩
        = some (.textStream [.char 'é', .char '\uFFFD', .char '\uFFFD', .char 'ñ'] 4) := by
  have tested : answers (outpouring ⟨0, .textStream⟩) (sized 1) textWorld (Handle.wait Handle.endless)
      (fun h w _ _ w₁ =>
        (h.vigil w).strands.map Strand.ends
          == [(some 0, .object ⟨0, .textStream⟩), (some 1, .object ⟨0, .textStream⟩)] &&
        h.pumps.all (fun p => p.decoder.isNone && !p.settings.ignoresBrokenPipe) &&
        isStream w.memory ⟨0, .textStream⟩ (.textStream [] 0) &&
        isStream w₁.memory ⟨0, .textStream⟩ (.textStream [.char 'é', .char '\uFFFD', .char '\uFFFD', .char 'ñ'] 4)) := by
    decide +kernel
  obtain ⟨handle, e', w', statuses, h₁, w₁, spawned, hosted, waited, tested⟩ := exists_call tested
  simp only [Bool.and_eq_true, beq_iff_eq, List.all_eq_true, Option.isNone_iff_eq_none, Bool.not_eq_true'] at tested
  obtain ⟨⟨⟨ends, pumps⟩, before⟩, after⟩ := tested
  have textSound : textWorld.Sound := .ofNew rfl rfl (by simp [textWorld]) rfl
  obtain ⟨_, _, _, _, _, _, succeeds⟩ := spawn_ok textSound spawned
  obtain ⟨-, waits⟩ := shared_object_gets_everything (succeeds.attends textSound hosted)
    (.of_ends (by decide) ends) (fun p isPump => (pumps p isPump).1) (get?_of_isStream before) rfl (.inr (.inl rfl))
  obtain ⟨v, run, world, merged⟩ := waits statuses h₁ w₁ waited fun p isPump => (pumps p isPump).2
  exact ⟨handle, e', w', statuses, h₁, w₁, v, spawned, waited, run, world, merged, get?_of_isStream after⟩

/-- A system with a stream of three bytes that stands at its beginning, in which `a` writes a byte to its stdout and
another to its stderr. -/
private def streamWorld : World :=
  { programs := [([.char 'a'], { reads := .nothing, out := [.bytes [97]], err := [.bytes [98]] })]
    memory := { cells := [.byteStream [120, 121, 122] 0] } }

/-- After the wait has returned the stream begins with the two bytes, in the place of what it held. -/
theorem Handle.shared_stream_is_written_over :
    ∃ handle e' w' statuses h₁ w₁,
      (spawn (outpouring ⟨0, .byteStream⟩) {}).exec {} streamWorld = (.ok handle, e', w') ∧
      (Handle.wait Handle.endless).exec handle w' = (.ok statuses, h₁, w₁) ∧
      (handle.vigil w').SharedBy ⟨0, .byteStream⟩ 0 1 ∧
      (∀ p ∈ h₁.pumps, p.thread = .finished ∧ p.error = none ∧ p.moved = 1) ∧
      w'.memory.get? ⟨0, .byteStream⟩ = some (.byteStream [120, 121, 122] 0) ∧
      w₁.memory.get? ⟨0, .byteStream⟩ = some (.byteStream [97, 98, 122] 2) ∧
      ∀ more : Bytes, [97, 98, 122] ≠ [120, 121, 122] ++ more := by
  have tested : answers (outpouring ⟨0, .byteStream⟩) {} streamWorld (Handle.wait Handle.endless)
      (fun h w _ h₁ w₁ =>
        (h.vigil w).strands.map Strand.ends
          == [(some 0, .object ⟨0, .byteStream⟩), (some 1, .object ⟨0, .byteStream⟩)] &&
        h₁.pumps.all (fun p => p.thread == .finished && p.error.isNone && p.moved == 1) &&
        isStream w.memory ⟨0, .byteStream⟩ (.byteStream [120, 121, 122] 0) &&
        isStream w₁.memory ⟨0, .byteStream⟩ (.byteStream [97, 98, 122] 2)) := by
    decide +kernel
  obtain ⟨handle, e', w', statuses, h₁, w₁, spawned, -, waited, tested⟩ := exists_call tested
  simp only [Bool.and_eq_true, beq_iff_eq, List.all_eq_true, Option.isNone_iff_eq_none] at tested
  obtain ⟨⟨⟨ends, pumps⟩, before⟩, after⟩ := tested
  exact ⟨handle, e', w', statuses, h₁, w₁, spawned, waited, .of_ends (by decide) ends,
    fun p isPump => and_assoc.mp (pumps p isPump), get?_of_isStream before, get?_of_isStream after, by simp⟩

end Pipework
