import Pipework.Proofs.Capture.Cleanup
import Pipework.Proofs.Engine.Communication
import Pipework.Proofs.Engine.Provision

/-!
# The coding of a text that is fed

An engine has a coding for texts, and a text that leads to stdin is fed in it, be it from a redirect of the graph
or as the input of `read`. A text that is given to `communicate` is not: its pump has no coding of its own, and
takes UTF-8, whatever the engine's is (`Engine.fed_texts_are_encoded`).
-/

namespace Pipework

namespace Engine

variable {w : World} {e : Engine} {name : Text} {coding : Coding} {t : Text} {b : Bytes}

/-- An input of `read` is the first of the buffers that the start feeds. -/
theorem Succeeds.feeds_input {graph i : Item} {v : World} {e' : Engine} {w' w₁ w₂ : World} {handle : Handle}
    {σ : Wiring} {events launching : List Event} {starts : List Start}
    (succeeds : Succeeds graph (readValues v i) e w handle e' w' w₁ w₂ σ events launching starts) :
    handle.graph.buffers[0]? = some ([], .stdin, i) := by
  obtain ⟨_, _, made⟩ := succeeds.begins.made
  exact Graph.buffers_of_redirect rfl made

/-- When a call of `communicate` with a text has returned, stdin has the text in UTF-8 behind what was written, or a
beginning of that where the settings of the engine allow for it. -/
theorem communicated_in_utf8 {item : Item} {values : RedirectValues} {e' : Engine} {w' : World} {handle : Handle}
    {s : Exchange} {o : Outflow} (sound : w.Sound) (hosted : handle.graph.Hosted w)
    (spawned : (spawn item values).exec e w = (.ok handle, e', w'))
    (run : Exchange.Run (handle.call (some (.text t))) (handle.exchange w') s) (returned : s.stage = .returned)
    (stdin : s.outflow = some o) :
    s.entered o.pipe <+: o.written ++ (Coding.utf8.encode t).getD [] ∧
      (¬ e.settings.pumps.SkipsAll → e.settings.pumps.ignoresBrokenPipe = false →
        ∃ b, Coding.utf8.encode t = some b ∧ s.entered o.pipe = o.written ++ b) := by
  obtain ⟨_, _, _, _, _, _, succeeds⟩ := spawn_ok sound spawned
  have settings : (handle.call (some (.text t))).settings = e.settings.pumps := by
    change handle.settings = _
    rw [succeeds.handle]
  obtain ⟨-, lossless⟩ := (spawn_communicates_losslessly sound hosted spawned).1 _ s run returned
  rw [← settings]
  exact ⟨lossless.order o stdin, fun feeds strict => lossless.input (fun skips => feeds skips.2) strict o stdin⟩

/-- **The coding of a text that is fed.** With a coding of the engine in which a text is some bytes: where a redirect
leads from the text to the stdin of a command, these bytes are fed to it; and so they are where the text is the input
of `read`. But where the text is given to `communicate`, what enters stdin behind what was written is the text in
UTF-8. This holds in every interleaving, and the calls of the program itself are among these. -/
theorem fed_texts_are_encoded (sound : w.Sound) (coded : e.settings.pumps.coding = some name)
    (named : Coding.named name = .ok coding) (encodes : coding.encode t = some b) :
    (∀ item values (handle : Handle) e' w', (spawn item values).exec e w = (.ok handle, e', w') → handle.graph.Hosted w →
      (∀ (number : Nat) place held, handle.graph.buffers[number]? = some (place, .stdin, held) →
        held.it = .str t → Feeds item values e w handle w' place b) ∧
      (∀ s, Exchange.Run (handle.call (some (.text t))) (handle.exchange w') s → s.stage = .returned →
        ∀ o, s.outflow = some o → s.entered o.pipe <+: o.written ++ (Coding.utf8.encode t).getD [] ∧
          (¬ e.settings.pumps.SkipsAll → e.settings.pumps.ignoresBrokenPipe = false →
            ∃ b', Coding.utf8.encode t = some b' ∧ s.entered o.pipe = o.written ++ b')) ∧
      ∀ writes limit output h₁ w₁,
        (do Handle.writeAll writes
            Handle.communicate (some (.text t)) limit).exec handle w' = (.ok output, h₁, w₁) →
        ∃ s, Exchange.Run (handle.call (some (.text t))) (handle.exchange w') s ∧
          s.Returns handle writes.flatten output h₁ w₁) ∧
    ∀ graph i, i.it = .str t →
      (read graph (some i)).exec e w = (readWith graph (readValues w i)).exec e (numbered w) ∧
      ∀ (handle : Handle) e' w', (spawn graph (readValues w i)).exec e (numbered w) = (.ok handle, e', w') →
        handle.graph.Hosted (numbered w) → Feeds graph (readValues w i) e (numbered w) handle w' [] b := by
  have codes (u : Text) (_ : Input.text t = .text u) :
      ∃ name, e.settings.pumps.coding = some name ∧ Coding.named name = .ok coding := ⟨name, coded, named⟩
  refine ⟨fun item values handle e' w' spawned hosted => ⟨fun number place held buffer isText => ?_,
    fun s run returned o stdin => ?_, fun writes limit output h₁ w₁ called => ?_⟩, fun graph i isText => ?_⟩
  · exact spawn_feeds sound hosted spawned buffer (by rw [isText]; rfl) codes encodes
  · exact communicated_in_utf8 sound hosted spawned run returned stdin
  · exact (spawn_communicates_losslessly sound hosted spawned).2 writes (some (.text t)) limit output h₁ w₁ called
  · refine ⟨exec_read_input e w graph i, fun handle e' w' spawned hosted => ?_⟩
    have numbered := sound.passes (passes_numbered w)
    obtain ⟨_, _, _, _, _, _, succeeds⟩ := spawn_ok numbered spawned
    exact spawn_feeds numbered hosted spawned succeeds.feeds_input (by rw [isText]; rfl) codes encodes

/-- An engine whose texts are in Latin-1. -/
private def latin : Engine := { settings := { pumps := { coding := some "latin-1" } } }

/-- A text of one letter. -/
private def accented : Item := ⟨.constant "text", .str [.char 'é']⟩

/-- A command that is fed this text. -/
private def reciter : Item := commanded { stdin := some ⟨.constant "payload", .buffer accented⟩ }

/-- Whether a handle is of a start that feeds this text to its graph. -/
private def isReciting (h : Handle) : Bool :=
  match (h.graph.buffers[0]? : Option (Place × Stream × Item)) with
  | some ([], .stdin, ⟨_, .str [.char 'é']⟩) => true
  | _ => false

/-- The text is fed as one byte by a redirect, and so it is by `read`, which returns what an echo makes of it. -/
theorem accent_is_fed_in_latin1 :
    (∃ handle e' w', (spawn reciter {}).exec latin (smallWorld ['a']) = (.ok handle, e', w') ∧
      Feeds reciter {} latin (smallWorld ['a']) handle w' [] [0xE9]) ∧
    (read (letterItem 'a') (some accented)).exec latin (smallWorld ['a'])
      = (readWith (letterItem 'a') (readValues (smallWorld ['a']) accented)).exec latin (numbered (smallWorld ['a'])) ∧
    ((read (letterItem 'a') (some accented)).exec latin (smallWorld ['a'])).1 = .ok [0xE9] := by
  have tested : answers reciter latin (smallWorld ['a']) (pure ()) (fun h _ _ _ _ => isReciting h) := by
    decide +kernel
  obtain ⟨handle, e', w', _, _, _, spawned, hosted, -, first⟩ := exists_call tested
  have echoed : ((read (letterItem 'a') (some accented)).exec latin (smallWorld ['a'])).1.toOption = some [0xE9] := by
    decide +kernel
  have encodes : Coding.latin1.encode [.char 'é'] = some [0xE9] := by decide
  obtain ⟨starts, reads⟩ := fed_texts_are_encoded (e := latin) (smallWorld_sound ['a']) rfl Coding.named_latin1 encodes
  refine ⟨⟨handle, e', w', spawned, ?_⟩, (reads (letterItem 'a') accented rfl).1, ?_⟩
  · unfold isReciting at first
    split at first
    · next buffer => exact (starts _ _ _ _ _ spawned hosted).1 0 _ _ buffer rfl
    · cases first
  · generalize ((read (letterItem 'a') (some accented)).exec latin (smallWorld ['a'])).1 = outcome at echoed
    cases outcome with
    | error failure => cases echoed
    | ok output => rw [Option.some.inj echoed]

/-- But `communicate` feeds it as two bytes on the same engine, and returns normally. -/
theorem accent_is_communicated_in_utf8 : ∃ handle e' w' h₁ w₁ s o,
    (spawn talking {}).exec latin (smallWorld ['a']) = (.ok handle, e', w') ∧
    (Handle.communicate (some (.text [.char 'é'])) Handle.endless).exec handle w' = (.ok (some [0xC3, 0xA9]), h₁, w₁) ∧
    Exchange.Run (handle.call (some (.text [.char 'é']))) (handle.exchange w') s ∧ s.world = w₁ ∧
    s.outflow = some o ∧ o.written = [] ∧ s.entered o.pipe = [0xC3, 0xA9] ∧
    Coding.latin1.encode [.char 'é'] = some [0xE9] := by
  have tested : answers talking latin (smallWorld ['a'])
      (Handle.communicate (some (.text [.char 'é'])) Handle.endless)
      (fun h _ output _ _ => output == some [0xC3, 0xA9] && h.stdin.map Writer.held == some []) := by
    decide +kernel
  obtain ⟨handle, e', w', output, h₁, w₁, spawned, hosted, called, tested⟩ := exists_call tested
  rw [Bool.and_eq_true, beq_iff_eq, beq_iff_eq] at tested
  obtain ⟨rfl, held⟩ := tested
  obtain ⟨s, run, returns, -, -⟩ :=
    exists_run (some (.text [.char 'é'])) (smallWorld_sound ['a']) hosted spawned called
  obtain ⟨r, stdin, unwritten⟩ := Option.map_eq_some_iff.mp held
  have written := returns.written
  rw [stdin, Option.map_some, unwritten] at written
  obtain ⟨o, out, nothing⟩ := Option.map_eq_some_iff.mp written
  obtain ⟨b, encoded, entered⟩ :=
    (communicated_in_utf8 (smallWorld_sound ['a']) hosted spawned run returns.stage out).2
      (PumpSettings.feeds_of_positive (n := 65536) (by decide) rfl) rfl
  have spelled : Coding.utf8.encode [.char 'é'] = some [0xC3, 0xA9] := by decide
  cases spelled.symm.trans encoded
  exact ⟨handle, e', w', h₁, w₁, s, o, spawned, called, run, returns.world, out, nothing,
    by rw [entered, nothing]; rfl, by decide⟩

end Engine

end Pipework
